import BbtFramework.Ecommerce.Storage
import Mathlib.Tactic.Linarith

/-!
# Orders and their settlement

An order is stored as pending, then settled by a call to the settlement service, and then
marked.  Nothing ties the two collections together: either process may fail between its
steps, a reply may be lost after the bill has been written, and a write that has failed may
still be carried out.  The order id alone keeps the two sides in agreement.
-/

namespace BbtFramework.Ecommerce

open BbtFramework.Library

section

variable [Infra]

def pendingRecord (node : Node) (order : OrderRequest) (price : PriceResponse) :
    Except Error Record :=
  let unit := price.unitCents
  if unit ≤ 0 ∨ Int64.maxValue / unit < order.qty then
    .error (makeError .invalidArgument "order amount overflow")
  else
    let total := order.qty * unit
    if total < order.discountCents then
      .error (makeError .invalidArgument "discount exceeds total")
    else .ok {
      orderId := order.orderId
      sku := order.sku
      qty := order.qty
      totalCents := total
      discountCents := order.discountCents
      payableCents := total - order.discountCents
      state := "pending"
      catalogInstance := price.instanceId
      orderInstance := node.instanceId
      settlementInstance := "" }

/-- `CreateOrder` from the stored order on. -/
def completeOrder (order : OrderRequest) (saved : Record) : ShopOp (Except Error Record) :=
  if ¬samePayload saved order then
    return .error (makeError .invalidArgument "id_conflict: order payload differs")
  else if saved.state = "settled" then return .ok saved
  else do
    let billed : Except Error Record ← asks (.settle ⟨order, saved.totalCents⟩)
    match billed with
    | .error error => return .error error
    | .ok bill =>
        if ¬samePayload bill order ∨ bill.state ≠ "settled" ∨
            bill.totalCents ≠ saved.totalCents ∨ bill.payableCents ≠ saved.payableCents then
          return .error (makeError .protocolError "inconsistent settlement reply")
        else do
          let updated : Except Error Unit ← markSettled
            { saved with state := "settled", settlementInstance := bill.settlementInstance }
          match updated with
          | .error error => return .error error
          | .ok () => readRecord .orders order.orderId

def createOrder (node : Node) (order : OrderRequest) : ShopOp (Except Error Record) :=
  match validateOrder order with
  | .error error => return .error error
  | .ok () =>
      if ¬node.storage then
        return .error (makeError .runtimeUnavailable "storage mode required")
      else do
        let saved : Except Error Record ← readRecord .orders order.orderId
        match saved with
        | .ok record => completeOrder order record
        | .error error =>
            if error.code ≠ .notFound then return .error error
            else do
              let price : Except Error PriceResponse ← asks (.price order.sku order.orderId)
              match price with
              | .error error => return .error error
              | .ok price =>
                  match pendingRecord node order price with
                  | .error error => return .error error
                  | .ok pending => do
                      let inserted : Except Error Record ← insertRecord .orders pending
                      match inserted with
                      | .error error => return .error error
                      | .ok record => completeOrder order record

def getOrder (node : Node) (id : String) : ShopOp (Except Error Record) :=
  if node.storage then readRecord .orders id
  else return .error (makeError .runtimeUnavailable "storage mode required")

def billRecord (node : Node) (request : BillRequest) : Record where
  orderId := request.order.orderId
  sku := request.order.sku
  qty := request.order.qty
  totalCents := request.totalCents
  discountCents := request.order.discountCents
  payableCents := request.totalCents - request.order.discountCents
  state := "settled"
  catalogInstance := ""
  orderInstance := ""
  settlementInstance := node.instanceId

/-- `Settle` from the stored bill on. -/
def answerSettle (request : BillRequest) (saved : Record) : ShopOp (Except Error Record) :=
  if ¬samePayload saved request.order ∨ saved.totalCents ≠ request.totalCents then
    return .error (makeError .invalidArgument "id_conflict: settlement payload differs")
  else do
    asks (.reply request saved)
    return .ok saved

def settle (node : Node) (request : BillRequest) : ShopOp (Except Error Record) :=
  match validateOrder request.order with
  | .error error => return .error error
  | .ok () =>
      if request.totalCents ≤ 0 ∨ request.totalCents < request.order.discountCents then
        return .error (makeError .invalidArgument "invalid settlement amount")
      else if ¬node.storage then
        return .error (makeError .runtimeUnavailable "storage mode required")
      else do
        let old : Except Error Record ← readRecord .bills request.order.orderId
        match old with
        | .ok record => answerSettle request record
        | .error error =>
            if error.code ≠ .notFound then return .error error
            else do
              let saved : Except Error Record ← insertRecord .bills (billRecord node request)
              match saved with
              | .error error => return .error error
              | .ok record => answerSettle request record

def getBill (node : Node) (id : String) : ShopOp (Except Error Record) :=
  if node.storage then readRecord .bills id
  else return .error (makeError .runtimeUnavailable "storage mode required")

end

inductive ShopEntry where
  | createOrder (node : Node) (order : OrderRequest)
  | getOrder (node : Node) (id : String)
  | settle (node : Node) (request : BillRequest)
  | getBill (node : Node) (id : String)
  deriving DecidableEq

inductive ShopResult where
  | created (order : OrderRequest) (answer : Except Error Record)
  | order (id : String) (answer : Except Error Record)
  | settled (request : BillRequest) (answer : Except Error Record)
  | bill (id : String) (answer : Except Error Record)
  deriving DecidableEq

def shopMain [Infra] : ShopEntry → ShopOp ShopResult
  | .createOrder node order => do
      let answer : Except Error Record ← createOrder node order
      return .created order answer
  | .getOrder node id => do
      let answer : Except Error Record ← getOrder node id
      return .order id answer
  | .settle node request => do
      let answer : Except Error Record ← settle node request
      return .settled request answer
  | .getBill node id => do
      let answer : Except Error Record ← getBill node id
      return .bill id answer

/-- The amounts of a record are exact, and nothing is paid back. -/
structure Record.Exact (record : Record) : Prop where
  qty : 0 < record.qty.toInt
  total : 0 < record.totalCents.toInt
  discount : 0 ≤ record.discountCents.toInt
  payable : record.payableCents.toInt = record.totalCents.toInt - record.discountCents.toInt
  owed : 0 ≤ record.payableCents.toInt

/-- An order has been checked and priced: its total is a whole number of cents for each
piece. -/
structure Record.IsOrder (record : Record) : Prop extends record.Exact where
  tokens : safeToken record.orderId = true ∧ safeToken record.sku = true
  priced : ∃ unit : Int, 0 < unit ∧ record.totalCents.toInt = record.qty.toInt * unit

structure Record.IsBill (record : Record) : Prop extends record.Exact where
  state : record.state = "settled"

structure Record.Agrees (order bill : Record) : Prop where
  orderId : bill.orderId = order.orderId
  sku : bill.sku = order.sku
  qty : bill.qty = order.qty
  total : bill.totalCents = order.totalCents
  discount : bill.discountCents = order.discountCents
  payable : bill.payableCents = order.payableCents

def Record.settledBy (order bill : Record) : Record :=
  { order with state := "settled", settlementInstance := bill.settlementInstance }

/-- A stored order, and what it is stored as later. -/
def Record.Before (first last : Record) : Prop :=
  last = first ∨ first.state = "pending" ∧ last.state = "settled" ∧
    last = { first with state := "settled", settlementInstance := last.settlementInstance }

theorem Record.Before.trans {first middle last : Record} (hfirst : first.Before middle)
    (hlast : middle.Before last) : first.Before last := by
  rcases hfirst with rfl | ⟨hpending, hsettled, hmiddle⟩
  · exact hlast
  · rcases hlast with rfl | ⟨hagain, -, -⟩
    · exact Or.inr ⟨hpending, hsettled, hmiddle⟩
    · rw [hsettled] at hagain
      exact absurd hagain (by decide)

/-- A settled order is not changed any more. -/
theorem Record.Before.of_settled {first last : Record} (hbefore : first.Before last)
    (hsettled : first.state = "settled") : last = first := by
  rcases hbefore with hsame | ⟨hpending, -, -⟩
  · exact hsame
  · rw [hsettled] at hpending
    exact absurd hpending (by decide)

/-- Only the state and the settling process ever change. -/
theorem Record.Before.payload {first last : Record} (hbefore : first.Before last) :
    last.orderId = first.orderId ∧ last.sku = first.sku ∧ last.qty = first.qty ∧
      last.totalCents = first.totalCents ∧ last.discountCents = first.discountCents ∧
      last.payableCents = first.payableCents := by
  rcases hbefore with rfl | ⟨-, -, hlast⟩
  · exact ⟨rfl, rfl, rfl, rfl, rfl, rfl⟩
  · rw [hlast]
    exact ⟨rfl, rfl, rfl, rfl, rfl, rfl⟩

theorem Record.Before.agrees {first last bill : Record} (hbefore : first.Before last)
    (hagrees : last.Agrees bill) : first.Agrees bill := by
  obtain ⟨hid, hsku, hqty, htotal, hdiscount, hpayable⟩ := hbefore.payload
  exact ⟨hagrees.orderId.trans hid, hagrees.sku.trans hsku, hagrees.qty.trans hqty,
    hagrees.total.trans htotal, hagrees.discount.trans hdiscount,
    hagrees.payable.trans hpayable⟩

/-- Marking an order changes none of its amounts. -/
theorem Record.IsOrder.settledBy {order more bill : Record} (hmore : more.IsOrder)
    (hbefore : order.Before more) : (order.settledBy bill).IsOrder := by
  obtain ⟨hid, hsku, hqty, htotal, hdiscount, hpayable⟩ := hbefore.payload
  obtain ⟨⟨qty, total, discount, payable, owed⟩, tokens, priced⟩ := hmore
  rw [hid, hsku] at tokens
  rw [hqty] at qty priced
  rw [htotal] at total payable priced
  rw [hdiscount] at discount payable
  rw [hpayable] at payable owed
  exact ⟨⟨qty, total, discount, payable, owed⟩, tokens, priced⟩

theorem Record.Agrees.settledBy {order bill other : Record} (hagrees : order.Agrees bill) :
    (order.settledBy other).Agrees bill :=
  ⟨hagrees.orderId, hagrees.sku, hagrees.qty, hagrees.total, hagrees.discount, hagrees.payable⟩

/-- The check before the multiplication: the quotient says exactly whether the product
fits. -/
theorem le_div_iff_mul_le {qty unit : Int64} (hunit : 0 < unit) :
    qty ≤ Int64.maxValue / unit ↔ qty.toInt * unit.toInt < 2 ^ 63 := by
  have hpos : 0 < unit.toInt := Int64.lt_iff_toInt_lt.mp hunit
  have hquotient : (Int64.maxValue / unit).toInt = (2 ^ 63 - 1) / unit.toInt := by
    rw [Int64.toInt_div_of_ne_left _ _ (by decide), Int64.toInt_maxValue,
      Int.tdiv_eq_ediv_of_nonneg (by decide)]
  rw [Int64.le_iff_toInt_le, hquotient, Int.le_ediv_iff_mul_le hpos]
  omega

theorem toInt_mul_of_le {qty unit : Int64} (hqty : 0 < qty) (hunit : 0 < unit)
    (hle : qty ≤ Int64.maxValue / unit) : (qty * unit).toInt = qty.toInt * unit.toInt := by
  have hfits := (le_div_iff_mul_le hunit).mp hle
  have hpos : 0 < qty.toInt * unit.toInt :=
    mul_pos (Int64.lt_iff_toInt_lt.mp hqty) (Int64.lt_iff_toInt_lt.mp hunit)
  rw [Int64.toInt_mul]
  exact Int.bmod_eq_of_le (by omega) (by omega)

theorem toInt_sub_of_le {total discount : Int64} (hdiscount : 0 ≤ discount)
    (hle : discount ≤ total) : (total - discount).toInt = total.toInt - discount.toInt := by
  have hlow : 0 ≤ discount.toInt := Int64.le_iff_toInt_le.mp hdiscount
  have hhigh := Int64.le_iff_toInt_le.mp hle
  have hbound := total.toInt_lt
  rw [Int64.toInt_sub]
  exact Int.bmod_eq_of_le (by omega) (by omega)

theorem Record.Exact.covered {record : Record} (hexact : record.Exact) :
    record.discountCents ≤ record.totalCents := by
  have hpayable := hexact.payable
  have howed := hexact.owed
  rw [Int64.le_iff_toInt_le]
  omega

theorem Record.exact_of_le {record : Record} (hqty : 0 < record.qty)
    (htotal : 0 < record.totalCents) (hdiscount : 0 ≤ record.discountCents)
    (hle : record.discountCents ≤ record.totalCents)
    (hpayable : record.payableCents = record.totalCents - record.discountCents) :
    record.Exact where
  qty := Int64.lt_iff_toInt_lt.mp hqty
  total := Int64.lt_iff_toInt_lt.mp htotal
  discount := Int64.le_iff_toInt_le.mp hdiscount
  payable := by
    rw [hpayable]
    exact toInt_sub_of_le hdiscount hle
  owed := by
    have hle' := Int64.le_iff_toInt_le.mp hle
    rw [hpayable, toInt_sub_of_le hdiscount hle]
    omega

section

variable [Infra]

/-- What `pendingRecord` gives, under its own checks. -/
theorem pendingRecord_eq_ok {node : Node} {order : OrderRequest} {price : PriceResponse}
    {pending : Record} (hok : pendingRecord node order price = .ok pending) :
    0 < price.unitCents ∧ order.qty ≤ Int64.maxValue / price.unitCents ∧
      order.discountCents ≤ order.qty * price.unitCents ∧
      pending = {
        orderId := order.orderId
        sku := order.sku
        qty := order.qty
        totalCents := order.qty * price.unitCents
        discountCents := order.discountCents
        payableCents := order.qty * price.unitCents - order.discountCents
        state := "pending"
        catalogInstance := price.instanceId
        orderInstance := node.instanceId
        settlementInstance := "" } := by
  simp only [pendingRecord] at hok
  split at hok
  case isTrue => cases hok
  case isFalse hfits =>
    rw [not_or, Int64.not_le, Int64.not_lt] at hfits
    split at hok
    case isTrue => cases hok
    case isFalse hcovered =>
      cases hok
      exact ⟨hfits.1, hfits.2, Int64.not_lt.mp hcovered, rfl⟩

/-- An order that has been priced is stored with exact amounts. -/
theorem pendingRecord_isOrder {node : Node} {order : OrderRequest} {price : PriceResponse}
    {pending : Record} (hvalid : validateOrder order = .ok ())
    (hok : pendingRecord node order price = .ok pending) : pending.IsOrder := by
  obtain ⟨hid, hsku, hqty, hdiscount⟩ := validateOrder_eq_ok.mp hvalid
  obtain ⟨hunit, hfits, hcovered, rfl⟩ := pendingRecord_eq_ok hok
  have hproduct := toInt_mul_of_le hqty hunit hfits
  have htotal : 0 < order.qty * price.unitCents := by
    rw [Int64.lt_iff_toInt_lt, hproduct]
    exact mul_pos (Int64.lt_iff_toInt_lt.mp hqty) (Int64.lt_iff_toInt_lt.mp hunit)
  exact {
    toExact := Record.exact_of_le hqty htotal hdiscount hcovered rfl
    tokens := ⟨hid, hsku⟩
    priced := ⟨price.unitCents.toInt, Int64.lt_iff_toInt_lt.mp hunit, hproduct⟩ }

/-- The order is refused for its amount exactly if the amount does not fit or does not
cover the discount. -/
theorem pendingRecord_isOk_iff {node : Node} {order : OrderRequest} {price : PriceResponse}
    (hqty : 0 < order.qty) : (∃ pending, pendingRecord node order price = .ok pending) ↔
      0 < price.unitCents.toInt ∧ order.qty.toInt * price.unitCents.toInt < 2 ^ 63 ∧
        order.discountCents.toInt ≤ order.qty.toInt * price.unitCents.toInt := by
  constructor
  · rintro ⟨pending, hok⟩
    obtain ⟨hunit, hfits, hcovered, -⟩ := pendingRecord_eq_ok hok
    have hle := Int64.le_iff_toInt_le.mp hcovered
    rw [toInt_mul_of_le hqty hunit hfits] at hle
    exact ⟨Int64.lt_iff_toInt_lt.mp hunit, (le_div_iff_mul_le hunit).mp hfits, hle⟩
  · rintro ⟨hunit, hfits, hcovered⟩
    have hunit : 0 < price.unitCents := Int64.lt_iff_toInt_lt.mpr hunit
    have hle := (le_div_iff_mul_le hunit).mpr hfits
    rw [← toInt_mul_of_le hqty hunit hle] at hcovered
    unfold pendingRecord
    rw [if_neg (not_or.mpr ⟨Int64.not_le.mpr hunit, Int64.not_lt.mpr hle⟩)]
    dsimp only
    rw [if_neg (Int64.not_lt.mpr (Int64.le_iff_toInt_le.mpr hcovered))]
    exact ⟨_, rfl⟩

omit [Infra] in
theorem pendingRecord_isOk_iff_overflow :
    letI := permissiveInfra
    ¬∃ pending, pendingRecord ⟨"order-1", true⟩ ⟨"o-1", "book", 4611686018427387904, 0⟩
      ⟨2, "catalog-1"⟩ = .ok pending := by
  let _ := permissiveInfra
  intro hok
  have hfits := (pendingRecord_isOk_iff (by decide)).mp hok
  exact absurd hfits.2.1 (by decide)

theorem billRecord_isBill {node : Node} {request : BillRequest}
    (hvalid : validateOrder request.order = .ok ()) (htotal : 0 < request.totalCents)
    (hcovered : request.order.discountCents ≤ request.totalCents) :
    (billRecord node request).IsBill := by
  obtain ⟨-, -, hqty, hdiscount⟩ := validateOrder_eq_ok.mp hvalid
  exact {
    toExact := Record.exact_of_le hqty htotal hdiscount hcovered rfl
    state := rfl }

end

end BbtFramework.Ecommerce
