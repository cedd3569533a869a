import BbtFramework.Ecommerce.Cluster
import BbtFramework.Ecommerce.Orders
import BbtFramework.Library.Reading

/-!
# Orders and bills in agreement

What the two collections say of one order id, whatever the handlers of any number of
processes have done, wherever they have stopped and whichever of their writes came late.
-/

namespace BbtFramework.Ecommerce

open BbtFramework.Library

/-- `order` is the order as the handler saw or wrote it last, `bill` the bill it has seen,
`marked` the order it has settled. -/
structure ShopView where
  order : Option Record
  bill : Option Record
  marked : Option Record

namespace ShopView

def fresh : ShopView where
  order := none
  bill := none
  marked := none

variable (view : ShopView)

def saw (record : Record) : Collection → ShopView
  | .orders => { view with order := some record }
  | .bills => { view with bill := some record }

def after : (act : ShopAct) → act.Answer → ShopView
  | .findOne collection _, .ok (some record) => view.saw record collection
  | .insertOne collection record, .ok () => view.saw record collection
  | .updateOne _ record, .ok found =>
      if found = 1 then { view with order := some record, marked := some record } else view
  | .settle _, .ok bill => { view with bill := some bill }
  | _, _ => view

def allows : ShopAct → Prop
  | .findOne .orders id => ∀ record, view.marked = some record → record.orderId = id
  | .insertOne .orders record =>
      view.marked = none ∧ record.IsOrder ∧ record.state = "pending"
  | .insertOne .bills record => record.IsBill
  | .updateOne id record =>
      ∃ order bill, view.order = some order ∧ view.bill = some bill ∧
        order.state ≠ "settled" ∧ order.Agrees bill ∧ record = order.settledBy bill ∧
        id = order.orderId
  | .reply request bill =>
      view.bill = some bill ∧ samePayload bill request.order = true ∧
        bill.totalCents = request.totalCents
  | _ => True

/-- The view after a read or an insert that gives `answer`. -/
def learned (collection : Collection) : Except Error Record → ShopView
  | .ok record => view.saw record collection
  | .error _ => view

end ShopView

def shopDiscipline : Discipline ShopAct ShopAct.Answer ShopView where
  allows := fun act view => view.allows act
  possible := fun _ _ => True
  after := fun act answer view => view.after act answer

/-- What a handler that has returned knows of its answer. -/
def ShopResult.Explained : ShopResult → ShopView → Prop
  | .created placed (.ok record), view =>
      view.order = some record ∧ (samePayload record placed = true ∧ record.state = "settled" ∨
        ∃ marked, view.marked = some marked ∧ samePayload marked placed = true)
  | .order _ (.ok record), view => view.order = some record
  | .settled request (.ok stored), view =>
      view.bill = some stored ∧ samePayload stored request.order = true ∧
        stored.totalCents = request.totalCents
  | .bill _ (.ok stored), view => view.bill = some stored
  | _, _ => True

section

variable [Infra] {view : ShopView}

theorem readRecord_follows (collection : Collection) (id : String)
    (hallows : view.allows (.findOne collection id)) :
    Program.Follows shopDiscipline (readRecord collection id) view
      (fun answer later => later = view.learned collection answer) := by
  refine Program.Follows.ite (fun _ => rfl) ?_
  intro _
  refine Program.Follows.step hallows ?_
  intro (found : Except DbError (Option Record)) _
  rcases found with error | found
  · rfl
  · cases found with
    | none => rfl
    | some record => rfl

/-- A duplicate that is read back is as good as the record that was written. -/
theorem insertRecord_follows (collection : Collection) (record : Record)
    (hallows : view.allows (.insertOne collection record)) :
    Program.Follows shopDiscipline (insertRecord collection record) view
      (fun answer later => later = view.learned collection answer) := by
  refine Program.Follows.ite (fun _ => rfl) ?_
  intro _
  refine Program.Follows.step hallows ?_
  intro (inserted : Except DbError Unit) _
  rcases inserted with error | _
  · refine Program.Follows.ite (fun _ => rfl) ?_
    intro _
    refine readRecord_follows collection record.orderId ?_
    cases collection with
    | orders =>
        intro marked hmarked
        cases hallows.1.symm.trans hmarked
    | bills => trivial
  · rfl

theorem markSettled_follows (record : Record)
    (hallows : view.allows (.updateOne record.orderId record)) :
    Program.Follows shopDiscipline (markSettled record) view (fun answer later =>
      answer = .ok () → later = { view with order := some record, marked := some record }) := by
  refine Program.Follows.ite ?_ ?_
  · intro _ hanswer
    cases hanswer
  · intro _
    refine Program.Follows.step hallows ?_
    intro (changed : Except DbError Nat) _
    rcases changed with error | found
    · intro hanswer
      cases hanswer
    · refine Program.Follows.ite ?_ ?_
      · intro _ hanswer
        cases hanswer
      · intro hfound _
        exact if_pos (not_not.mp hfound)

theorem completeOrder_follows (placed : OrderRequest) (saved : Record)
    (hsaved : view.order = some saved) :
    Program.Follows shopDiscipline (completeOrder placed saved) view
      (fun answer later => (ShopResult.created placed answer).Explained later) := by
  refine Program.Follows.ite (fun _ => trivial) ?_
  intro hsame
  have hsame : samePayload saved placed = true := not_not.mp hsame
  refine Program.Follows.ite ?_ ?_
  · intro hsettled
    exact ⟨hsaved, Or.inl ⟨hsame, hsettled⟩⟩
  · intro hopen
    refine Program.Follows.step trivial ?_
    intro (billed : Except Error Record) _
    rcases billed with error | bill
    · trivial
    · refine Program.Follows.ite (fun _ => trivial) ?_
      intro hagrees
      simp only [not_or, not_not] at hagrees
      obtain ⟨hbill, -, htotal, hpayable⟩ := hagrees
      obtain ⟨hid, hsku, hqty, hdiscount⟩ := samePayload_iff.mp hsame
      obtain ⟨hid', hsku', hqty', hdiscount'⟩ := samePayload_iff.mp hbill
      have hboth : saved.Agrees bill := {
        orderId := hid'.trans hid.symm
        sku := hsku'.trans hsku.symm
        qty := hqty'.trans hqty.symm
        total := htotal
        discount := hdiscount'.trans hdiscount.symm
        payable := hpayable }
      refine Program.Follows.andThen
        (markSettled_follows (saved.settledBy bill)
          ⟨saved, bill, hsaved, rfl, hopen, hboth, rfl, rfl⟩) ?_
      intro updated later hlater
      rcases updated with error | _
      · trivial
      · cases hlater rfl
        refine (readRecord_follows .orders placed.orderId ?_).mono ?_
        · intro marked hmarked
          cases hmarked
          exact hid
        · intro answer last hlast
          rcases answer with error | record
          · trivial
          · cases hlast
            exact ⟨rfl, Or.inr ⟨_, rfl, samePayload_iff.mpr ⟨hid, hsku, hqty, hdiscount⟩⟩⟩

theorem createOrder_follows (node : Node) (placed : OrderRequest) :
    Program.Follows shopDiscipline (createOrder node placed) .fresh
      (fun answer later => (ShopResult.created placed answer).Explained later) := by
  unfold createOrder
  cases hvalid : validateOrder placed with
  | error error => trivial
  | ok =>
      refine Program.Follows.ite (fun _ => trivial) ?_
      intro _
      refine Program.Follows.andThen (readRecord_follows .orders placed.orderId ?_) ?_
      · intro record hmarked
        cases hmarked
      · intro saved later hlater
        rcases saved with error | saved
        · cases hlater
          refine Program.Follows.ite (fun _ => trivial) ?_
          intro _
          refine Program.Follows.step trivial ?_
          intro (price : Except Error PriceResponse) _
          rcases price with error | price
          · trivial
          · dsimp only
            cases hpending : pendingRecord node placed price with
            | error error => trivial
            | ok pending =>
                obtain ⟨-, -, -, hrecord⟩ := pendingRecord_eq_ok hpending
                refine Program.Follows.andThen (insertRecord_follows .orders pending
                  ⟨rfl, pendingRecord_isOrder hvalid hpending, by rw [hrecord]⟩) ?_
                intro inserted last hlast
                rcases inserted with error | inserted
                · trivial
                · cases hlast
                  exact completeOrder_follows placed inserted rfl
        · cases hlater
          exact completeOrder_follows placed saved rfl

theorem answerSettle_follows (request : BillRequest) (saved : Record)
    (hsaved : view.bill = some saved) :
    Program.Follows shopDiscipline (answerSettle request saved) view
      (fun answer later => (ShopResult.settled request answer).Explained later) := by
  refine Program.Follows.ite (fun _ => trivial) ?_
  intro hsame
  simp only [not_or, not_not] at hsame
  refine Program.Follows.step ⟨hsaved, hsame.1, hsame.2⟩ ?_
  intro _ _
  exact ⟨hsaved, hsame.1, hsame.2⟩

theorem settle_follows (node : Node) (request : BillRequest) :
    Program.Follows shopDiscipline (settle node request) .fresh
      (fun answer later => (ShopResult.settled request answer).Explained later) := by
  unfold settle
  cases hvalid : validateOrder request.order with
  | error error => trivial
  | ok =>
      refine Program.Follows.ite (fun _ => trivial) ?_
      intro hamount
      rw [not_or, Int64.not_le, Int64.not_lt] at hamount
      refine Program.Follows.ite (fun _ => trivial) ?_
      intro _
      refine Program.Follows.andThen (readRecord_follows .bills _ trivial) ?_
      intro old later hlater
      rcases old with error | old
      · cases hlater
        refine Program.Follows.ite (fun _ => trivial) ?_
        intro _
        refine Program.Follows.andThen (insertRecord_follows .bills (billRecord node request)
          (billRecord_isBill hvalid hamount.1 hamount.2)) ?_
        intro inserted last hlast
        rcases inserted with error | inserted
        · trivial
        · cases hlast
          exact answerSettle_follows request inserted rfl
      · cases hlater
        exact answerSettle_follows request old rfl

/-- Handlers run in any number of processes, which share nothing but the database and the
calls. -/
def shopSystem (cluster : Cluster) : System ShopAct ShopAct.Answer ShopResult cluster.State
    ShopView ShopEntry cluster.Choice cluster.Event where
  start := fun state => state = cluster.empty
  idle := .order "" (.error (makeError .notFound "record not found"))
  main := shopMain
  perform := cluster.perform
  env := cluster.react
  fresh := .fresh
  discipline := shopDiscipline

abbrev ShopPool (cluster : Cluster) :=
  Pool ShopAct ShopAct.Answer ShopResult cluster.State ShopView

/-- What is stored, sent and answered in a state of the cluster. -/
def ShopPool.world {cluster : Cluster} (pool : ShopPool cluster) : ShopWorld :=
  cluster.shows pool.shared

abbrev ShopStep (cluster : Cluster) :=
  PoolStep ShopEntry cluster.Choice cluster.Event

theorem shop_disciplined (cluster : Cluster) :
    (shopSystem cluster).Disciplined ShopResult.Explained where
  main := by
    intro entry
    cases entry with
    | createOrder node placed =>
        exact (createOrder_follows node placed).andThen (fun _ _ hpost => hpost)
    | getOrder node id =>
        have hget : Program.Follows shopDiscipline (getOrder node id) .fresh
            (fun answer later => (ShopResult.order id answer).Explained later) := by
          refine Program.Follows.ite ?_ (fun _ => trivial)
          intro _
          refine (readRecord_follows .orders id ?_).mono ?_
          · intro record hmarked
            cases hmarked
          · intro answer later hlater
            rcases answer with error | record
            · trivial
            · cases hlater
              rfl
        exact hget.andThen (fun _ _ hpost => hpost)
    | settle node request =>
        exact (settle_follows node request).andThen (fun _ _ hpost => hpost)
    | getBill node id =>
        have hget : Program.Follows shopDiscipline (getBill node id) .fresh
            (fun answer later => (ShopResult.bill id answer).Explained later) := by
          refine Program.Follows.ite ?_ (fun _ => trivial)
          intro _
          refine (readRecord_follows .bills id trivial).mono ?_
          intro answer later hlater
          rcases answer with error | record
          · trivial
          · cases hlater
            rfl
        exact hget.andThen (fun _ _ hpost => hpost)
  idle := trivial
  answers := fun _ _ _ _ _ _ => trivial

end

/-- Orders are settled at most, and bills never change. -/
structure ShopWorld.Later (first last : ShopWorld) : Prop where
  orders : ∀ id record, first.orders id = some record →
    ∃ more, last.orders id = some more ∧ record.Before more
  bills : ∀ id bill, first.bills id = some bill → last.bills id = some bill

theorem ShopWorld.Later.refl (world : ShopWorld) : world.Later world where
  orders := fun _ record hrecord => ⟨record, hrecord, Or.inl rfl⟩
  bills := fun _ _ hbill => hbill

theorem ShopWorld.Later.trans {first middle last : ShopWorld} (hfirst : first.Later middle)
    (hlast : middle.Later last) : first.Later last where
  orders := by
    intro id record hrecord
    obtain ⟨more, hmore, hbefore⟩ := hfirst.orders id record hrecord
    obtain ⟨newest, hnewest, hafter⟩ := hlast.orders id more hmore
    exact ⟨newest, hnewest, hbefore.trans hafter⟩
  bills := fun id bill hbill => hlast.bills id bill (hfirst.bills id bill hbill)

/-- `record` is what is stored of its order, or what was stored before. -/
def ShopWorld.HasOrder (world : ShopWorld) (record : Record) : Prop :=
  ∃ more, world.orders record.orderId = some more ∧ record.Before more

def ShopWorld.HasBill (world : ShopWorld) (bill : Record) : Prop :=
  world.bills bill.orderId = some bill

theorem ShopWorld.HasOrder.later {first last : ShopWorld} {record : Record}
    (hhas : first.HasOrder record) (hlater : first.Later last) : last.HasOrder record := by
  obtain ⟨more, hmore, hbefore⟩ := hhas
  obtain ⟨newest, hnewest, hafter⟩ := hlater.orders _ _ hmore
  exact ⟨newest, hnewest, hbefore.trans hafter⟩

theorem ShopWorld.HasBill.later {first last : ShopWorld} {bill : Record}
    (hhas : first.HasBill bill) (hlater : first.Later last) : last.HasBill bill :=
  hlater.bills _ _ hhas

theorem ShopWorld.HasOrder.stored {world : ShopWorld} {record : Record}
    (hhas : world.HasOrder record) (hsettled : record.state = "settled") :
    world.orders record.orderId = some record := by
  obtain ⟨more, hmore, hbefore⟩ := hhas
  rw [hmore, hbefore.of_settled hsettled]

/-! ## What the collections hold -/

/-- A write that a handler of the cluster can have sent. -/
def ShopWorld.Writable (world : ShopWorld) : ShopWrite → Prop
  | .insert .orders record => record.IsOrder ∧ record.state = "pending"
  | .insert .bills record => record.IsBill
  | .update id record =>
      ∃ order bill, world.HasOrder order ∧ world.HasBill bill ∧ order.state ≠ "settled" ∧
        order.Agrees bill ∧ record = order.settledBy bill ∧ id = order.orderId

structure ShopWorld.Sound (world : ShopWorld) : Prop where
  orderKey : ∀ id order, world.orders id = some order → order.orderId = id
  order : ∀ id order, world.orders id = some order → order.IsOrder
  billKey : ∀ id bill, world.bills id = some bill → bill.orderId = id
  bill : ∀ id bill, world.bills id = some bill → bill.IsBill
  state : ∀ id order, world.orders id = some order → order.state = "pending" ∨
    order.state = "settled" ∧ ∃ bill, world.bills id = some bill ∧ order.Agrees bill ∧
      order.settlementInstance = bill.settlementInstance
  floating : ∀ write ∈ world.floating, world.Writable write
  replies : ∀ request bill, (request, bill) ∈ world.replies → world.HasBill bill ∧
    samePayload bill request.order = true ∧ bill.totalCents = request.totalCents

structure ShopView.Sound (view : ShopView) (world : ShopWorld) : Prop where
  order : ∀ order, view.order = some order → world.HasOrder order
  bill : ∀ bill, view.bill = some bill → world.HasBill bill
  marked : ∀ order, view.marked = some order → view.order = some order ∧ order.state = "settled"

theorem ShopView.Sound.later {view : ShopView} {first last : ShopWorld}
    (hview : view.Sound first) (hlater : first.Later last) : view.Sound last where
  order := fun order horder => (hview.order order horder).later hlater
  bill := fun bill hbill => (hview.bill bill hbill).later hlater
  marked := hview.marked

theorem ShopWorld.Writable.later {first last : ShopWorld} {write : ShopWrite}
    (hwritable : first.Writable write) (hlater : first.Later last) : last.Writable write := by
  cases write with
  | insert collection record =>
      cases collection with
      | orders => exact hwritable
      | bills => exact hwritable
  | update id record =>
      obtain ⟨order, bill, horder, hbill, hrest⟩ := hwritable
      exact ⟨order, bill, horder.later hlater, hbill.later hlater, hrest⟩

/-- What is stored when an order is marked: it has this bill, whoever has marked it first. -/
theorem ShopWorld.Sound.settledBy {world : ShopWorld} (hsound : world.Sound)
    {order bill more : Record} (hbill : world.HasBill bill) (hagrees : order.Agrees bill)
    (hopen : order.state ≠ "settled") (hmore : world.orders order.orderId = some more)
    (hbefore : order.Before more) : order.state = "pending" ∧
      (more = order ∨ more = order.settledBy bill) := by
  rcases hbefore with rfl | ⟨hpending, hsettled, heq⟩
  · rcases hsound.state _ _ hmore with hpending | ⟨hsettled, -⟩
    · exact ⟨hpending, Or.inl rfl⟩
    · exact absurd hsettled hopen
  · refine ⟨hpending, Or.inr ?_⟩
    rcases hsound.state _ _ hmore with hagain | ⟨-, other, hother, -, hinstance⟩
    · rw [hsettled] at hagain
      exact absurd hagain (by decide)
    · have hsame : other = bill := by
        unfold HasBill at hbill
        rw [hagrees.orderId, hother] at hbill
        exact Option.some.inj hbill
      rw [hsame] at hinstance
      rw [heq, hinstance]
      rfl

theorem eq_or_of_update {documents : String → Option Record} {key id : String}
    {written record : Record}
    (hrecord : Function.update documents key (some written) id = some record) :
    id = key ∧ record = written ∨ documents id = some record := by
  by_cases hkey : id = key
  · subst hkey
    rw [Function.update_self] at hrecord
    exact Or.inl ⟨rfl, (Option.some.inj hrecord).symm⟩
  · rw [Function.update_of_ne hkey] at hrecord
    exact Or.inr hrecord

namespace ShopWorld

variable {world : ShopWorld}

/-- A new document takes the place of none. -/
theorem later_put {collection : Collection} {record : Record}
    (hnone : world.documents collection record.orderId = none) :
    world.Later (world.put collection record) := by
  cases collection with
  | orders =>
      refine ⟨?_, fun _ _ hbill => hbill⟩
      intro id order horder
      have hkey : id ≠ record.orderId := by
        rintro rfl
        cases hnone.symm.trans horder
      exact ⟨order, (Function.update_of_ne hkey _ _).trans horder, Or.inl rfl⟩
  | bills =>
      refine ⟨fun id order horder => ⟨order, horder, Or.inl rfl⟩, ?_⟩
      intro id bill hbill
      have hkey : id ≠ record.orderId := by
        rintro rfl
        cases hnone.symm.trans hbill
      exact (Function.update_of_ne hkey _ _).trans hbill

theorem Sound.later_land (hsound : world.Sound) {write : ShopWrite}
    (hwritable : world.Writable write) : world.Later (world.land write) := by
  cases write with
  | insert collection record =>
      simp only [land]
      split
      · exact .refl world
      · next hnone => exact later_put hnone
  | update id record =>
      obtain ⟨order, bill, ⟨more, hmore, hbefore⟩, hbill, hopen, hagrees, rfl, rfl⟩ := hwritable
      obtain ⟨hpending, hmarked⟩ := hsound.settledBy hbill hagrees hopen hmore hbefore
      simp only [land, hmore]
      refine ⟨?_, fun _ _ hbill => hbill⟩
      intro id stored hstored
      by_cases hkey : id = order.orderId
      · subst hkey
        cases hmore.symm.trans hstored
        refine ⟨_, Function.update_self _ _ _, ?_⟩
        rcases hmarked with rfl | rfl
        · exact Or.inr ⟨hpending, rfl, rfl⟩
        · exact Or.inl rfl
      · exact ⟨stored, (Function.update_of_ne hkey _ _).trans hstored, Or.inl rfl⟩

@[simp] theorem land_floating (write : ShopWrite) :
    (world.land write).floating = world.floating := by
  cases write with
  | insert collection record =>
      simp only [land]
      split
      · rfl
      · cases collection <;> rfl
  | update id record =>
      simp only [land]
      split <;> rfl

@[simp] theorem land_replies (write : ShopWrite) :
    (world.land write).replies = world.replies := by
  cases write with
  | insert collection record =>
      simp only [land]
      split
      · rfl
      · cases collection <;> rfl
  | update id record =>
      simp only [land]
      split <;> rfl

/-- Every document after a write is the one it wrote or was there before. -/
theorem land_orders {write : ShopWrite} {id : String} {order : Record}
    (horder : (world.land write).orders id = some order) : world.orders id = some order ∨
      (write = .insert .orders order ∧ id = order.orderId) ∨ write = .update id order := by
  cases write with
  | insert collection record =>
      simp only [land] at horder
      split at horder
      · exact Or.inl horder
      · cases collection with
        | orders =>
            rcases eq_or_of_update horder with ⟨rfl, rfl⟩ | hold
            · exact Or.inr (Or.inl ⟨rfl, rfl⟩)
            · exact Or.inl hold
        | bills => exact Or.inl horder
  | update key record =>
      simp only [land] at horder
      split at horder
      · rcases eq_or_of_update horder with ⟨rfl, rfl⟩ | hold
        · exact Or.inr (Or.inr rfl)
        · exact Or.inl hold
      · exact Or.inl horder

theorem land_bills {write : ShopWrite} {id : String} {bill : Record}
    (hbill : (world.land write).bills id = some bill) : world.bills id = some bill ∨
      write = .insert .bills bill ∧ id = bill.orderId := by
  cases write with
  | insert collection record =>
      simp only [land] at hbill
      split at hbill
      · exact Or.inl hbill
      · cases collection with
        | orders => exact Or.inl hbill
        | bills =>
            rcases eq_or_of_update hbill with ⟨rfl, rfl⟩ | hold
            · exact Or.inr ⟨rfl, rfl⟩
            · exact Or.inl hold
  | update key record =>
      simp only [land] at hbill
      split at hbill
      · exact Or.inl hbill
      · exact Or.inl hbill

theorem Sound.land (hsound : world.Sound) {write : ShopWrite}
    (hwritable : world.Writable write) : (world.land write).Sound := by
  have hlater := hsound.later_land hwritable
  refine {
    orderKey := ?_
    order := ?_
    billKey := ?_
    bill := ?_
    state := ?_
    floating := ?_
    replies := ?_ }
  · intro id order horder
    rcases land_orders horder with hold | ⟨-, hkey⟩ | rfl
    · exact hsound.orderKey id order hold
    · exact hkey.symm
    · obtain ⟨old, bill, -, -, -, -, rfl, rfl⟩ := hwritable
      rfl
  · intro id order horder
    rcases land_orders horder with hold | ⟨rfl, -⟩ | rfl
    · exact hsound.order id order hold
    · exact hwritable.1
    · obtain ⟨old, bill, ⟨more, hmore, hbefore⟩, hbill, hopen, hagrees, rfl, rfl⟩ := hwritable
      exact (hsound.order _ _ hmore).settledBy hbefore
  · intro id bill hbill
    rcases land_bills hbill with hold | ⟨-, hkey⟩
    · exact hsound.billKey id bill hold
    · exact hkey.symm
  · intro id bill hbill
    rcases land_bills hbill with hold | ⟨rfl, -⟩
    · exact hsound.bill id bill hold
    · exact hwritable
  · intro id order horder
    rcases land_orders horder with hold | ⟨rfl, -⟩ | rfl
    · rcases hsound.state id order hold with hpending | ⟨hsettled, bill, hbill, hrest⟩
      · exact Or.inl hpending
      · exact Or.inr ⟨hsettled, bill, hlater.bills id bill hbill, hrest⟩
    · exact Or.inl hwritable.2
    · obtain ⟨old, bill, -, hbill, -, hagrees, rfl, rfl⟩ := hwritable
      have hstored := hbill.later hlater
      unfold HasBill at hstored
      rw [hagrees.orderId] at hstored
      exact Or.inr ⟨rfl, bill, hstored, hagrees.settledBy, rfl⟩
  · intro other hmem
    rw [land_floating] at hmem
    exact (hsound.floating other hmem).later hlater
  · intro request bill hmem
    rw [land_replies] at hmem
    obtain ⟨hbill, hrest⟩ := hsound.replies request bill hmem
    exact ⟨hbill.later hlater, hrest⟩

end ShopWorld

/-! ## One action -/

def ShopAct.write : ShopAct → Option ShopWrite
  | .insertOne collection record => some (.insert collection record)
  | .updateOne id record => some (.update id record)
  | _ => none

/-- What an action can do. -/
inductive ShopWorld.Performs (world : ShopWorld) :
    (act : ShopAct) → act.Answer → ShopWorld → Prop where
  | nothing {act : ShopAct} {answer : act.Answer}
      (hview : ∀ view : ShopView, view.after act answer = view) :
      Performs world act answer world
  | found {collection : Collection} {id : String} {record : Record}
      (hfound : world.documents collection id = some record) :
      Performs world (.findOne collection id) (.ok (some record)) world
  | inserted {collection : Collection} {record : Record}
      (hnone : world.documents collection record.orderId = none) :
      Performs world (.insertOne collection record) (.ok ())
        (world.land (.insert collection record))
  | updated {id : String} {record more : Record} (hmore : world.orders id = some more) :
      Performs world (.updateOne id record) (.ok 1) (world.land (.update id record))
  | unconfirmed {act : ShopAct} {answer : act.Answer} {write : ShopWrite}
      (hwrite : act.write = some write) (hview : ∀ view : ShopView, view.after act answer = view) :
      Performs world act answer (world.sent write)
  | told {request : BillRequest} {bill : Record} (hmem : (request, bill) ∈ world.replies) :
      Performs world (.settle request) (.ok bill) world
  | replied {request : BillRequest} {bill : Record} :
      Performs world (.reply request bill) () (world.replied request bill)

theorem Cluster.Reliable.performs {cluster : Cluster} (hreliable : cluster.Reliable)
    {state last : cluster.State} {act : ShopAct} {choice : cluster.Choice} {answer : act.Answer}
    (hperform : cluster.perform act choice state = some (answer, last)) :
    (cluster.shows state).Performs act answer (cluster.shows last) := by
  cases act with
  | findOne collection id =>
      obtain ⟨hsame, hfound⟩ := hreliable.found hperform
      rw [hsame]
      rcases answer with error | found
      · exact .nothing (fun _ => rfl)
      · cases found with
        | none => exact .nothing (fun _ => rfl)
        | some record => exact .found (hfound _ rfl).symm
  | insertOne collection record =>
      rcases answer with error | ⟨⟩
      · rcases hreliable.notInserted hperform with hsame | hsent
        · rw [hsame]
          exact .nothing (fun _ => rfl)
        · rw [hsent]
          exact .unconfirmed rfl (fun _ => rfl)
      · obtain ⟨hnone, hput⟩ := hreliable.inserted hperform
        have hland : (cluster.shows state).put collection record =
            (cluster.shows state).land (.insert collection record) := by
          simp only [ShopWorld.land, hnone]
        rw [hput, hland]
        exact .inserted hnone
  | updateOne id record =>
      rcases answer with error | count
      · rcases hreliable.notUpdated hperform with hsame | hsent
        · rw [hsame]
          exact .nothing (fun _ => rfl)
        · rw [hsent]
          exact .unconfirmed rfl (fun _ => rfl)
      · obtain ⟨rfl, hland⟩ := hreliable.updated hperform
        rw [hland]
        cases hmore : (cluster.shows state).orders id with
        | none =>
            have hnothing : (cluster.shows state).land (.update id record) =
                cluster.shows state := by
              simp only [ShopWorld.land, hmore]
            rw [hnothing]
            exact .nothing (fun _ => rfl)
        | some more => exact .updated hmore
  | price sku orderId =>
      rw [hreliable.priced hperform]
      exact .nothing (fun _ => rfl)
  | settle request =>
      obtain ⟨hsame, htold⟩ := hreliable.settled hperform
      rw [hsame]
      rcases answer with error | bill
      · exact .nothing (fun _ => rfl)
      · exact .told (htold bill rfl)
  | reply request bill =>
      rw [hreliable.replied hperform]
      exact .replied

/-- A handler sends only writes that what it knows accounts for. -/
theorem ShopView.Sound.writable {world : ShopWorld} {view : ShopView} (hview : view.Sound world)
    {act : ShopAct} (hallows : view.allows act) {write : ShopWrite}
    (hwrite : act.write = some write) : world.Writable write := by
  cases act with
  | insertOne collection record =>
      cases hwrite
      cases collection with
      | orders => exact hallows.2
      | bills => exact hallows
  | updateOne id record =>
      cases hwrite
      obtain ⟨order, bill, horder, hbill, hrest⟩ := hallows
      exact ⟨order, bill, hview.order order horder, hview.bill bill hbill, hrest⟩
  | _ => cases hwrite

namespace ShopWorld

variable {world last : ShopWorld} {view : ShopView} {act : ShopAct} {answer : act.Answer}

theorem Sound.float (hsound : world.Sound) {write : ShopWrite}
    (hwritable : world.Writable write) :
    (world.sent write).Sound where
  orderKey := hsound.orderKey
  order := hsound.order
  billKey := hsound.billKey
  bill := hsound.bill
  state := hsound.state
  floating := by
    intro other hmem
    rcases List.mem_append.mp hmem with hold | hnew
    · exact hsound.floating other hold
    · cases List.mem_singleton.mp hnew
      exact hwritable
  replies := hsound.replies

theorem Sound.reply (hsound : world.Sound) {request : BillRequest} {bill : Record}
    (hbill : world.HasBill bill) (hsame : samePayload bill request.order = true)
    (htotal : bill.totalCents = request.totalCents) :
    (world.replied request bill).Sound where
  orderKey := hsound.orderKey
  order := hsound.order
  billKey := hsound.billKey
  bill := hsound.bill
  state := hsound.state
  floating := hsound.floating
  replies := by
    intro other stored hmem
    rcases List.mem_append.mp hmem with hold | hnew
    · exact hsound.replies other stored hold
    · cases List.mem_singleton.mp hnew
      exact ⟨hbill, hsame, htotal⟩

/-- An allowed action keeps what the collections hold in agreement, and takes nothing back. -/
theorem Performs.sound (hperforms : world.Performs act answer last) (hsound : world.Sound)
    (hview : view.Sound world) (hallows : view.allows act) : world.Later last ∧ last.Sound := by
  cases hperforms with
  | nothing => exact ⟨.refl world, hsound⟩
  | found => exact ⟨.refl world, hsound⟩
  | inserted hnone =>
      have hwritable := hview.writable hallows rfl
      exact ⟨hsound.later_land hwritable, hsound.land hwritable⟩
  | updated hmore =>
      have hwritable := hview.writable hallows rfl
      exact ⟨hsound.later_land hwritable, hsound.land hwritable⟩
  | unconfirmed hwrite =>
      refine ⟨⟨?_, fun _ _ hbill => hbill⟩, hsound.float (hview.writable hallows hwrite)⟩
      exact fun _ record hrecord => ⟨record, hrecord, Or.inl rfl⟩
  | told => exact ⟨.refl world, hsound⟩
  | replied =>
      obtain ⟨hbill, hsame, htotal⟩ := hallows
      refine ⟨⟨?_, fun _ _ hbill => hbill⟩, hsound.reply (hview.bill _ hbill) hsame htotal⟩
      exact fun _ record hrecord => ⟨record, hrecord, Or.inl rfl⟩

/-- What has been read or inserted is stored, and a settled order has not been read before it
was settled. -/
theorem Sound.saw (hsound : world.Sound) (hview : view.Sound world) {collection : Collection}
    {id : String} {record : Record} (hstored : world.documents collection id = some record)
    (hmarked : collection = .orders → ∀ marked, view.marked = some marked →
      marked.orderId = id) : (view.saw record collection).Sound world := by
  cases collection with
  | orders =>
      have hkey : record.orderId = id := hsound.orderKey id record hstored
      refine ⟨?_, hview.bill, ?_⟩
      · intro seen hseen
        cases hseen
        exact ⟨record, hkey ▸ hstored, Or.inl rfl⟩
      · intro marked hmark
        obtain ⟨horder, hsettled⟩ := hview.marked marked hmark
        have hfinal := (hview.order marked horder).stored hsettled
        rw [hmarked rfl marked hmark] at hfinal
        exact ⟨hstored.symm.trans hfinal, hsettled⟩
  | bills =>
      refine ⟨hview.order, ?_, hview.marked⟩
      intro seen hseen
      cases hseen
      obtain rfl : record.orderId = id := hsound.billKey id record hstored
      exact hstored

/-- The order a handler knows is the one it knew before or the one that is stored. -/
theorem Performs.order_after (hperforms : world.Performs act answer last)
    (hsound : world.Sound) (hallows : view.allows act) :
    (view.after act answer).order = view.order ∨ ∃ record,
      (view.after act answer).order = some record ∧
        last.orders record.orderId = some record := by
  cases hperforms with
  | nothing hafter =>
      rw [hafter view]
      exact Or.inl rfl
  | @found collection id record hfound =>
      cases collection with
      | orders =>
          obtain rfl : record.orderId = id := hsound.orderKey id record hfound
          exact Or.inr ⟨record, rfl, hfound⟩
      | bills => exact Or.inl rfl
  | @inserted collection record hnone =>
      cases collection with
      | orders =>
          refine Or.inr ⟨record, rfl, ?_⟩
          simp only [land, hnone]
          exact Function.update_self _ _ _
      | bills => exact Or.inl rfl
  | @updated id record more hmore =>
      obtain ⟨order, bill, -, -, -, -, rfl, rfl⟩ := hallows
      refine Or.inr ⟨order.settledBy bill, rfl, ?_⟩
      simp only [land, hmore]
      exact Function.update_self _ _ _
  | unconfirmed hwrite hafter =>
      rw [hafter view]
      exact Or.inl rfl
  | told => exact Or.inl rfl
  | replied => exact Or.inl rfl

theorem Performs.knows (hperforms : world.Performs act answer last) (hsound : world.Sound)
    (hview : view.Sound world) (hallows : view.allows act) :
    (view.after act answer).Sound last := by
  obtain ⟨hlater, hlast⟩ := hperforms.sound hsound hview hallows
  have hkept := hview.later hlater
  cases hperforms with
  | nothing hafter => rwa [hafter view]
  | @found collection id record hfound =>
      refine hsound.saw hview hfound ?_
      rintro rfl
      exact hallows
  | @inserted collection record hnone =>
      have hstored : (world.land (.insert collection record)).documents collection
          record.orderId = some record := by
        simp only [land, hnone]
        cases collection with
        | orders => exact Function.update_self _ _ _
        | bills => exact Function.update_self _ _ _
      refine hlast.saw hkept hstored ?_
      rintro rfl marked hmarked
      cases hallows.1.symm.trans hmarked
  | @updated id record more hmore =>
      obtain ⟨order, bill, -, -, -, -, rfl, rfl⟩ := hallows
      have hstored : (world.land (.update order.orderId (order.settledBy bill))).orders
          order.orderId = some (order.settledBy bill) := by
        simp only [land, hmore]
        exact Function.update_self _ _ _
      refine ⟨?_, hkept.bill, ?_⟩
      · intro seen hseen
        cases hseen
        exact ⟨_, hstored, Or.inl rfl⟩
      · intro marked hmarked
        cases hmarked
        exact ⟨rfl, rfl⟩
  | unconfirmed hwrite hafter => rwa [hafter view]
  | told hmem =>
      refine ⟨hview.order, ?_, hview.marked⟩
      intro seen hseen
      cases hseen
      exact (hsound.replies _ _ hmem).1
  | replied => exact hkept

end ShopWorld

theorem ShopWorld.sound_empty : ShopWorld.empty.Sound where
  orderKey := fun _ _ horder => by cases horder
  order := fun _ _ horder => by cases horder
  billKey := fun _ _ hbill => by cases hbill
  bill := fun _ _ hbill => by cases hbill
  state := fun _ _ horder => by cases horder
  floating := fun _ hmem => by cases hmem
  replies := fun _ _ hmem => by cases hmem

theorem ShopView.sound_fresh (world : ShopWorld) : ShopView.fresh.Sound world where
  order := fun _ horder => by cases horder
  bill := fun _ hbill => by cases hbill
  marked := fun _ hmarked => by cases hmarked

/-- A write that comes late. -/
theorem Cluster.Reliable.landed {cluster : Cluster} (hreliable : cluster.Reliable)
    {event : cluster.Event} {state last : cluster.State}
    (hreact : cluster.react event state = some last) (hsound : (cluster.shows state).Sound) :
    (cluster.shows state).Later (cluster.shows last) ∧ (cluster.shows last).Sound := by
  obtain ⟨write, hmem, hland⟩ := hreliable.late hreact
  have hwritable := hsound.floating write hmem
  rw [hland]
  exact ⟨hsound.later_land hwritable, hsound.land hwritable⟩

section

variable [Infra] {cluster : Cluster} {guard : ShopPool cluster → ShopStep cluster → Prop}
variable {pool last : ShopPool cluster}

theorem shop_sound (hreliable : cluster.Reliable)
    (hreach : (shopSystem cluster).machine.ReachableWhere guard pool) :
    pool.world.Sound ∧ ∀ thread, (pool.views thread).Sound pool.world := by
  refine (shop_disciplined cluster).invariant (motive := fun state views =>
    (cluster.shows state).Sound ∧
      ∀ thread, (views thread : ShopView).Sound (cluster.shows state)) ?_ ?_ ?_ hreach
  · intro state hstart
    rw [show state = cluster.empty from hstart, hreliable.empty]
    exact ⟨ShopWorld.sound_empty, fun _ => ShopView.sound_fresh _⟩
  · rintro pool thread choice act answer state hacts ⟨hsound, hviews⟩
    have hperforms := hreliable.performs hacts.performed
    obtain ⟨hlater, hafter⟩ := hperforms.sound hsound (hviews thread) hacts.allowed
    refine ⟨hafter, ?_⟩
    intro other
    by_cases hsame : other = thread
    · subst hsame
      rw [Function.update_self]
      exact hperforms.knows hsound (hviews other) hacts.allowed
    · rw [Function.update_of_ne hsame]
      exact (hviews other).later hlater
  · rintro pool event state _ _ hreact ⟨hsound, hviews⟩
    obtain ⟨hlater, hafter⟩ := hreliable.landed hreact hsound
    exact ⟨hafter, fun thread => (hviews thread).later hlater⟩

/-- No step takes anything back. -/
theorem shop_later (hreliable : cluster.Reliable)
    (hreach : (shopSystem cluster).machine.ReachableWhere guard pool) {label : ShopStep cluster}
    (hnext : (shopSystem cluster).next pool label = some last) : pool.world.Later last.world := by
  obtain ⟨hsound, hviews⟩ := shop_sound hreliable hreach
  cases label with
  | spawn entry =>
      cases hnext
      exact .refl pool.world
  | step thread choice =>
      obtain ⟨-, act, rest, answer, state, hthread, hperform, rfl⟩ := System.next_step hnext
      have hasks : (pool.threads thread).asks = some act := by
        rw [hthread, Program.asks]
      have hallows := (shop_disciplined cluster).allowed hreach hasks
      exact ((hreliable.performs hperform).sound hsound (hviews thread) hallows).1
  | env event =>
      obtain ⟨state, hreact, rfl⟩ := Option.map_eq_some_iff.mp hnext
      exact (hreliable.landed hreact hsound).1

end

end BbtFramework.Ecommerce
