import BbtFramework.Ecommerce.Agreement
import BbtFramework.Library.Solo

/-!
# Replaying an order

A caller that does not know what has become of its order sends it again.  What it can be
told, and when sending it again is enough.
-/

namespace BbtFramework.Ecommerce

open BbtFramework.Library

def orderNode : Node := ⟨"order-1", true⟩

def twoBooks : OrderRequest := ⟨"o-1", "book", 2, 100⟩

def lateAnswer : Error := ⟨.timedOut, "", "", "", []⟩

def orderPending : List (ShopStep plainCluster) :=
  [.spawn (.createOrder orderNode twoBooks), .step 0 .served,
    .step 0 (.priced (.ok ⟨1299, "catalog-1"⟩)), .step 0 .served]

def orderBilled : List (ShopStep plainCluster) :=
  orderPending ++ [.spawn (.settle orderNode ⟨twoBooks, 2598⟩), .step 1 .served,
    .step 1 .served, .step 1 .served, .step 0 (.lost lateAnswer)]

/-- The order is sent again; its update fails and comes late. -/
def orderMarked : List (ShopStep plainCluster) :=
  [.spawn (.createOrder orderNode twoBooks), .step 2 .served, .step 2 (.answered 0),
    .step 2 (.failed ⟨lateAnswer, 0⟩), .env (0 : Nat)]

def twoBooksPending : Record where
  orderId := "o-1"
  sku := "book"
  qty := 2
  totalCents := 2598
  discountCents := 100
  payableCents := 2498
  state := "pending"
  catalogInstance := "catalog-1"
  orderInstance := "order-1"
  settlementInstance := ""

def twoBooksSettled : Record :=
  { twoBooksPending with state := "settled", settlementInstance := "order-1" }

theorem shop_boot : letI := permissiveInfra
    (shopSystem plainCluster).machine.Reachable ((shopSystem plainCluster).boot .empty) :=
  let _ := permissiveInfra
  .start ⟨.empty, rfl, rfl⟩

section

variable [Infra] {cluster : Cluster} {pool last : ShopPool cluster}
variable {labels : List (ShopStep cluster)}

/-- An order that has been answered is stored as the answer says, settled, with its bill. -/
structure ShopWorld.Settled (world : ShopWorld) (placed : OrderRequest) (record : Record) : Prop
    where
  payload : samePayload record placed = true
  state : record.state = "settled"
  stored : world.orders placed.orderId = some record
  billed : ∃ bill, world.bills placed.orderId = some bill ∧ record.Agrees bill ∧
    record.settlementInstance = bill.settlementInstance

theorem created_settled (hreliable : cluster.Reliable)
    (hreach : (shopSystem cluster).machine.Reachable pool) {thread : Nat}
    {placed : OrderRequest} {record : Record}
    (hreturned : (pool.threads thread).returned = some (.created placed (.ok record))) :
    pool.world.Settled placed record := by
  obtain ⟨hsound, hviews⟩ := shop_sound hreliable hreach
  obtain ⟨horder, hcase⟩ := (shop_disciplined cluster).returned hreach hreturned
  have hknown : samePayload record placed = true ∧ record.state = "settled" := by
    rcases hcase with hdone | ⟨marked, hmarked, hsame⟩
    · exact hdone
    · obtain ⟨hagain, hsettled⟩ := (hviews thread).marked marked hmarked
      cases horder.symm.trans hagain
      exact ⟨hsame, hsettled⟩
  have hid := (samePayload_iff.mp hknown.1).1
  have hstored := ((hviews thread).order record horder).stored hknown.2
  rw [hid] at hstored
  refine ⟨hknown.1, hknown.2, hstored, ?_⟩
  rcases hsound.state _ _ hstored with hpending | ⟨-, hbilled⟩
  · rw [hknown.2] at hpending
    exact absurd hpending (by decide)
  · exact hbilled

/-- All the successful answers for one order id are for the same order, and they are the same
record: the stored one, settled, with its one bill. -/
theorem created_once (hreliable : cluster.Reliable)
    (hreach : (shopSystem cluster).machine.Reachable pool) {first second : Nat}
    {placed again : OrderRequest} {record other : Record}
    (hfirst : (pool.threads first).returned = some (.created placed (.ok record)))
    (hsecond : (pool.threads second).returned = some (.created again (.ok other)))
    (hid : again.orderId = placed.orderId) :
    again = placed ∧ other = record ∧ pool.world.Settled placed record := by
  have hdone := created_settled hreliable hreach hfirst
  have hagain := created_settled hreliable hreach hsecond
  have hrecord : other = record := by
    have hstored := hagain.stored
    rw [hid, hdone.stored] at hstored
    exact (Option.some.inj hstored).symm
  subst hrecord
  obtain ⟨-, hsku, hqty, hdiscount⟩ := samePayload_iff.mp hdone.payload
  obtain ⟨-, hsku', hqty', hdiscount'⟩ := samePayload_iff.mp hagain.payload
  refine ⟨?_, rfl, hdone⟩
  cases placed
  cases again
  cases hid
  cases hsku.symm.trans hsku'
  cases hqty.symm.trans hqty'
  cases hdiscount.symm.trans hdiscount'
  rfl

omit [Infra] in
theorem created_once_late :
    letI := permissiveInfra
    ∃ pool : ShopPool plainCluster, (shopSystem plainCluster).machine.Reachable pool ∧
      (pool.threads 3).returned = some (.created twoBooks (.ok twoBooksSettled)) ∧
      (pool.threads 4).returned = some (.created twoBooks (.ok twoBooksSettled)) ∧
      pool.world.Settled twoBooks twoBooksSettled := by
  let _ := permissiveInfra
  obtain ⟨pool, hreach, htest⟩ := shop_boot.exec_any (fun _ _ => true) (fun _ _ _ => trivial)
    (orderBilled ++ orderMarked ++ [.spawn (.createOrder orderNode twoBooks), .step 3 .served,
      .spawn (.createOrder orderNode twoBooks), .step 4 .served])
    (fun pool =>
      (pool.threads 3).returned = some (.created twoBooks (.ok twoBooksSettled)) ∧
        (pool.threads 4).returned = some (.created twoBooks (.ok twoBooksSettled))) (by decide)
  obtain ⟨hfirst, hsecond⟩ := of_decide_eq_true htest
  exact ⟨pool, hreach, hfirst, hsecond,
    (created_once plainCluster_reliable hreach hfirst hsecond rfl).2.2⟩

/-- Whatever has failed and whatever has come late: an order that is stored has exact
amounts, and it is pending or it has a bill for the same goods and the same money. -/
theorem stored_agrees (hreliable : cluster.Reliable)
    (hreach : (shopSystem cluster).machine.Reachable pool) {id : String} {order : Record}
    (horder : pool.world.orders id = some order) :
    order.orderId = id ∧ order.IsOrder ∧ (order.state = "pending" ∨
      order.state = "settled" ∧ ∃ bill, pool.world.bills id = some bill ∧ bill.IsBill ∧
        order.Agrees bill ∧ order.settlementInstance = bill.settlementInstance) := by
  obtain ⟨hsound, -⟩ := shop_sound hreliable hreach
  refine ⟨hsound.orderKey id order horder, hsound.order id order horder, ?_⟩
  rcases hsound.state id order horder with hpending | ⟨hsettled, bill, hbill, hrest⟩
  · exact Or.inl hpending
  · exact Or.inr ⟨hsettled, bill, hbill, hsound.bill id bill hbill, hrest⟩

omit [Infra] in
theorem stored_agrees_marked :
    letI := permissiveInfra
    ∃ pool : ShopPool plainCluster, (shopSystem plainCluster).machine.Reachable pool ∧
      pool.world.orders "o-1" = some twoBooksSettled ∧
      ∃ bill, pool.world.bills "o-1" = some bill ∧ twoBooksSettled.Agrees bill := by
  let _ := permissiveInfra
  obtain ⟨pool, hreach, htest⟩ := shop_boot.exec_any (fun _ _ => true) (fun _ _ _ => trivial)
    (orderBilled ++ orderMarked)
    (fun pool => pool.shared.orders "o-1" = some twoBooksSettled) (by decide)
  have hstored : (ShopPool.world pool).orders "o-1" = some twoBooksSettled :=
    of_decide_eq_true htest
  obtain ⟨-, -, hpending | ⟨-, bill, hbill, -, hagrees, -⟩⟩ :=
    stored_agrees plainCluster_reliable hreach hstored
  · exact absurd hpending (by decide)
  · exact ⟨pool, hreach, hstored, bill, hbill, hagrees⟩

def ShopResult.orderShown : ShopResult → Option Record
  | .created _ (.ok record) => some record
  | .order _ (.ok record) => some record
  | _ => none

def ShopResult.billShown : ShopResult → Option Record
  | .settled _ (.ok record) => some record
  | .bill _ (.ok record) => some record
  | _ => none

def orderReading (cluster : Cluster) (id : String) :
    Reading cluster.State ShopView Record where
  read := fun state => (cluster.shows state).orders id
  told := fun view => view.order.filter (fun record => record.orderId = id)
  le := Record.Before

theorem orderReading_kept (hreliable : cluster.Reliable) (id : String) :
    (orderReading cluster id).Kept (shopSystem cluster) (fun _ _ => True) where
  refl := fun _ => Or.inl rfl
  trans := fun _ _ _ hfirst hlast => hfirst.trans hlast
  fresh := rfl
  keeps := fun _ _ _ hreach _ hnext order horder =>
    (shop_later hreliable hreach hnext).orders id order horder
  told := by
    intro pool thread choice act answer state hacts order htold
    obtain ⟨hsound, -⟩ := shop_sound hreliable hacts.reach
    have hcase := (hreliable.performs hacts.performed).order_after hsound hacts.allowed
    obtain ⟨hknown, hid⟩ := Option.filter_eq_some_iff.mp htold
    rcases hcase with hsame | ⟨record, hrecord, hstored⟩
    · exact Or.inl (Option.filter_eq_some_iff.mpr ⟨hsame ▸ hknown, hid⟩)
    · cases hrecord.symm.trans hknown
      have hid : order.orderId = id := of_decide_eq_true hid
      subst hid
      exact Or.inr hstored

theorem told_of_shown (hreach : (shopSystem cluster).machine.Reachable pool) {thread : Nat}
    {result : ShopResult} {record : Record}
    (hreturned : (pool.threads thread).returned = some result)
    (hshown : result.orderShown = some record) :
    (orderReading cluster record.orderId).told (pool.views thread) = some record := by
  have hknown : (pool.views thread).order = some record := by
    have hexplained := (shop_disciplined cluster).returned hreach hreturned
    cases result with
    | created placed answer =>
        rcases answer with error | order
        · cases hshown
        · cases hshown
          exact hexplained.1
    | order id answer =>
        rcases answer with error | order
        · cases hshown
        · cases hshown
          exact hexplained
    | settled request answer => cases hshown
    | bill id answer => cases hshown
  exact Option.filter_eq_some_iff.mpr ⟨hknown, decide_eq_true rfl⟩

/-- Whoever asks for an order after an answer about it is shown the same record, or the one
that has been settled since. -/
theorem shown_before (hreliable : cluster.Reliable)
    (hreach : (shopSystem cluster).machine.Reachable pool)
    (hrun : (shopSystem cluster).machine.Run (fun _ _ => True) pool labels last)
    {first second : Nat}
    {result later : ShopResult} {record more : Record}
    (hfirst : (pool.threads first).returned = some result)
    (hshown : result.orderShown = some record) (hnew : pool.count ≤ second)
    (hsecond : (last.threads second).returned = some later)
    (hmore : later.orderShown = some more) (hid : more.orderId = record.orderId) :
    record.Before more := by
  have htold := told_of_shown (hreach.run hrun) hsecond hmore
  rw [hid] at htold
  exact (orderReading_kept hreliable record.orderId).never_back (shop_disciplined cluster)
    hreach hrun (told_of_shown hreach hfirst hshown) hnew htold

omit [Infra] in
theorem shown_before_marked :
    letI := permissiveInfra
    ∃ pool last : ShopPool plainCluster, (shopSystem plainCluster).machine.Reachable pool ∧
      (pool.threads 1).returned = some (.order "o-1" (.ok twoBooksPending)) ∧
      (shopSystem plainCluster).machine.Reachable last ∧
      (last.threads 4).returned = some (.order "o-1" (.ok twoBooksSettled)) ∧
      twoBooksPending.Before twoBooksSettled := by
  let _ := permissiveInfra
  obtain ⟨pool, last, hreach, hrun, htest⟩ := shop_boot.exec_both (fun _ _ => true)
    (fun _ _ _ => trivial)
    (orderPending ++ [.spawn (.getOrder orderNode "o-1"), .step 1 .served])
    [.spawn (.settle orderNode ⟨twoBooks, 2598⟩), .step 2 .served, .step 2 .served,
      .step 2 .served, .step 0 (.answered 0), .step 0 .served, .spawn (.getBill orderNode "o-1"),
      .spawn (.getOrder orderNode "o-1"), .step 4 .served]
    (fun pool last =>
      (pool.threads 1).returned = some (.order "o-1" (.ok twoBooksPending)) ∧
        pool.count ≤ 4 ∧
        (last.threads 4).returned = some (.order "o-1" (.ok twoBooksSettled))) (by decide)
  obtain ⟨hfirst, hnew, hsecond⟩ := of_decide_eq_true htest
  exact ⟨pool, last, hreach, hfirst, hreach.run hrun, hsecond,
    shown_before plainCluster_reliable hreach hrun hfirst rfl hnew hsecond rfl rfl⟩

theorem bill_of_shown (hreliable : cluster.Reliable)
    (hreach : (shopSystem cluster).machine.Reachable pool) {thread : Nat}
    {result : ShopResult} {record : Record}
    (hreturned : (pool.threads thread).returned = some result)
    (hshown : result.billShown = some record) : pool.world.HasBill record := by
  obtain ⟨-, hviews⟩ := shop_sound hreliable hreach
  have hexplained := (shop_disciplined cluster).returned hreach hreturned
  refine (hviews thread).bill record ?_
  cases result with
  | created placed answer => cases hshown
  | order id answer => cases hshown
  | settled request answer =>
      rcases answer with error | stored
      · cases hshown
      · cases hshown
        exact hexplained.1
  | bill id answer =>
      rcases answer with error | stored
      · cases hshown
      · cases hshown
        exact hexplained

theorem shop_later_run (hreliable : cluster.Reliable)
    (hreach : (shopSystem cluster).machine.Reachable pool)
    (hrun : (shopSystem cluster).machine.Run (fun _ _ => True) pool labels last) :
    pool.world.Later last.world := by
  induction hrun with
  | refl => exact .refl pool.world
  | tail hbefore _ hnext ih =>
      exact ih.trans (shop_later hreliable (hreach.run hbefore) hnext)

/-- One order id has one bill: whoever is shown it, at whatever time, is shown the same. -/
theorem billed_once (hreliable : cluster.Reliable)
    (hreach : (shopSystem cluster).machine.Reachable pool)
    (hrun : (shopSystem cluster).machine.Run (fun _ _ => True) pool labels last)
    {first second : Nat}
    {result later : ShopResult} {record more : Record}
    (hfirst : (pool.threads first).returned = some result)
    (hshown : result.billShown = some record)
    (hsecond : (last.threads second).returned = some later)
    (hmore : later.billShown = some more) (hid : more.orderId = record.orderId) :
    more = record := by
  have hold : last.world.HasBill record :=
    (bill_of_shown hreliable hreach hfirst hshown).later (shop_later_run hreliable hreach hrun)
  have hnew := bill_of_shown hreliable (hreach.run hrun) hsecond hmore
  unfold ShopWorld.HasBill at hold hnew
  rw [hid, hold] at hnew
  exact (Option.some.inj hnew).symm

omit [Infra] in
theorem billed_once_lost :
    letI := permissiveInfra
    ∃ pool last record more, (shopSystem plainCluster).machine.Reachable pool ∧
      (shopSystem plainCluster).machine.Reachable last ∧
      (pool.threads 1).returned = some (.settled ⟨twoBooks, 2598⟩ (.ok record)) ∧
      (last.threads 3).returned = some (.bill "o-1" (.ok more)) ∧ more = record := by
  let _ := permissiveInfra
  let bill : Record := {
    twoBooksSettled with catalogInstance := "", orderInstance := "" }
  obtain ⟨pool, last, hreach, hrun, htest⟩ := shop_boot.exec_both (fun _ _ => true)
    (fun _ _ _ => trivial) orderBilled
    (orderMarked ++ [.spawn (.getBill orderNode "o-1"), .step 3 .served])
    (fun pool last =>
      (pool.threads 1).returned = some (.settled ⟨twoBooks, 2598⟩ (.ok bill)) ∧
        (last.threads 3).returned = some (.bill "o-1" (.ok bill))) (by decide)
  obtain ⟨hfirst, hsecond⟩ := of_decide_eq_true htest
  exact ⟨pool, last, bill, bill, hreach, hreach.run hrun, hfirst, hsecond,
    billed_once plainCluster_reliable hreach hrun hfirst rfl hsecond rfl rfl⟩

/-! ## Handlers that nothing disturbs -/

variable {state : cluster.State}

theorem readRecord_served (hreliable : cluster.Reliable) (hserving : cluster.Serving)
    {collection : Collection} {id : String} {record : Record} (htoken : safeToken id = true)
    (hstored : (cluster.shows state).documents collection id = some record) :
    ∃ last, Program.Served (shopSystem cluster).MayAnswer (readRecord collection id) state
      (.done (.ok record)) last ∧ cluster.shows last = cluster.shows state := by
  obtain ⟨choice, last, hperform⟩ := hserving.found collection id state
  obtain ⟨hsame, -⟩ := hreliable.found hperform
  refine ⟨last, ?_, hsame⟩
  unfold readRecord
  rw [if_neg (not_not.mpr htoken)]
  have hserves : (shopSystem cluster).MayAnswer (.findOne collection id) state
      (Except.ok (some record) : Except DbError (Option Record)) last := by
    refine ⟨choice, ?_⟩
    rw [← hstored]
    exact hperform
  exact .step hserves (.refl _ _)

theorem readRecord_served_none (hreliable : cluster.Reliable) (hserving : cluster.Serving)
    {collection : Collection} {id : String} (htoken : safeToken id = true)
    (hnone : (cluster.shows state).documents collection id = none) :
    ∃ last, Program.Served (shopSystem cluster).MayAnswer (readRecord collection id) state
      (.done (.error (makeError .notFound "record not found"))) last ∧
      cluster.shows last = cluster.shows state := by
  obtain ⟨choice, last, hperform⟩ := hserving.found collection id state
  obtain ⟨hsame, -⟩ := hreliable.found hperform
  refine ⟨last, ?_, hsame⟩
  unfold readRecord
  rw [if_neg (not_not.mpr htoken)]
  have hserves : (shopSystem cluster).MayAnswer (.findOne collection id) state
      (Except.ok none : Except DbError (Option Record)) last := by
    refine ⟨choice, ?_⟩
    rw [← hnone]
    exact hperform
  exact .step hserves (.refl _ _)

theorem insertRecord_served (hreliable : cluster.Reliable) (hserving : cluster.Serving)
    {collection : Collection} {record : Record} (htoken : safeToken record.orderId = true)
    (hnone : (cluster.shows state).documents collection record.orderId = none) :
    ∃ last, Program.Served (shopSystem cluster).MayAnswer (insertRecord collection record) state
      (.done (.ok record)) last ∧
      cluster.shows last = (cluster.shows state).put collection record := by
  obtain ⟨choice, last, hperform⟩ := hserving.inserted collection record state hnone
  refine ⟨last, ?_, (hreliable.inserted hperform).2⟩
  unfold insertRecord
  rw [if_neg (not_not.mpr htoken)]
  have hserves : (shopSystem cluster).MayAnswer (.insertOne collection record) state
      (Except.ok () : Except DbError Unit) last := ⟨choice, hperform⟩
  exact .step hserves (.refl _ _)

theorem markSettled_served (hreliable : cluster.Reliable) (hserving : cluster.Serving)
    {record more : Record} (htoken : safeToken record.orderId = true)
    (hmore : (cluster.shows state).orders record.orderId = some more) :
    ∃ last, Program.Served (shopSystem cluster).MayAnswer (markSettled record) state
      (.done (.ok ())) last ∧
      cluster.shows last = (cluster.shows state).land (.update record.orderId record) := by
  obtain ⟨choice, count, last, hperform⟩ := hserving.updated record.orderId record state
  obtain ⟨hcount, hland⟩ := hreliable.updated hperform
  rw [hmore] at hcount
  subst hcount
  refine ⟨last, ?_, hland⟩
  unfold markSettled
  rw [if_neg (not_not.mpr htoken)]
  have hserves : (shopSystem cluster).MayAnswer (.updateOne record.orderId record) state
      (Except.ok 1 : Except DbError Nat) last := ⟨choice, hperform⟩
  exact .step hserves (.refl _ _)

/-- What `CreateOrder` expects of the answer of a settlement. -/
structure BillRequest.Expects (request : BillRequest) (bill : Record) : Prop where
  payload : samePayload bill request.order = true
  state : bill.state = "settled"
  total : bill.totalCents = request.totalCents
  payable : bill.payableCents = request.totalCents - request.order.discountCents

theorem answerSettle_served (hreliable : cluster.Reliable) (hserving : cluster.Serving)
    (state : cluster.State) {request : BillRequest} {bill : Record}
    (hexpects : request.Expects bill) :
    ∃ last, Program.Served (shopSystem cluster).MayAnswer (answerSettle request bill) state
      (.done (.ok bill)) last ∧
      cluster.shows last = (cluster.shows state).replied request bill := by
  obtain ⟨choice, last, hperform⟩ := hserving.replied request bill state
  refine ⟨last, ?_, hreliable.replied hperform⟩
  unfold answerSettle
  rw [if_neg (not_or.mpr ⟨not_not.mpr hexpects.payload, not_not.mpr hexpects.total⟩)]
  exact .step ⟨choice, hperform⟩ (.refl _ _)

/-- A settlement that nothing disturbs answers, unless another bill is there. -/
theorem settle_served (hreliable : cluster.Reliable) (hserving : cluster.Serving) {node : Node}
    (hnode : node.storage = true) {request : BillRequest}
    (hvalid : validateOrder request.order = .ok ()) (htotal : 0 < request.totalCents)
    (hcovered : request.order.discountCents ≤ request.totalCents)
    (hbills : ∀ bill, (cluster.shows state).bills request.order.orderId = some bill →
      request.Expects bill) :
    ∃ bill last, Program.Served (shopSystem cluster).MayAnswer (settle node request) state
      (.done (.ok bill)) last ∧ request.Expects bill ∧
        (request, bill) ∈ (cluster.shows last).replies ∧
        (cluster.shows last).orders = (cluster.shows state).orders := by
  obtain ⟨htoken, -⟩ := validateOrder_eq_ok.mp hvalid
  unfold settle
  rw [hvalid]
  dsimp only
  rw [if_neg (not_or.mpr ⟨Int64.not_le.mpr htotal, Int64.not_lt.mpr hcovered⟩),
    if_neg (not_not.mpr hnode)]
  cases hbill : (cluster.shows state).bills request.order.orderId with
  | some bill =>
      have hexpects := hbills bill hbill
      have hstored : (cluster.shows state).documents .bills request.order.orderId =
          some bill := hbill
      obtain ⟨middle, hread, hsame⟩ := readRecord_served hreliable hserving htoken hstored
      obtain ⟨last, hanswer, hreplied⟩ := answerSettle_served hreliable hserving middle hexpects
      refine ⟨bill, last, hread.andThen hanswer, hexpects, ?_, ?_⟩
      · rw [hreplied]
        exact List.mem_append_right _ List.mem_cons_self
      · rw [hreplied, hsame]
        rfl
  | none =>
      have hexpects : request.Expects (billRecord node request) := {
        payload := samePayload_iff.mpr ⟨rfl, rfl, rfl, rfl⟩
        state := rfl
        total := rfl
        payable := rfl }
      have hnone : (cluster.shows state).documents .bills request.order.orderId = none := hbill
      obtain ⟨middle, hread, hsame⟩ := readRecord_served_none hreliable hserving htoken hnone
      have hkey : safeToken (billRecord node request).orderId = true := htoken
      have hstill : (cluster.shows middle).documents .bills
          (billRecord node request).orderId = none := by
        rw [hsame]
        exact hbill
      obtain ⟨stored, hinserted, hput⟩ := insertRecord_served hreliable hserving hkey hstill
      obtain ⟨last, hanswer, hreplied⟩ := answerSettle_served hreliable hserving stored hexpects
      refine ⟨billRecord node request, last,
        hread.andThen (hinserted.andThen hanswer), hexpects, ?_, ?_⟩
      · rw [hreplied]
        exact List.mem_append_right _ List.mem_cons_self
      · rw [hreplied, hput, hsame]
        rfl

theorem completeOrder_served (hreliable : cluster.Reliable) (hserving : cluster.Serving)
    {placed : OrderRequest} {order bill : Record}
    (htoken : safeToken placed.orderId = true) (hsame : samePayload order placed = true)
    (hpending : order.state = "pending") (hexact : order.Exact)
    (hstored : (cluster.shows state).orders placed.orderId = some order)
    (hexpects : BillRequest.Expects ⟨placed, order.totalCents⟩ bill)
    (hreply : (⟨placed, order.totalCents⟩, bill) ∈ (cluster.shows state).replies) :
    ∃ last, Program.Served (shopSystem cluster).MayAnswer (completeOrder placed order) state
      (.done (.ok (order.settledBy bill))) last := by
  obtain ⟨hid, -, -, hdiscount⟩ := samePayload_iff.mp hsame
  have hpayable : bill.payableCents = order.payableCents := by
    have hlow : 0 ≤ order.discountCents := Int64.le_iff_toInt_le.mpr hexact.discount
    rw [hexpects.payable, ← hdiscount, ← Int64.toInt_inj, toInt_sub_of_le hlow hexact.covered,
      hexact.payable]
  have hagrees : ¬(¬samePayload bill placed = true ∨ bill.state ≠ "settled" ∨
      bill.totalCents ≠ order.totalCents ∨ bill.payableCents ≠ order.payableCents) := by
    simp only [not_or, not_not]
    exact ⟨hexpects.payload, hexpects.state, hexpects.total, hpayable⟩
  let settled := order.settledBy bill
  have hkey : settled.orderId = placed.orderId := hid
  obtain ⟨choice, told, hperform⟩ := hserving.settled _ _ state hreply
  obtain ⟨hunchanged, -⟩ := hreliable.settled hperform
  have hstill : (cluster.shows told).orders settled.orderId = some order := by
    rw [hkey, hunchanged, hstored]
  have htoken' : safeToken settled.orderId = true := hkey ▸ htoken
  obtain ⟨marked, hupdated, hland⟩ := markSettled_served hreliable hserving htoken' hstill
  have hmarked : (cluster.shows marked).documents .orders placed.orderId = some settled := by
    rw [hland, ← hkey]
    simp only [ShopWorld.land, hstill]
    exact Function.update_self _ _ _
  obtain ⟨last, hread, -⟩ := readRecord_served hreliable hserving htoken hmarked
  refine ⟨last, ?_⟩
  unfold completeOrder
  rw [if_neg (not_not.mpr hsame), if_neg (by rw [hpending]; decide)]
  have hserves : (shopSystem cluster).MayAnswer (.settle ⟨placed, order.totalCents⟩) state
      (Except.ok bill : Except Error Record) told := ⟨choice, hperform⟩
  refine .step hserves ?_
  dsimp only
  rw [if_neg hagrees]
  exact hupdated.andThen hread

theorem createOrder_served (hreliable : cluster.Reliable) (hserving : cluster.Serving)
    {node : Node} (hnode : node.storage = true) {placed : OrderRequest} {order : Record}
    (hvalid : validateOrder placed = .ok ())
    (hstored : (cluster.shows state).orders placed.orderId = some order) :
    ∃ last, Program.Served (shopSystem cluster).MayAnswer (createOrder node placed) state
      (completeOrder placed order) last ∧ cluster.shows last = cluster.shows state := by
  obtain ⟨htoken, -⟩ := validateOrder_eq_ok.mp hvalid
  have hread : (cluster.shows state).documents .orders placed.orderId = some order := hstored
  obtain ⟨last, hserved, hsame⟩ := readRecord_served hreliable hserving htoken hread
  refine ⟨last, ?_, hsame⟩
  unfold createOrder
  rw [hvalid]
  dsimp only
  rw [if_neg (not_not.mpr hnode)]
  exact hserved.andThen (.refl _ _)

/-- An order that has been stored is accepted again. -/
theorem Record.IsOrder.valid {order : Record} (hisOrder : order.IsOrder) {placed : OrderRequest}
    (hsame : samePayload order placed = true) : validateOrder placed = .ok () := by
  obtain ⟨hid, hsku, hqty, hdiscount⟩ := samePayload_iff.mp hsame
  obtain ⟨htoken, htoken'⟩ := hisOrder.tokens
  rw [hid] at htoken
  rw [hsku] at htoken'
  refine validateOrder_eq_ok.mpr ⟨htoken, htoken', ?_, ?_⟩
  · rw [← hqty]
    exact Int64.lt_iff_toInt_lt.mpr hisOrder.qty
  · rw [← hdiscount]
    exact Int64.le_iff_toInt_le.mpr hisOrder.discount

omit [Infra] in
theorem BillRequest.expects_of_agrees {order bill : Record} {placed : OrderRequest}
    (hexact : order.Exact) (hsame : samePayload order placed = true)
    (hagrees : order.Agrees bill) (hsettled : bill.state = "settled") :
    BillRequest.Expects ⟨placed, order.totalCents⟩ bill := by
  obtain ⟨hid, hsku, hqty, hdiscount⟩ := samePayload_iff.mp hsame
  refine ⟨samePayload_iff.mpr ⟨?_, ?_, ?_, ?_⟩, hsettled, hagrees.total, ?_⟩
  · exact hagrees.orderId.trans hid
  · exact hagrees.sku.trans hsku
  · exact hagrees.qty.trans hqty
  · exact hagrees.discount.trans hdiscount
  · have hlow : 0 ≤ order.discountCents := Int64.le_iff_toInt_le.mpr hexact.discount
    dsimp only
    rw [hagrees.payable, ← hdiscount, ← Int64.toInt_inj, toInt_sub_of_le hlow hexact.covered,
      hexact.payable]

/-- With no bill but an agreeing one, a process with its collection completes the order while
the others rest. -/
theorem replay_completes (hreliable : cluster.Reliable) (hserving : cluster.Serving)
    (hreach : (shopSystem cluster).machine.Reachable pool) {node : Node}
    (hnode : node.storage = true) {placed : OrderRequest} {order : Record}
    (hstored : pool.world.orders placed.orderId = some order)
    (hpending : order.state = "pending") (hsame : samePayload order placed = true)
    (hbills : ∀ bill, pool.world.bills placed.orderId = some bill → order.Agrees bill) :
    ∃ labels last record,
      (shopSystem cluster).machine.Run (fun _ _ => True) pool
        (.spawn (.createOrder node placed) :: labels) last ∧
      (last.threads pool.count).returned = some (.created placed (.ok record)) := by
  obtain ⟨hsound, -⟩ := shop_sound hreliable hreach
  have hisOrder := hsound.order _ _ hstored
  have hvalid := hisOrder.valid hsame
  obtain ⟨htoken, -⟩ := validateOrder_eq_ok.mp hvalid
  obtain ⟨hid, -, -, hdiscount⟩ := samePayload_iff.mp hsame
  let request : BillRequest := ⟨placed, order.totalCents⟩
  have htotal : 0 < request.totalCents := Int64.lt_iff_toInt_lt.mpr hisOrder.total
  have hcovered : request.order.discountCents ≤ request.totalCents :=
    hdiscount ▸ hisOrder.covered
  -- The handler reads the order and comes to its settlement.
  let rest := fun answer => (return .created placed answer : ShopOp ShopResult)
  obtain ⟨read, hcreate, hread⟩ := createOrder_served hreliable hserving hnode hvalid hstored
  have hcreate : Program.Served (shopSystem cluster).MayAnswer
      ((shopSystem cluster).main (.createOrder node placed)) pool.shared
      (completeOrder placed order >>= rest) read := hcreate.under rest
  obtain ⟨before, asking, hasking, rfl, hcount, hthreads⟩ := System.run_spawned hcreate
  -- A settlement runs, for this request.
  have hbills' : ∀ bill, (cluster.shows asking.shared).bills request.order.orderId = some bill →
      request.Expects bill := by
    intro bill hbill
    rw [hread] at hbill
    exact BillRequest.expects_of_agrees hisOrder.toExact hsame (hbills bill hbill)
      (hsound.bill _ _ hbill).state
  obtain ⟨bill, billed, hsettle, hexpects, hreply, horders⟩ :=
    settle_served hreliable hserving hnode hvalid htotal hcovered hbills'
  have hsettled : Program.Served (shopSystem cluster).MayAnswer
      ((shopSystem cluster).main (.settle node request)) asking.shared
      (.done (.settled request (.ok bill))) billed := hsettle.andThen (.refl _ _)
  obtain ⟨between, settled, hsettling, hshared, hcount', hthreads'⟩ :=
    System.run_spawned hsettled
  -- The handler goes on with the answer.
  have hstill : (cluster.shows billed).orders placed.orderId = some order := by
    rw [horders, hread]
    exact hstored
  obtain ⟨final, hcomplete⟩ := completeOrder_served hreliable hserving htoken hsame hpending
    hisOrder.toExact hstill hexpects hreply
  have hthread : settled.threads pool.count = completeOrder placed order >>= rest := by
    rw [hthreads', Function.update_of_ne (by omega), hthreads, Function.update_self]
  obtain ⟨after, last, hlast, -, -, hthreads''⟩ :=
    System.run_served (hcomplete.andThen (.refl _ _)) settled pool.count (by omega) hthread
      hshared
  refine ⟨_, last, order.settledBy bill, hasking.append (hsettling.append hlast), ?_⟩
  rw [hthreads'', Function.update_self]
  rfl

/-- Sending a pending order again can complete it exactly if no bill stands against it. -/
theorem replay_completes_iff (hreliable : cluster.Reliable) (hserving : cluster.Serving)
    (hreach : (shopSystem cluster).machine.Reachable pool) {node : Node}
    (hnode : node.storage = true) {placed : OrderRequest} {order : Record}
    (hstored : pool.world.orders placed.orderId = some order)
    (hpending : order.state = "pending") (hsame : samePayload order placed = true) :
    (∃ labels last record,
      (shopSystem cluster).machine.Run (fun _ _ => True) pool
        (.spawn (.createOrder node placed) :: labels) last ∧
      (last.threads pool.count).returned = some (.created placed (.ok record))) ↔
      ∀ bill, pool.world.bills placed.orderId = some bill → order.Agrees bill := by
  constructor
  · rintro ⟨labels, last, record, hrun, hreturned⟩ bill hbill
    have hlater := shop_later_run hreliable hreach hrun
    have hdone := created_settled hreliable (hreach.run hrun) hreturned
    obtain ⟨more, hmore, hbefore⟩ := hlater.orders _ _ hstored
    obtain ⟨other, hother, hagrees, -⟩ := hdone.billed
    cases hdone.stored.symm.trans hmore
    cases (hlater.bills _ _ hbill).symm.trans hother
    exact hbefore.agrees hagrees
  · exact replay_completes hreliable hserving hreach hnode hstored hpending hsame

omit [Infra] in
theorem replay_completes_iff_billed :
    letI := permissiveInfra
    ∃ pool : ShopPool plainCluster, (shopSystem plainCluster).machine.Reachable pool ∧
      pool.world.orders "o-1" = some twoBooksPending ∧
      ∃ labels last record,
        (shopSystem plainCluster).machine.Run (fun _ _ => True) pool
          (.spawn (.createOrder orderNode twoBooks) :: labels) last ∧
        (last.threads pool.count).returned = some (.created twoBooks (.ok record)) := by
  let _ := permissiveInfra
  let bill : Record := {
    twoBooksSettled with catalogInstance := "", orderInstance := "" }
  obtain ⟨pool, hreach, htest⟩ := shop_boot.exec_any (fun _ _ => true) (fun _ _ _ => trivial)
    orderBilled
    (fun pool => pool.shared.orders "o-1" = some twoBooksPending ∧
      pool.shared.bills "o-1" = some bill) (by decide)
  obtain ⟨horder, hbill⟩ := of_decide_eq_true htest
  have hstored : (ShopPool.world pool).orders twoBooks.orderId = some twoBooksPending := horder
  refine ⟨pool, hreach, hstored, (replay_completes_iff plainCluster_reliable
    plainCluster_serving hreach rfl hstored rfl rfl).mpr ?_⟩
  intro other hother
  cases hbill.symm.trans hother
  exact ⟨rfl, rfl, rfl, rfl, rfl, rfl⟩

end

end BbtFramework.Ecommerce
