import BbtFramework.Ecommerce.Storage

/-!
# The database and the calls

The handlers run over a database and over calls between the services that are not theirs.
What they rely on is stated of any such cluster: a document has one key, a write that was
acknowledged stays, one that was not may still be carried out, and a settlement is answered
by a settlement of the same request.
-/

namespace BbtFramework.Ecommerce

/-- `shows` tells of a state what is stored, which writes can still be carried out and which
replies can still arrive. -/
structure Cluster where
  State : Type
  Choice : Type
  Event : Type
  empty : State
  shows : State → ShopWorld
  perform : (act : ShopAct) → Choice → State → Option (act.Answer × State)
  react : Event → State → Option State

namespace Cluster

variable (cluster : Cluster)

/-- What the handlers rely on. -/
structure Reliable : Prop where
  empty : cluster.shows cluster.empty = .empty
  /-- A read shows the last write that was carried out. -/
  found : ∀ {collection id choice state answer last},
    cluster.perform (.findOne collection id) choice state = some (answer, last) →
    cluster.shows last = cluster.shows state ∧
      ∀ found, answer = .ok found → found = (cluster.shows state).documents collection id
  /-- The key is unique, and an insert that is acknowledged has been carried out. -/
  inserted : ∀ {collection record choice state last},
    cluster.perform (.insertOne collection record) choice state = some (.ok (), last) →
    (cluster.shows state).documents collection record.orderId = none ∧
      cluster.shows last = (cluster.shows state).put collection record
  /-- An insert that failed may have been sent. -/
  notInserted : ∀ {collection record choice state error last},
    cluster.perform (.insertOne collection record) choice state = some (.error error, last) →
    cluster.shows last = cluster.shows state ∨
      cluster.shows last = (cluster.shows state).sent (.insert collection record)
  /-- An update that is acknowledged has been carried out, and counts what it has found. -/
  updated : ∀ {id record choice state count last},
    cluster.perform (.updateOne id record) choice state = some (.ok count, last) →
    count = (if ((cluster.shows state).orders id).isSome then 1 else 0) ∧
      cluster.shows last = (cluster.shows state).land (.update id record)
  notUpdated : ∀ {id record choice state error last},
    cluster.perform (.updateOne id record) choice state = some (.error error, last) →
    cluster.shows last = cluster.shows state ∨
      cluster.shows last = (cluster.shows state).sent (.update id record)
  priced : ∀ {sku orderId choice state answer last},
    cluster.perform (.price sku orderId) choice state = some (answer, last) →
    cluster.shows last = cluster.shows state
  /-- The caller of a settlement is given a reply to a request of the same content, or an
  error. -/
  settled : ∀ {request choice state answer last},
    cluster.perform (.settle request) choice state = some (answer, last) →
    cluster.shows last = cluster.shows state ∧
      ∀ bill, answer = .ok bill → (request, bill) ∈ (cluster.shows state).replies
  replied : ∀ {request bill choice state answer last},
    cluster.perform (.reply request bill) choice state = some (answer, last) →
    cluster.shows last = (cluster.shows state).replied request bill
  /-- Nothing else is written but what was sent before. -/
  late : ∀ {event state last}, cluster.react event state = some last →
    ∃ write ∈ (cluster.shows state).floating,
      cluster.shows last = (cluster.shows state).land write

/-- What a cluster can answer while nothing fails. -/
structure Serving : Prop where
  found : ∀ collection id state, ∃ choice last,
    cluster.perform (.findOne collection id) choice state =
      some (.ok ((cluster.shows state).documents collection id), last)
  inserted : ∀ collection record state,
    (cluster.shows state).documents collection record.orderId = none → ∃ choice last,
      cluster.perform (.insertOne collection record) choice state = some (.ok (), last)
  updated : ∀ id record state, ∃ choice count last,
    cluster.perform (.updateOne id record) choice state = some (.ok count, last)
  settled : ∀ request bill state, (request, bill) ∈ (cluster.shows state).replies →
    ∃ choice last, cluster.perform (.settle request) choice state = some (.ok bill, last)
  replied : ∀ request bill state, ∃ choice last,
    cluster.perform (.reply request bill) choice state = some ((), last)

end Cluster

inductive ShopChoice where
  | served
  | failed (error : DbError)
  | priced (answer : Except Error PriceResponse)
  | lost (error : Error)
  | answered (index : Nat)

namespace ShopWorld

variable (world : ShopWorld)

def perform : (act : ShopAct) → ShopChoice → Option (act.Answer × ShopWorld)
  | .findOne collection id, .served => some (.ok (world.documents collection id), world)
  | .findOne _ _, .failed error => some (.error error, world)
  | .insertOne collection record, .served =>
      if (world.documents collection record.orderId).isSome then none
      else some (.ok (), world.put collection record)
  | .insertOne collection record, .failed error =>
      if error.backendCode = duplicateKey then
        if (world.documents collection record.orderId).isSome then some (.error error, world)
        else none
      else some (.error error, world.sent (.insert collection record))
  | .updateOne id record, .served =>
      some (.ok (if (world.orders id).isSome then 1 else 0), world.land (.update id record))
  | .updateOne id record, .failed error =>
      some (.error error, world.sent (.update id record))
  | .price _ _, .priced answer => some (answer, world)
  | .settle _, .lost error => some (.error error, world)
  | .settle request, .answered index =>
      match world.replies[index]? with
      | some (asked, bill) => if asked = request then some (.ok bill, world) else none
      | none => none
  | .reply request bill, .served => some ((), world.replied request bill)
  | _, _ => none

theorem insertOne_some {collection : Collection} {record : Record} {choice : ShopChoice}
    {answer : (ShopAct.insertOne collection record).Answer} {last : ShopWorld}
    (hperform : world.perform (.insertOne collection record) choice = some (answer, last)) :
    (answer = .ok () ∧ world.documents collection record.orderId = none ∧
        last = world.put collection record) ∨
      ∃ error, answer = .error error ∧
        (last = world ∨ last = world.sent (.insert collection record)) := by
  cases choice with
  | served =>
      dsimp only [perform] at hperform
      split at hperform
      · cases hperform
      case isFalse hnone =>
        cases hperform
        rw [Bool.not_eq_true, Option.isSome_eq_false_iff, Option.isNone_iff_eq_none] at hnone
        exact Or.inl ⟨rfl, hnone, rfl⟩
  | failed error =>
      dsimp only [perform] at hperform
      split at hperform
      · split at hperform
        · cases hperform
          exact Or.inr ⟨error, rfl, Or.inl rfl⟩
        · cases hperform
      · cases hperform
        exact Or.inr ⟨error, rfl, Or.inr rfl⟩
  | _ => cases hperform

/-- A floating write is carried out at last, once or more often. -/
def landed (index : Nat) : Option ShopWorld :=
  (world.floating[index]?).map world.land

end ShopWorld

def plainCluster : Cluster where
  State := ShopWorld
  Choice := ShopChoice
  Event := Nat
  empty := .empty
  shows := fun world => world
  perform := fun act choice world => world.perform act choice
  react := fun index world => world.landed index

theorem plainCluster_reliable : plainCluster.Reliable where
  empty := rfl
  found := by
    intro collection id choice state answer last hperform
    cases choice with
    | served =>
        cases hperform
        refine ⟨rfl, ?_⟩
        rintro found ⟨⟩
        rfl
    | failed error =>
        cases hperform
        refine ⟨rfl, ?_⟩
        rintro found ⟨⟩
    | _ => cases hperform
  inserted := by
    intro collection record choice state last hperform
    obtain ⟨-, hnone, hput⟩ | ⟨error, hfailed, -⟩ := ShopWorld.insertOne_some state hperform
    · exact ⟨hnone, hput⟩
    · cases hfailed
  notInserted := by
    intro collection record choice state error last hperform
    obtain ⟨hanswered, -⟩ | ⟨-, -, hstays⟩ := ShopWorld.insertOne_some state hperform
    · cases hanswered
    · exact hstays
  updated := by
    intro id record choice state count last hperform
    cases choice with
    | served =>
        cases hperform
        exact ⟨rfl, rfl⟩
    | _ => cases hperform
  notUpdated := by
    intro id record choice state error last hperform
    cases choice with
    | failed failure =>
        cases hperform
        exact Or.inr rfl
    | _ => cases hperform
  priced := by
    intro sku orderId choice state answer last hperform
    cases choice with
    | priced price =>
        cases hperform
        rfl
    | _ => cases hperform
  settled := by
    intro request choice state answer last hperform
    cases choice with
    | lost error =>
        cases hperform
        refine ⟨rfl, ?_⟩
        rintro bill ⟨⟩
    | answered index =>
        dsimp only [plainCluster, ShopWorld.perform] at hperform
        split at hperform
        case h_1 asked bill hreply =>
          split at hperform
          case isTrue hasked =>
            cases hperform
            subst hasked
            refine ⟨rfl, ?_⟩
            rintro told ⟨⟩
            exact List.mem_of_getElem? hreply
          case isFalse => cases hperform
        case h_2 => cases hperform
    | _ => cases hperform
  replied := by
    intro request bill choice state answer last hperform
    cases choice with
    | served =>
        cases hperform
        rfl
    | _ => cases hperform
  late := by
    intro index state last hlanded
    obtain ⟨write, hwrite, rfl⟩ := Option.map_eq_some_iff.mp hlanded
    exact ⟨write, List.mem_of_getElem? hwrite, rfl⟩

theorem plainCluster_serving : plainCluster.Serving where
  found := fun _ _ _ => ⟨.served, _, rfl⟩
  inserted := by
    intro collection record state hnone
    refine ⟨.served, state.put collection record, if_neg ?_⟩
    rw [show state.documents collection record.orderId = none from hnone]
    exact Bool.false_ne_true
  updated := fun _ _ _ => ⟨.served, _, _, rfl⟩
  settled := by
    intro request bill state hmem
    obtain ⟨index, hindex⟩ := List.mem_iff_getElem?.mp hmem
    refine ⟨.answered index, state, ?_⟩
    have hreply : state.replies[index]? = some (request, bill) := hindex
    simp only [plainCluster, ShopWorld.perform, hreply, if_true]
  replied := fun _ _ _ => ⟨.served, _, rfl⟩

end BbtFramework.Ecommerce
