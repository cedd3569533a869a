import BbtFramework.Library.Tally
import BbtFramework.Observe.Records

/-!
# Revocation is a barrier

The leases of a record cover the threads that run its callback.  A revoked token
gets no new lease, so once it has none its callback runs nowhere and never again;
what can break this is only a drain that erases a record with leases.
-/

namespace BbtFramework.Observe

open BbtFramework.App
open BbtFramework.Library

/-- A program that ends with the callbacks running that ran before, and at no wait of
a drain. -/
def Settles {Value : Type} (program : ObserverOp Value) : Prop :=
  ∀ view : ObserverView, view.draining = false →
    Program.Follows observerDiscipline program view
      (fun _ later => later.running = view.running ∧ later.draining = false)

theorem revokeObserver_follows (token : TokenId) (view : ObserverView) :
    Program.Follows observerDiscipline (revokeObserver token) view
      (fun _ later => later.running = view.running ∧ later.draining = view.draining ∧
        token ∈ later.gone) := by
  refine Program.Follows.step trivial ?_
  intro (found : Bool) _
  cases found with
  | false => exact ⟨rfl, rfl, List.mem_cons_self⟩
  | true =>
      refine Program.Follows.step ⟨List.mem_cons_self, ?_⟩ ?_
      · intro hrunning
        have hown : decide (token ∈ view.running) = true := decide_eq_true hrunning
        simp [observerDiscipline, ObserverView.after, hown]
      intro _ _
      refine Program.Follows.step List.mem_cons_self ?_
      intro _ _
      exact ⟨rfl, rfl, List.mem_cons_self⟩

theorem drainInactiveObservers_follows (view : ObserverView) :
    Program.Follows observerDiscipline drainInactiveObservers view
      (fun _ later => later.running = view.running ∧ later.draining = false ∧
        later.waited = true) := by
  refine Program.Follows.step trivial ?_
  intro _ _
  refine Program.Follows.step rfl ?_
  intro _ _
  refine Program.Follows.step trivial ?_
  intro _ _
  exact ⟨rfl, rfl, rfl⟩

theorem revokeObserversOf_follows (observerId : ObjectId) (view : ObserverView) :
    Program.Follows observerDiscipline (revokeObserversOf observerId) view
      (fun _ later => later.running = view.running ∧ later.draining = false ∧
        later.waited = true) := by
  refine Program.Follows.step trivial ?_
  intro _ _
  exact drainInactiveObservers_follows view

theorem dispatchEvents_settles {callback : TokenId → ObserverOp Bool}
    (hcallback : ∀ token, Settles (callback token)) (events : List PendingEvent) :
    Settles (dispatchEvents callback events) := by
  induction events with
  | nil => exact fun view hview => ⟨rfl, hview⟩
  | cons event rest ih =>
      intro view hview
      refine Program.Follows.step hview ?_
      intro (leased : Bool) _
      cases leased with
      | false => exact ih view hview
      | true =>
          rw [if_pos rfl]
          refine (hcallback event.token
            { view with running := event.token :: view.running } hview).andThen ?_
          rintro threw later ⟨hrunning, hlater⟩
          have hreleased : ∀ middle : ObserverView, middle.running = later.running →
              middle.draining = false → Program.Follows observerDiscipline
                (do
                  perform (.release event.token)
                  dispatchEvents callback rest)
                middle (fun _ last => last.running = view.running ∧
                  last.draining = false) := by
            intro middle hsame hmiddle
            refine Program.Follows.step ⟨view.running, hsame.trans hrunning⟩ ?_
            intro _ _
            refine (ih { middle with running := middle.running.tail } hmiddle).mono ?_
            rintro _ last ⟨hlast, hdone⟩
            refine ⟨hlast.trans ?_, hdone⟩
            exact congrArg List.tail (hsame.trans hrunning)
          cases threw with
          | false => exact hreleased later rfl hlater
          | true =>
              refine Program.Follows.step trivial ?_
              intro _ _
              exact hreleased later rfl hlater

theorem runCallback_settles (fuel : Nat) (token : TokenId) :
    Settles (runCallback fuel token) := by
  induction fuel generalizing token with
  | zero => exact fun view hview => ⟨rfl, hview⟩
  | succ fuel ih =>
      intro view hview
      have hrest : ∀ later : ObserverView, later.running = view.running →
          later.draining = false → Program.Follows observerDiscipline
            (runCallback fuel token) later
            (fun _ last => last.running = view.running ∧ last.draining = false) := by
        intro later hrunning hlater
        exact (ih token later hlater).mono (fun _ _ hlast =>
          ⟨hlast.1.trans hrunning, hlast.2⟩)
      refine Program.Follows.step trivial ?_
      intro (next : CallbackStep) _
      cases next with
      | finish threw => exact ⟨rfl, hview⟩
      | revoke other =>
          refine (revokeObserver_follows other view).andThen ?_
          rintro _ later ⟨hrunning, hdraining, -⟩
          exact hrest later hrunning (hdraining.trans hview)
      | revokeOf observerId =>
          refine (revokeObserversOf_follows observerId view).andThen ?_
          rintro _ later ⟨hrunning, hdraining, -⟩
          exact hrest later hrunning hdraining
      | drain =>
          refine (drainInactiveObservers_follows view).andThen ?_
          rintro _ later ⟨hrunning, hdraining, -⟩
          exact hrest later hrunning hdraining
      | dispatch events =>
          refine (dispatchEvents_settles ih events view hview).andThen ?_
          rintro _ later ⟨hrunning, hdraining⟩
          exact hrest later hrunning hdraining

/-- What a returned entry point has seen. -/
def ObserverDone.Seen (view : ObserverView) : ObserverDone → Prop
  | .revoked token => token ∈ view.gone
  | .drained => view.waited = true
  | _ => True

theorem observers_disciplined :
    observerSystem.Disciplined (fun done later => done.Seen later) where
  main := by
    intro entry
    cases entry with
    | dispatch fuel events =>
        refine (dispatchEvents_settles (runCallback_settles fuel) events .fresh rfl).andThen ?_
        intro _ _ _
        trivial
    | revoke token =>
        refine (revokeObserver_follows token .fresh).andThen ?_
        rintro _ later ⟨-, -, hgone⟩
        exact hgone
    | mark observerId => exact ⟨trivial, fun _ _ => trivial⟩
    | drain =>
        refine (drainInactiveObservers_follows .fresh).andThen ?_
        rintro _ later ⟨-, -, hwaited⟩
        exact hwaited
    | revokeOf observerId =>
        refine (revokeObserversOf_follows observerId .fresh).andThen ?_
        rintro _ later ⟨-, -, hwaited⟩
        exact hwaited
  idle := trivial
  answers := fun _ _ _ _ _ _ => trivial

/-! ## Revoked tokens -/

namespace Observers

variable {observers later : Observers} {token : TokenId}

def Revoked (observers : Observers) (token : TokenId) : Prop :=
  token < observers.nextObserverId ∧ observers.observerActive token = false

def Gone (observers : Observers) (token : TokenId) : Prop :=
  observers.Revoked token ∧ observers.leases token = 0

@[simp]
theorem records_update (other : TokenId) (record : Option ObserverRecord) :
    (observers.update token record).records other =
      if other = token then record else observers.records other := by
  simp [update, Function.update_apply]

@[simp]
theorem nextObserverId_update (record : Option ObserverRecord) :
    (observers.update token record).nextObserverId = observers.nextObserverId :=
  rfl

def Issued (observers : Observers) : Prop :=
  ∀ token, observers.nextObserverId ≤ token → observers.records token = none

/-- What every step keeps: no token is taken back, none is revived, and one that was
revoked gets no new lease. -/
structure Advances (observers later : Observers) : Prop where
  next : observers.nextObserverId ≤ later.nextObserverId
  issued : observers.Issued → later.Issued
  inactive : ∀ token < observers.nextObserverId, observers.observerActive token = false →
    later.observerActive token = false
  leases : ∀ token < observers.nextObserverId, observers.observerActive token = false →
    later.leases token ≤ observers.leases token

theorem Advances.revoked (hadvances : observers.Advances later)
    (hrevoked : observers.Revoked token) : later.Revoked token :=
  ⟨Nat.lt_of_lt_of_le hrevoked.1 hadvances.next,
    hadvances.inactive token hrevoked.1 hrevoked.2⟩

theorem Advances.gone (hadvances : observers.Advances later)
    (hgone : observers.Gone token) : later.Gone token := by
  obtain ⟨hrevoked, hleases⟩ := hgone
  refine ⟨hadvances.revoked hrevoked, ?_⟩
  have hle := hadvances.leases token hrevoked.1 hrevoked.2
  exact Nat.le_zero.mp (hleases ▸ hle)

theorem Advances.refl (observers : Observers) : observers.Advances observers :=
  ⟨Nat.le_refl _, id, fun _ _ h => h, fun _ _ _ => Nat.le_refl _⟩

/-- It is enough to look at what becomes of each record. -/
theorem advances_of_records (hnext : later.nextObserverId = observers.nextObserverId)
    (hrecords : ∀ token made, later.records token = some made →
      ∃ record, observers.records token = some record ∧
        (record.active = false → made.active = false ∧ made.inFlight ≤ record.inFlight)) :
    observers.Advances later := by
  refine ⟨Nat.le_of_eq hnext.symm, ?_, ?_, ?_⟩
  · intro hissued token hle
    by_contra hsome
    obtain ⟨made, hmade⟩ := Option.ne_none_iff_exists'.mp hsome
    obtain ⟨record, hrecord, -⟩ := hrecords token made hmade
    cases (hissued token (hnext ▸ hle)).symm.trans hrecord
  · intro token _ hinactive
    cases hmade : later.records token with
    | none => simp [observerActive, hmade]
    | some made =>
        obtain ⟨record, hrecord, hkept⟩ := hrecords token made hmade
        simp only [observerActive, hrecord, Option.any_some] at hinactive
        simpa [observerActive, hmade] using (hkept hinactive).1
  · intro token _ hinactive
    cases hmade : later.records token with
    | none => simp [leases, hmade]
    | some made =>
        obtain ⟨record, hrecord, hkept⟩ := hrecords token made hmade
        simp only [observerActive, hrecord, Option.any_some] at hinactive
        simpa [leases, hmade, hrecord] using (hkept hinactive).2

inductive Becomes (token : TokenId) (record : ObserverRecord) :
    ObserverAct → ObserverRecord → Prop where
  | same (act : ObserverAct) : Becomes token record act record
  | leased (hactive : record.active = true) : Becomes token record (.acquire token)
      { record with inFlight := record.inFlight + 1 }
  | returned : Becomes token record (.release token)
      { record with inFlight := record.inFlight - 1 }
  | marked : Becomes token record (.markInactive token) { record with active := false }
  | markedOf : Becomes token record (.markOf record.observerId)
      { record with active := false }

theorem becomes_update {act : ObserverAct} {record made : ObserverRecord}
    (hrecord : observers.records token = some record)
    (hmade : Becomes token record act made) {other : TokenId} {last : ObserverRecord}
    (hlast : (observers.update token (some made)).records other = some last) :
    ∃ before, observers.records other = some before ∧ Becomes other before act last := by
  by_cases heq : other = token
  · subst heq
    simp only [records_update, if_true] at hlast
    obtain rfl := Option.some.inj hlast
    exact ⟨record, hrecord, hmade⟩
  · simp only [records_update, heq, if_false] at hlast
    exact ⟨last, hlast, .same act⟩

/-- Every record after an action was there before it. -/
theorem records_perform {act : ObserverAct} {choice : CallbackStep} {answer : act.Answer}
    (hperform : observers.perform act choice = some (answer, later)) :
    later.nextObserverId = observers.nextObserverId ∧
      ∀ token made, later.records token = some made →
        ∃ record, observers.records token = some record ∧ Becomes token record act made := by
  have hsame : ∀ (last : Observers), last.nextObserverId = observers.nextObserverId →
      last.records = observers.records → last.nextObserverId = observers.nextObserverId ∧
        ∀ token made, last.records token = some made →
          ∃ record, observers.records token = some record ∧
            Becomes token record act made :=
    fun last hnext hrecords => ⟨hnext, fun token made hmade =>
      ⟨made, hrecords ▸ hmade, .same act⟩⟩
  have hfilter : ∀ keep : ObserverRecord → Bool, ∀ token made,
      (observers.records token).filter keep = some made →
        ∃ record, observers.records token = some record ∧ Becomes token record act made :=
    fun keep token made hmade =>
      ⟨made, (Option.filter_eq_some_iff.mp hmade).1, .same act⟩
  cases act with
  | acquire token =>
      cases hrecord : observers.records token with
      | none =>
          simp only [perform, acquire, hrecord] at hperform
          cases hperform
          exact hsame _ rfl rfl
      | some record =>
          simp only [perform, acquire, hrecord] at hperform
          split at hperform
          case isTrue hactive =>
            cases hperform
            exact ⟨rfl, fun _ _ => becomes_update hrecord (.leased hactive)⟩
          case isFalse =>
            cases hperform
            exact hsame _ rfl rfl
  | proceed token =>
      cases hperform
      exact hsame _ rfl rfl
  | recordFailure failure =>
      cases hperform
      rw [recordFailure]
      split
      · exact hsame _ rfl rfl
      · exact hsame _ rfl rfl
  | release token =>
      cases hrecord : observers.records token with
      | none =>
          simp only [perform, release, hrecord] at hperform
          cases hperform
          exact hsame _ rfl rfl
      | some record =>
          simp only [perform, release, hrecord] at hperform
          split at hperform
          case isTrue =>
            cases hperform
            exact ⟨rfl, fun _ _ => becomes_update hrecord .returned⟩
          case isFalse =>
            cases hperform
            exact hsame _ rfl rfl
  | markInactive token =>
      simp only [perform] at hperform
      split at hperform
      case isFalse => cases hperform
      case isTrue =>
        cases hrecord : observers.records token with
        | none =>
            simp only [markInactive, hrecord] at hperform
            cases hperform
            exact hsame _ rfl rfl
        | some record =>
            simp only [markInactive, hrecord] at hperform
            cases hperform
            exact ⟨rfl, fun _ _ => becomes_update hrecord .marked⟩
  | awaitGone token | awaitDrained =>
      simp only [perform] at hperform
      split at hperform
      case isTrue =>
        cases hperform
        exact hsame _ rfl rfl
      case isFalse => cases hperform
  | erase token =>
      cases hperform
      refine ⟨rfl, ?_⟩
      intro other made hmade
      by_cases heq : other = token
      · simp [heq] at hmade
      · simp only [records_update, heq, if_false] at hmade
        exact ⟨made, hmade, .same _⟩
  | markOf observerId =>
      cases hperform
      refine ⟨rfl, ?_⟩
      intro token made hmade
      obtain ⟨record, hrecord, rfl⟩ := Option.map_eq_some_iff.mp hmade
      refine ⟨record, hrecord, ?_⟩
      split
      case isTrue heq =>
        subst heq
        exact .markedOf
      case isFalse => exact .same _
  | eraseIdle =>
      cases hperform
      exact ⟨rfl, hfilter _⟩
  | eraseInactive =>
      cases hperform
      exact ⟨rfl, hfilter _⟩

theorem advances_perform {act : ObserverAct} {choice : CallbackStep} {answer : act.Answer}
    (hperform : observers.perform act choice = some (answer, later)) :
    observers.Advances later := by
  obtain ⟨hnext, hrecords⟩ := records_perform hperform
  refine advances_of_records hnext ?_
  intro token made hmade
  obtain ⟨record, hrecord, hbecomes⟩ := hrecords token made hmade
  refine ⟨record, hrecord, fun hinactive => ?_⟩
  cases hbecomes with
  | same => exact ⟨hinactive, Nat.le_refl _⟩
  | leased hactive => cases hactive.symm.trans hinactive
  | returned => exact ⟨hinactive, Nat.sub_le _ _⟩
  | marked => exact ⟨rfl, Nat.le_refl _⟩
  | markedOf => exact ⟨rfl, Nat.le_refl _⟩

/-- A registration adds an active record. -/
theorem records_observe {observerId targetId : ObjectId} {targetGeneration : Nat}
    {made : ObserverRecord}
    (hobserve : observers.observe observerId targetId targetGeneration = some later)
    (hmade : later.records token = some made) :
    made = ⟨observerId, targetId, targetGeneration, true, 0⟩ ∨
      observers.records token = some made := by
  simp only [observe] at hobserve
  split at hobserve
  case isTrue => cases hobserve
  case isFalse =>
    cases hobserve
    simp only [records_update] at hmade
    split at hmade
    case isTrue => exact Or.inl (Option.some.inj hmade).symm
    case isFalse => exact Or.inr hmade

/-- A registration takes the next token. -/
theorem advances_observe {observerId targetId : ObjectId} {targetGeneration : Nat}
    (hobserve : observers.observe observerId targetId targetGeneration = some later) :
    observers.Advances later := by
  simp only [observe] at hobserve
  split at hobserve
  case isTrue => cases hobserve
  case isFalse =>
    cases hobserve
    refine ⟨Nat.le_succ _, ?_, ?_, ?_⟩
    · intro hissued token hle
      simpa [Nat.ne_of_gt hle] using hissued token (Nat.le_of_succ_le hle)
    · intro token hlt hinactive
      simpa [observerActive, Nat.ne_of_lt hlt] using hinactive
    · intro token hlt _
      simp [leases, Nat.ne_of_lt hlt]

/-! ## Leases cover running callbacks -/

def Covers (observers : Observers) (views : Nat → ObserverView) : Prop :=
  ∀ token, Tallied (fun thread => (views thread).running.count token)
    (observers.leases token)

/-- The invariant of the records and of what the threads know of them. -/
structure Sound (observers : Observers) (views : Nat → ObserverView) : Prop where
  covers : observers.Covers views
  issued : observers.Issued
  revoked : ∀ thread, ∀ token ∈ (views thread).revoked, observers.Revoked token
  gone : ∀ thread, ∀ token ∈ (views thread).gone, observers.Gone token

variable {views : Nat → ObserverView}

/-- Nobody runs the callback of a token without leases. -/
theorem Covers.not_running (hcovers : observers.Covers views)
    (hleases : observers.leases token = 0) (thread : Nat) :
    token ∉ (views thread).running := by
  have htally := hcovers token
  rw [hleases] at htally
  exact List.count_eq_zero.mp (htally.eq_zero thread)

/-- The callback a thread runs has a lease. -/
theorem Covers.leased (hcovers : observers.Covers views) {thread : Nat}
    (hrunning : token ∈ (views thread).running) : 0 < observers.leases token := by
  by_contra hnone
  exact hcovers.not_running (Nat.eq_zero_of_not_pos hnone) thread hrunning

/-- A step that changes no lease and starts and ends no callback. -/
theorem Covers.same (hcovers : observers.Covers views) {thread : Nat} {view : ObserverView}
    (hleases : ∀ token, later.leases token = observers.leases token)
    (hrunning : view.running = (views thread).running) :
    later.Covers (Function.update views thread view) := by
  intro token
  rw [hleases]
  refine (hcovers token).congr ?_
  intro other
  by_cases heq : other = thread
  · subst heq
    rw [Function.update_self, hrunning]
  · rw [Function.update_of_ne heq]

theorem leases_update (record : Option ObserverRecord) (other : TokenId) :
    (observers.update token record).leases other =
      if other = token then record.elim 0 ObserverRecord.inFlight
      else observers.leases other := by
  rw [leases, records_update]
  split
  · rfl
  · rfl

/-- A lease is taken. -/
theorem Covers.acquire (hcovers : observers.Covers views) {thread : Nat}
    {record : ObserverRecord} (hrecord : observers.records token = some record) :
    (observers.update token (some { record with inFlight := record.inFlight + 1 })).Covers
      (Function.update views thread
        { views thread with running := token :: (views thread).running }) := by
  intro other
  by_cases heq : other = token
  · subst heq
    have hraised := (hcovers other).raise thread
    rw [leases_update, if_pos rfl]
    rw [leases, hrecord] at hraised
    refine hraised.congr ?_
    intro index
    by_cases hindex : index = thread
    · subst hindex
      simp
    · simp [Function.update_of_ne hindex]
  · rw [leases_update, if_neg heq]
    refine (hcovers other).congr ?_
    intro index
    by_cases hindex : index = thread
    · subst hindex
      simp [Ne.symm heq]
    · simp [Function.update_of_ne hindex]

/-- The lease of the innermost callback is given back. -/
theorem Covers.release (hcovers : observers.Covers views) {thread : Nat}
    {rest : List TokenId} (hrunning : (views thread).running = token :: rest) :
    (observers.release token).Covers (Function.update views thread
      { views thread with running := (views thread).running.tail }) := by
  have hleased : 0 < observers.leases token :=
    hcovers.leased (hrunning ▸ List.mem_cons_self)
  have hreleased : ∀ other, (observers.release token).leases other =
      if other = token then observers.leases token - 1 else observers.leases other := by
    intro other
    cases hrecord : observers.records token with
    | none =>
        rw [leases, hrecord] at hleased
        exact absurd hleased (Nat.lt_irrefl 0)
    | some record =>
        have hinFlight : 0 < record.inFlight := by
          simpa [leases, hrecord] using hleased
        rw [Observers.release, hrecord]
        simp only [hinFlight, if_true]
        rw [leases_update]
        split
        · simp [leases, hrecord]
        · rfl
  intro other
  rw [hreleased]
  by_cases heq : other = token
  · subst heq
    rw [if_pos rfl]
    have hcount : (views thread).running.count other = rest.count other + 1 := by
      rw [hrunning, List.count_cons_self]
    refine ((hcovers other).lower hcount).congr ?_
    intro index
    by_cases hindex : index = thread
    · subst hindex
      simp [hrunning]
    · simp [Function.update_of_ne hindex]
  · rw [if_neg heq]
    refine (hcovers other).congr ?_
    intro index
    by_cases hindex : index = thread
    · subst hindex
      simp [hrunning, Ne.symm heq]
    · simp [Function.update_of_ne hindex]

theorem leases_filter {keep : ObserverRecord → Bool} {token : TokenId}
    (hidle : ∀ record ∈ observers.records token, keep record = false → record.inFlight = 0) :
    Observers.leases { observers with
      records := fun token => (observers.records token).filter keep } token =
        observers.leases token := by
  simp only [leases]
  cases hrecord : observers.records token with
  | none => rfl
  | some record =>
      cases hkeep : keep record with
      | true => simp [Option.filter, hkeep]
      | false => simp [Option.filter, hkeep, hidle record hrecord hkeep]

/-- Only a dispatch takes and gives back leases; the others erase records without leases, if a
last pass of a drain finds none with leases. -/
theorem leases_perform {act : ObserverAct} {choice : CallbackStep} {answer : act.Answer}
    (hperform : observers.perform act choice = some (answer, later))
    (hissued : observers.Issued) (hacquire : ∀ token, act ≠ .acquire token)
    (hrelease : ∀ token, act ≠ .release token)
    (herase : ∀ token, act = .erase token → observers.leases token = 0)
    (hlast : act = .eraseInactive → observers.Drained) (token : TokenId) :
    later.leases token = observers.leases token := by
  have hlt : ∀ token, ∀ record ∈ observers.records token,
      token < observers.nextObserverId := by
    intro token record hrecord
    by_contra hge
    cases (hissued token (Nat.le_of_not_lt hge)).symm.trans hrecord
  cases act with
  | acquire other => exact absurd rfl (hacquire other)
  | release other => exact absurd rfl (hrelease other)
  | proceed other =>
      cases hperform
      rfl
  | recordFailure failure =>
      cases hperform
      rw [recordFailure]
      split
      · rfl
      · rfl
  | markInactive other =>
      simp only [Observers.perform] at hperform
      split at hperform
      case isFalse => cases hperform
      case isTrue =>
        cases hrecord : observers.records other with
        | none =>
            simp only [Observers.markInactive, hrecord] at hperform
            cases hperform
            rfl
        | some record =>
            simp only [Observers.markInactive, hrecord] at hperform
            cases hperform
            rw [leases_update]
            split
            case isTrue heq => simp [leases, heq, hrecord]
            case isFalse => rfl
  | awaitGone other | awaitDrained =>
      simp only [Observers.perform] at hperform
      split at hperform
      case isTrue =>
        cases hperform
        rfl
      case isFalse => cases hperform
  | erase other =>
      cases hperform
      rw [leases_update]
      split
      case isTrue heq =>
        rw [heq, herase other rfl]
        rfl
      case isFalse => rfl
  | markOf observerId =>
      cases hperform
      simp only [leases, revokeObserversOfLocked]
      cases observers.records token with
      | none => rfl
      | some record =>
          simp only [Option.map_some, Option.elim_some]
          split
          · rfl
          · rfl
  | eraseIdle =>
      cases hperform
      refine leases_filter ?_
      intro record _ hdropped
      simpa using (Bool.or_eq_false_iff.mp hdropped).2
  | eraseInactive =>
      cases hperform
      refine leases_filter ?_
      intro record hrecord hdropped
      exact hlast rfl token (hlt token record hrecord) record hrecord hdropped

/-- An action that is allowed keeps the leases covered, if a last pass of a drain
finds no record with leases. -/
theorem Sound.covers_perform (hsound : observers.Sound views) {thread : Nat}
    {act : ObserverAct} {choice : CallbackStep} {answer : act.Answer}
    (hallows : (views thread).allows act)
    (hlast : act = .eraseInactive → observers.Drained)
    (hperform : observers.perform act choice = some (answer, later)) :
    later.Covers (Function.update views thread ((views thread).after act answer)) := by
  have hcovers := hsound.covers
  have herase : ∀ token, act = .erase token → observers.leases token = 0 := by
    rintro token rfl
    exact (hsound.gone thread token hallows).2
  cases act with
  | acquire token =>
      cases hrecord : observers.records token with
      | none =>
          simp only [Observers.perform, Observers.acquire, hrecord] at hperform
          cases hperform
          exact hcovers.same (fun _ => rfl) rfl
      | some record =>
          simp only [Observers.perform, Observers.acquire, hrecord] at hperform
          split at hperform
          case isTrue =>
            cases hperform
            exact hcovers.acquire hrecord
          case isFalse =>
            cases hperform
            exact hcovers.same (fun _ => rfl) rfl
  | release token =>
      cases hperform
      obtain ⟨rest, hrunning⟩ := hallows
      exact hcovers.release hrunning
  | _ =>
      exact hcovers.same
        (leases_perform hperform hsound.issued (by simp) (by simp) herase hlast) rfl

/-- What a drain has waited for. -/
theorem Drained.gone (hdrained : observers.Drained) (hrevoked : observers.Revoked token) :
    observers.Gone token := by
  refine ⟨hrevoked, ?_⟩
  rw [leases]
  cases hrecord : observers.records token with
  | none => rfl
  | some record =>
      have hinactive := hrevoked.2
      simp only [observerActive, hrecord, Option.any_some] at hinactive
      exact hdrained token hrevoked.1 record hrecord hinactive

/-- An allowed action keeps what the acting thread knows of the tokens. -/
theorem knows_perform {view : ObserverView} {act : ObserverAct} {choice : CallbackStep}
    {answer : act.Answer} (hbefore : ∀ token ∈ view.revoked, observers.Revoked token)
    (hgoneBefore : ∀ token ∈ view.gone, observers.Gone token) (hallows : view.allows act)
    (hperform : observers.perform act choice = some (answer, later)) :
    (∀ token ∈ (view.after act answer).revoked, later.Revoked token) ∧
      ∀ token ∈ (view.after act answer).gone, later.Gone token := by
  have hadvances := advances_perform hperform
  have hrevoked : ∀ token ∈ view.revoked, later.Revoked token :=
    fun token hmem => hadvances.revoked (hbefore token hmem)
  have hgone : ∀ token ∈ view.gone, later.Gone token :=
    fun token hmem => hadvances.gone (hgoneBefore token hmem)
  cases act with
  | acquire token =>
      change Bool at answer
      cases answer with
      | false => exact ⟨hrevoked, hgone⟩
      | true => exact ⟨hrevoked, hgone⟩
  | markInactive token =>
      simp only [Observers.perform] at hperform
      split at hperform
      case isFalse => cases hperform
      case isTrue hlt =>
        cases hrecord : observers.records token with
        | none =>
            simp only [Observers.markInactive, hrecord] at hperform
            cases hperform
            have hmissing : observers.Gone token :=
              ⟨⟨hlt, by simp [observerActive, hrecord]⟩, by simp [leases, hrecord]⟩
            exact ⟨List.forall_mem_cons.mpr ⟨hmissing.1, hrevoked⟩,
              List.forall_mem_cons.mpr ⟨hmissing, hgone⟩⟩
        | some record =>
            simp only [Observers.markInactive, hrecord] at hperform
            cases hperform
            refine ⟨List.forall_mem_cons.mpr ⟨⟨hlt, ?_⟩, hrevoked⟩, hgone⟩
            simp [observerActive]
  | awaitGone token =>
      simp only [Observers.perform] at hperform
      split at hperform
      case isTrue hleases =>
        cases hperform
        refine ⟨hrevoked, List.forall_mem_cons.mpr ⟨⟨?_, hleases⟩, hgone⟩⟩
        exact hbefore token hallows.1
      case isFalse => cases hperform
  | _ => exact ⟨hrevoked, hgone⟩

theorem Sound.perform (hsound : observers.Sound views) {thread : Nat}
    {act : ObserverAct} {choice : CallbackStep} {answer : act.Answer}
    (hallows : (views thread).allows act)
    (hlast : act = .eraseInactive → observers.Drained)
    (hperform : observers.perform act choice = some (answer, later)) :
    later.Sound (Function.update views thread ((views thread).after act answer)) := by
  have hadvances := advances_perform hperform
  obtain ⟨hrevoked, hgone⟩ :=
    knows_perform (hsound.revoked thread) (hsound.gone thread) hallows hperform
  constructor
  case covers => exact hsound.covers_perform hallows hlast hperform
  case issued => exact hadvances.issued hsound.issued
  case revoked =>
    intro other token hmem
    by_cases heq : other = thread
    · subst heq
      rw [Function.update_self] at hmem
      exact hrevoked token hmem
    · rw [Function.update_of_ne heq] at hmem
      exact hadvances.revoked (hsound.revoked other token hmem)
  case gone =>
    intro other token hmem
    by_cases heq : other = thread
    · subst heq
      rw [Function.update_self] at hmem
      exact hgone token hmem
    · rw [Function.update_of_ne heq] at hmem
      exact hadvances.gone (hsound.gone other token hmem)

theorem leases_observe {observerId targetId : ObjectId} {targetGeneration : Nat}
    (hissued : observers.Issued)
    (hobserve : observers.observe observerId targetId targetGeneration = some later)
    (token : TokenId) : later.leases token = observers.leases token := by
  simp only [observe] at hobserve
  split at hobserve
  case isTrue => cases hobserve
  case isFalse =>
    cases hobserve
    by_cases heq : token = observers.nextObserverId
    · simp [leases, heq, hissued _ (Nat.le_refl _)]
    · simp [leases, heq]

end Observers

theorem ObserverView.waited_after {view : ObserverView} {act : ObserverAct}
    (hact : act ≠ .awaitDrained) (answer : act.Answer) :
    (view.after act answer).waited = view.waited := by
  cases act with
  | acquire token =>
      change Bool at answer
      cases answer with
      | false => rfl
      | true => rfl
  | awaitDrained => exact absurd rfl hact
  | _ => rfl

/-! ## Every run -/

/-- When a drain comes to its last pass, no inactive record has a lease. -/
def LastPassIdle (pool : ObserverPool) (label : ObserverStep) : Prop :=
  pool.asked label = some .eraseInactive → pool.shared.Drained

instance (pool : ObserverPool) (label : ObserverStep) : Decidable (LastPassIdle pool label) :=
  inferInstanceAs (Decidable (_ → _))

theorem asked_of_acts {guard : ObserverPool → ObserverStep → Prop} {pool : ObserverPool}
    {thread : Nat} {choice : CallbackStep} {act : ObserverAct} {answer : act.Answer}
    {observers : Observers}
    (hacts : observerSystem.Acts guard pool thread choice act answer observers) :
    pool.asked (.step thread choice : ObserverStep) = some act := by
  obtain ⟨rest, hrest⟩ := hacts.asked
  simp [Pool.asked, hrest, Program.asks]

theorem sound_of_reachable {pool : ObserverPool}
    (hreach : observerSystem.machine.ReachableWhere LastPassIdle pool) :
    pool.shared.Sound pool.views := by
  refine observers_disciplined.invariant
    (motive := fun observers views => observers.Sound views) ?_ ?_ ?_ hreach
  · rintro observers ⟨maxObservers, maxObjects, rfl⟩
    constructor
    case covers => exact fun _ => Tallied.zero (fun _ => rfl)
    case issued => exact fun _ _ => rfl
    case revoked => exact fun _ _ => nofun
    case gone => exact fun _ _ => nofun
  · intro pool thread choice act answer observers hacts hsound
    refine hsound.perform hacts.allowed ?_ hacts.performed
    rintro rfl
    exact hacts.guarded (asked_of_acts hacts)
  · rintro pool ⟨observerId, targetId, targetGeneration⟩ observers - - henv hsound
    have hadvances := Observers.advances_observe henv
    constructor
    case covers =>
      intro token
      rw [Observers.leases_observe hsound.issued henv]
      exact hsound.covers token
    case issued => exact hadvances.issued hsound.issued
    case revoked =>
      exact fun thread token hmem => hadvances.revoked (hsound.revoked thread token hmem)
    case gone =>
      exact fun thread token hmem => hadvances.gone (hsound.gone thread token hmem)

/-- A step keeps what is known of a revoked token. -/
theorem advances_of_next {pool last : ObserverPool} {label : ObserverStep}
    (hnext : observerSystem.next pool label = some last) :
    pool.shared.Advances last.shared := by
  cases label with
  | spawn entry =>
      cases hnext
      exact .refl _
  | step actor choice =>
      obtain ⟨-, act, rest, answer, observers, -, hperform, rfl⟩ := System.next_step hnext
      exact Observers.advances_perform hperform
  | env event =>
      obtain ⟨observers, henv, rfl⟩ := Option.map_eq_some_iff.mp hnext
      exact Observers.advances_observe henv

/-- In every run whose drains come to their last pass with no leased inactive record:
once `RevokeObserver` of a token has returned, or a drain that was started after the
token was revoked, the callback of the token runs nowhere. -/
theorem revocation_barrier {pool : ObserverPool}
    (hreach : observerSystem.machine.ReachableWhere LastPassIdle pool) :
    (∀ thread token, (pool.threads thread).returned = some (.revoked token) →
      ∀ other, token ∉ (pool.views other).running) ∧
    ∀ token first labels last, pool.shared.Revoked token →
      observerSystem.next pool (.spawn .drain) = some first →
      observerSystem.machine.Run LastPassIdle first labels last →
      (last.threads pool.count).returned = some .drained →
      ∀ other, token ∉ (last.views other).running := by
  constructor
  · intro thread token hreturned other
    have hsound := sound_of_reachable hreach
    have hgone := hsound.gone thread token (observers_disciplined.returned hreach hreturned)
    exact hsound.covers.not_running hgone.2 other
  · intro token first labels last hrevoked hspawn hrun
    have hfirst : observerSystem.machine.ReachableWhere LastPassIdle first :=
      hreach.step (show LastPassIdle pool (.spawn .drain) from nofun) hspawn
    have hstart : first.shared.Revoked token ∧
        ((first.views pool.count).waited = true → first.shared.Gone token) := by
      cases hspawn
      refine ⟨hrevoked, ?_⟩
      dsimp only
      rw [System.views_of_ge hreach pool.count (Nat.le_refl _)]
      nofun
    have hlast : observerSystem.machine.ReachableWhere LastPassIdle last ∧
        last.shared.Revoked token ∧
        ((last.views pool.count).waited = true → last.shared.Gone token) := by
      induction hrun with
      | refl => exact ⟨hfirst, hstart⟩
      | @tail _ middle final label _ hguard hnext ih =>
          obtain ⟨hmiddle, hkept, hwaited⟩ := ih
          have hadvances := advances_of_next hnext
          refine ⟨hmiddle.step hguard hnext, hadvances.revoked hkept, ?_⟩
          intro hlater
          obtain hsame | ⟨choice, act, answer, hacts, hview⟩ :=
            observers_disciplined.view_step hmiddle hguard hnext pool.count
          · exact hadvances.gone (hwaited (hsame ▸ hlater))
          by_cases hact : act = .awaitDrained
          · subst hact
            have hperform := hacts.performed
            simp only [observerSystem, Observers.perform] at hperform
            split at hperform
            case isTrue hdrained =>
              obtain ⟨-, hsame⟩ := Prod.mk.inj (Option.some.inj hperform)
              exact hsame ▸ hdrained.gone hkept
            case isFalse => cases hperform
          · have hsame : (final.views pool.count).waited = (middle.views pool.count).waited :=
              hview ▸ ObserverView.waited_after hact answer
            exact hadvances.gone (hwaited (hsame ▸ hlater))
    intro hreturned other
    have hwaited : (last.views pool.count).waited = true :=
      observers_disciplined.returned hlast.1 hreturned
    exact (sound_of_reachable hlast.1).covers.not_running (hlast.2.2 hwaited).2 other

def observed : ObserverStep :=
  .env (.observe ⟨.component, 1⟩ ⟨.service, 2⟩ 3)

def pendingEvent : PendingEvent :=
  ⟨1, ⟨.service, 2⟩, 3⟩

/-- A token is revoked, and that call has returned; the callback of another revoked token is
still running when a drain is started, and throws before the drain returns. -/
theorem revocation_barrier_quiet :
    ∃ pool first last : ObserverPool, ∃ labels,
      observerSystem.machine.ReachableWhere LastPassIdle pool ∧
      (pool.threads 1).returned = some (.revoked 1) ∧
      (∀ other, (1 : TokenId) ∉ (pool.views other).running) ∧
      pool.shared.Revoked 2 ∧ (2 : TokenId) ∈ (pool.views 2).running ∧
      observerSystem.next pool (.spawn .drain) = some first ∧
      observerSystem.machine.Run LastPassIdle first labels last ∧
      (last.threads 4).returned = some .drained ∧
      ∀ other, (2 : TokenId) ∉ (last.views other).running := by
  have hboot : observerSystem.machine.ReachableWhere LastPassIdle
      (observerSystem.boot (.fresh 10 10)) := .start ⟨_, ⟨10, 10, rfl⟩, rfl⟩
  obtain ⟨pool, last, hreach, hrun, htest⟩ := hboot.exec_both
    (fun pool label => decide (LastPassIdle pool label)) (fun _ _ => of_decide_eq_true)
    [observed, observed, .spawn (.dispatch 1 [pendingEvent]), .spawn (.revoke 1),
      .spawn (.dispatch 1 [{ pendingEvent with token := 2 }]), .spawn (.revoke 2),
      .step 0 (.finish false), .step 1 (.finish false), .step 0 (.finish true),
      .step 0 (.finish false), .step 0 (.finish false), .step 1 (.finish false),
      .step 1 (.finish false), .step 2 (.finish false), .step 3 (.finish false)]
    [.spawn .drain, .step 4 (.finish false), .step 2 (.finish true), .step 2 (.finish false),
      .step 2 (.finish false), .step 4 (.finish false), .step 4 (.finish false)]
    (fun pool last => pool.count = 4 ∧ (pool.threads 1).returned = some (.revoked 1) ∧
      (2 < pool.shared.nextObserverId ∧ pool.shared.observerActive 2 = false) ∧
      (2 : TokenId) ∈ (pool.views 2).running ∧
      (last.threads 4).returned = some .drained) (by decide)
  obtain ⟨hcount, hreturned, hrevoked, hrunning, hdrained⟩ := of_decide_eq_true htest
  obtain ⟨first, -, hspawn, hrest⟩ := hrun.uncons
  refine ⟨pool, first, last, _, hreach, hreturned,
    (revocation_barrier hreach).1 1 1 hreturned, hrevoked, hrunning, hspawn, hrest, hdrained, ?_⟩
  exact (revocation_barrier hreach).2 2 first _ last hrevoked hspawn hrest
    (hcount.symm ▸ hdrained)

/-- A drain has waited; a token is leased, then revoked, and the last pass of the
drain erases its record. -/
theorem revocation_passes :
    ¬∀ pool : ObserverPool, observerSystem.machine.Reachable pool →
      ∀ thread token, (pool.threads thread).returned = some (.revoked token) →
        ∀ other, token ∉ (pool.views other).running := by
  intro hclaim
  have hboot : observerSystem.machine.Reachable (observerSystem.boot (.fresh 10 10)) :=
    .start ⟨_, ⟨10, 10, rfl⟩, rfl⟩
  obtain ⟨pool, hreach, htest⟩ := hboot.exec_any (fun _ _ => true) (fun _ _ _ => trivial)
    [observed, .spawn .drain, .spawn (.dispatch 1 [pendingEvent]), .spawn (.revoke 1),
      .step 0 .drain, .step 0 .drain, .step 1 .drain, .step 2 .drain, .step 0 .drain,
      .step 2 .drain, .step 2 .drain]
    (fun pool => (pool.threads 2).returned = some (.revoked 1) ∧
      (1 : TokenId) ∈ (pool.views 1).running) (by decide)
  obtain ⟨hreturned, hrunning⟩ := of_decide_eq_true htest
  exact hclaim pool hreach 2 1 hreturned 1 hrunning

end BbtFramework.Observe
