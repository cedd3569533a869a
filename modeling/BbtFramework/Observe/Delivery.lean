import BbtFramework.Observe.DeliveryHistory

/-!
# State changes reach their observers

What is kept is a law of conservation.  Every event copied for an observer is still to be
dispatched, has been passed to its callback, or was skipped because the observer had been
revoked.
-/

namespace BbtFramework.Observe

open BbtFramework.App
open BbtFramework.Library

section

variable [Infra] {world after : DeliveryWorld}

def Registration.concerns (registration : Registration) (event : StateEvent) : Bool :=
  event.id == registration.targetId && event.generation == registration.targetGeneration

def Hears (changes : List StateChange) (token : TokenId) (active : Bool) :
    Option Registration → Prop
  | none => ∀ change ∈ changes, token ∉ change.audience
  | some registration =>
      registration.since ≤ changes.length ∧
        (∀ change ∈ changes.take registration.since, token ∉ change.audience) ∧
        ∀ change ∈ changes.drop registration.since,
          (token ∈ change.audience → registration.concerns change.event = true) ∧
            (active = true → registration.concerns change.event = true →
              token ∈ change.audience)

omit [Infra] in
theorem Hears.mono {changes : List StateChange} {token : TokenId} {active still : Bool}
    {registration : Option Registration} (hhears : Hears changes token active registration)
    (hactive : still = true → active = true) : Hears changes token still registration := by
  cases registration with
  | none => exact hhears
  | some registration =>
      refine ⟨hhears.1, hhears.2.1, ?_⟩
      intro change hchange
      obtain ⟨htold, hall⟩ := hhears.2.2 change hchange
      exact ⟨htold, fun hstill => hall (hactive hstill)⟩

omit [Infra] in
theorem Hears.concat {changes : List StateChange} {token : TokenId} {active : Bool}
    {registration : Option Registration} {change : StateChange}
    (hhears : Hears changes token active registration)
    (haudience : token ∈ change.audience ↔ active = true ∧
      ∃ made ∈ registration, made.concerns change.event = true) :
    Hears (changes ++ [change]) token active registration := by
  cases registration with
  | none =>
      intro other hother
      rcases List.mem_append.mp hother with hold | hnew
      · exact hhears other hold
      · obtain rfl := List.mem_singleton.mp hnew
        rw [haudience]
        rintro ⟨-, made, hmade, -⟩
        cases hmade
  | some registration =>
      obtain ⟨hlength, hbefore, hsince⟩ := hhears
      refine ⟨?_, ?_, ?_⟩
      · rw [List.length_append]
        exact Nat.le_add_right_of_le hlength
      · rw [List.take_append_of_le_length hlength]
        exact hbefore
      · rw [List.drop_append_of_le_length hlength]
        intro other hother
        rcases List.mem_append.mp hother with hold | hnew
        · exact hsince other hold
        · obtain rfl := List.mem_singleton.mp hnew
          simp only [Option.mem_def, Option.some.injEq, exists_eq_left'] at haudience
          exact ⟨fun htold => (haudience.mp htold).2,
            fun hactive hconcerns => haudience.mpr ⟨hactive, hconcerns⟩⟩

structure Audiences (world : DeliveryWorld) : Prop where
  issued : world.observers.Issued
  recorded : ∀ token record, world.observers.records token = some record →
    ∃ registration, world.registrations token = some registration ∧
      registration.targetId = record.targetId ∧
      registration.targetGeneration = record.targetGeneration
  unissued : ∀ token, world.observers.nextObserverId ≤ token →
    world.registrations token = none
  hears : ∀ token, Hears world.changes token (world.observers.observerActive token)
    (world.registrations token)
  nodup : ∀ change ∈ world.changes, change.audience.Nodup

omit [Infra] in
theorem Audiences.mem_audience (haudiences : Audiences world) {token : TokenId}
    (event : StateEvent) :
    token ∈ DeliveryWorld.audience world.observers event.id event.generation ↔
      world.observers.observerActive token = true ∧
        ∃ made ∈ world.registrations token, made.concerns event = true := by
  rw [DeliveryWorld.audience, List.mem_filter, List.mem_range]
  cases hrecord : world.observers.records token with
  | none => simp [Observers.observerActive, hrecord]
  | some record =>
      obtain ⟨registration, hregistration, hid, hgeneration⟩ :=
        haudiences.recorded token record hrecord
      have hlt : token < world.observers.nextObserverId := by
        by_contra hle
        cases (haudiences.issued token (Nat.le_of_not_lt hle)).symm.trans hrecord
      simp only [hlt, true_and, Option.any_some, Observers.observerActive, hrecord,
        hregistration, Option.mem_def, Option.some.injEq, exists_eq_left',
        Registration.concerns, hid, hgeneration, Bool.and_eq_true, beq_iff_eq, and_assoc]
      rw [eq_comm (a := record.targetId), eq_comm (a := record.targetGeneration)]

omit [Infra] in
theorem Audiences.publish (haudiences : Audiences world) (id : ObjectId)
    (changed : ObservedEntry) (kept : Option ObservedEntry) :
    Audiences (world.publish id changed kept) := by
  refine ⟨haudiences.issued, haudiences.recorded, haudiences.unissued, ?_, ?_⟩
  · intro token
    exact (haudiences.hears token).concat (haudiences.mem_audience (changed.event id))
  · intro change hchange
    rcases List.mem_append.mp hchange with hold | hnew
    · exact haudiences.nodup change hold
    · obtain rfl := List.mem_singleton.mp hnew
      exact List.nodup_range.filter _

omit [Infra] in
theorem nextObserverId_observe {observers made : Observers} {observerId targetId : ObjectId}
    {generation : Nat}
    (hobserve : observers.observe observerId targetId generation = some made) :
    made.nextObserverId = observers.nextObserverId + 1 := by
  simp only [Observers.observe] at hobserve
  split at hobserve
  case isTrue => cases hobserve
  case isFalse =>
    cases hobserve
    rfl

omit [Infra] in
theorem registrations_enlist (target : ObjectHandle) (observers : Observers)
    (token : TokenId) :
    (world.enlist target observers).registrations token =
      if token = world.observers.nextObserverId then
        some ⟨target.id, target.generation, world.changes.length⟩
      else world.registrations token := by
  simp [DeliveryWorld.enlist, Function.update_apply]

omit [Infra] in
theorem Audiences.enlist (haudiences : Audiences world) {observer target : ObjectHandle}
    {observers : Observers}
    (hobserve : world.observers.observe observer.id target.id target.generation =
      some observers) :
    Audiences (world.enlist target observers) := by
  have hrecords := Watched.records_of_observe hobserve
  have hnext := nextObserverId_observe hobserve
  refine ⟨(Observers.advances_observe hobserve).issued haudiences.issued, ?_, ?_, ?_,
    haudiences.nodup⟩
  · intro token record hrecord
    change observers.records token = some record at hrecord
    rw [hrecords] at hrecord
    rw [registrations_enlist]
    split at hrecord
    case isTrue heq =>
      obtain rfl := Option.some.inj hrecord
      exact ⟨_, if_pos heq, rfl, rfl⟩
    case isFalse hne =>
      rw [if_neg hne]
      exact haudiences.recorded token record hrecord
  · intro token hle
    change observers.nextObserverId ≤ token at hle
    rw [hnext] at hle
    rw [registrations_enlist, if_neg (Nat.ne_of_gt hle)]
    exact haudiences.unissued token (Nat.le_of_succ_le hle)
  · intro token
    have hold := haudiences.hears token
    rw [registrations_enlist]
    split
    case isTrue heq =>
      subst heq
      rw [haudiences.unissued _ (Nat.le_refl _)] at hold
      refine ⟨Nat.le_refl _, ?_, ?_⟩
      · intro change hchange
        exact hold change (List.mem_of_mem_take hchange)
      · intro change hchange
        exact absurd (List.drop_length (l := world.changes) ▸ hchange) List.not_mem_nil
    case isFalse hne =>
      refine hold.mono ?_
      change observers.observerActive token = true → _
      rw [Observers.observerActive, hrecords, if_neg hne]
      exact id

omit [Infra] in
theorem Audiences.performs (haudiences : Audiences world) {observers : Observers}
    {act : ObserverAct} {answer : act.Answer}
    (hperform : world.observers.perform act (.finish false) = some (answer, observers))
    (hobservers : after.observers = observers) (hchanges : after.changes = world.changes)
    (hregistrations : after.registrations = world.registrations) : Audiences after := by
  obtain ⟨hnext, hrecords⟩ := Observers.records_perform hperform
  refine ⟨?_, ?_, ?_, ?_, hchanges ▸ haudiences.nodup⟩
  · rw [hobservers]
    exact (Observers.advances_perform hperform).issued haudiences.issued
  · rw [hobservers, hregistrations]
    intro token made hmade
    obtain ⟨record, hrecord, hbecomes⟩ := hrecords token made hmade
    obtain ⟨registration, hregistration, hid, hgeneration⟩ :=
      haudiences.recorded token record hrecord
    refine ⟨registration, hregistration, ?_⟩
    cases hbecomes <;> exact ⟨hid, hgeneration⟩
  · rw [hobservers, hregistrations, hnext]
    exact haudiences.unissued
  · intro token
    rw [hobservers, hregistrations, hchanges]
    refine (haudiences.hears token).mono ?_
    intro hactive
    by_contra hinactive
    by_cases hlt : token < world.observers.nextObserverId
    · have hstays := (Observers.advances_perform hperform).inactive token hlt
        (Bool.eq_false_iff.mpr hinactive)
      exact Bool.false_ne_true (hstays.symm.trans hactive)
    · have hnone := (Observers.advances_perform hperform).issued haudiences.issued token
        (hnext ▸ Nat.le_of_not_lt hlt)
      rw [Observers.observerActive, hnone] at hactive
      cases hactive

omit [Infra] in
theorem Audiences.step (haudiences : Audiences world) (hcase : DeliveryCase world after) :
    Audiences after := by
  cases hcase with
  | same => exact haudiences
  | created =>
      exact ⟨haudiences.issued, haudiences.recorded, haudiences.unissued, haudiences.hears,
        haudiences.nodup⟩
  | @published id _ changed kept => exact haudiences.publish id changed kept
  | observed hobserve => exact haudiences.enlist hobserve
  | performed act hperforms =>
      obtain ⟨answer, hperform⟩ := hperforms.observers
      exact haudiences.performs hperform rfl hperforms.changes hperforms.registrations
  | @leased thread intent rest =>
      have hperform : world.observers.perform (.acquire intent.token) (.finish false) =
          some (world.observers.acquire intent.token) := rfl
      unfold DeliveryWorld.lease
      split
      case h_1 observers hacquire =>
        rw [hacquire] at hperform
        exact haudiences.performs hperform rfl rfl rfl
      case h_2 =>
        exact ⟨haudiences.issued, haudiences.recorded, haudiences.unissued, haudiences.hears,
        haudiences.nodup⟩

/-- The events copied for observers so far. -/
def DeliveryWorld.intents (world : DeliveryWorld) : List Intent :=
  world.changes.flatMap StateChange.intents

structure Ledger (world : DeliveryWorld) : Prop where
  balance : (world.calls ++ (world.skipped ++ held ObserverPc.pending world.threads)).Perm
    world.intents
  skipped : ∀ intent ∈ world.skipped, world.observers.Revoked intent.token

omit [Infra] in
/-- The tokens of events were handed out. -/
theorem issued_of_intents (haudiences : Audiences world) {intent : Intent}
    (hintent : intent ∈ world.intents) :
    intent.token < world.observers.nextObserverId := by
  obtain ⟨change, hchange, hmem⟩ := List.mem_flatMap.mp hintent
  obtain ⟨token, htoken, rfl⟩ := List.mem_map.mp hmem
  by_contra hle
  have hhears := haudiences.hears token
  rw [haudiences.unissued token (Nat.le_of_not_lt hle)] at hhears
  exact hhears change hchange htoken

omit [Infra] in
theorem acquire_refused {observers later : Observers} {token : TokenId}
    (hacquire : observers.acquire token = (false, later)) :
    observers.observerActive token = false := by
  cases hrecord : observers.records token with
  | none => simp [Observers.observerActive, hrecord]
  | some record =>
      simp only [Observers.acquire, hrecord] at hacquire
      split at hacquire
      case isTrue => cases hacquire
      case isFalse hinactive => simp [Observers.observerActive, hrecord, hinactive]

omit [Infra] in
theorem acquire_granted {observers later : Observers} {token : TokenId}
    (hacquire : observers.acquire token = (true, later)) :
    observers.observerActive token = true := by
  cases hrecord : observers.records token with
  | none => simp [Observers.acquire, hrecord] at hacquire
  | some record =>
      simp only [Observers.acquire, hrecord] at hacquire
      split at hacquire
      case isTrue hactive => simp [Observers.observerActive, hrecord, hactive]
      case isFalse => cases hacquire

omit [Infra] in
theorem Ledger.publish (hledger : Ledger world) (id : ObjectId) (changed : ObservedEntry)
    (kept : Option ObservedEntry) : Ledger (world.publish id changed kept) := by
  refine ⟨?_, hledger.skipped⟩
  simp only [DeliveryWorld.publish, DeliveryWorld.intents, held_concat, List.flatMap_append,
    List.flatMap_cons, List.flatMap_nil, List.append_nil, ObserverPc.pending]
  rw [← List.append_assoc, ← List.append_assoc, List.append_assoc world.calls]
  exact hledger.balance.append_right _

omit [Infra] in
theorem Ledger.lease (hledger : Ledger world) (haudiences : Audiences world) {thread : Nat}
    {intent : Intent} {rest : List Intent}
    (hthread : world.threads[thread]? = some (.dispatch (intent :: rest))) :
    Ledger (world.lease thread intent rest) := by
  have hgive : ∀ pc : ObserverPc, pc.pending = rest →
      (held ObserverPc.pending world.threads).Perm
        ([intent] ++ held ObserverPc.pending (world.threads.set thread pc)) := by
    intro pc hpc
    exact held_give hthread (by rw [hpc]; exact List.Perm.refl _)
  unfold DeliveryWorld.lease
  split
  case h_1 observers hacquire =>
    have hperform : world.observers.perform (.acquire intent.token) (.finish false) =
        some (true, observers) := congrArg some hacquire
    refine ⟨?_, ?_⟩
    · refine List.Perm.trans ?_ hledger.balance
      change (world.calls ++ [intent] ++ (world.skipped ++ held _ _)).Perm _
      rw [List.append_assoc]
      refine List.Perm.append_left _ ?_
      refine (List.perm_append_comm_assoc _ _ _).trans ?_
      exact ((hgive (.callback intent rest) rfl).symm).append_left _
    · intro other hother
      exact (Observers.advances_perform hperform).revoked (hledger.skipped other hother)
  case h_2 later hacquire =>
    refine ⟨?_, ?_⟩
    · refine List.Perm.trans ?_ hledger.balance
      change (world.calls ++ (world.skipped ++ [intent] ++ held _ _)).Perm _
      rw [List.append_assoc world.skipped]
      exact (((hgive (.dispatch rest) rfl).symm).append_left _).append_left _
    · intro other hother
      rcases List.mem_append.mp hother with hold | hnew
      · exact hledger.skipped other hold
      · obtain rfl := List.mem_singleton.mp hnew
        refine ⟨issued_of_intents haudiences ?_, acquire_refused hacquire⟩
        refine hledger.balance.subset ?_
        refine List.mem_append_right _ (List.mem_append_right _ (mem_held.mpr ?_))
        exact ⟨_, List.mem_of_getElem? hthread, List.mem_cons_self⟩

omit [Infra] in
theorem Ledger.step (hledger : Ledger world) (haudiences : Audiences world)
    (hcase : DeliveryCase world after) : Ledger after := by
  cases hcase with
  | same => exact hledger
  | created => exact ⟨hledger.balance, hledger.skipped⟩
  | @published id _ changed kept => exact hledger.publish id changed kept
  | observed hobserve =>
      refine ⟨hledger.balance, ?_⟩
      intro intent hintent
      exact (Observers.advances_observe hobserve).revoked (hledger.skipped intent hintent)
  | performed act hperforms =>
      obtain ⟨answer, hperform⟩ := hperforms.observers
      refine ⟨?_, ?_⟩
      · rw [hperforms.calls, hperforms.skipped, DeliveryWorld.intents, hperforms.changes]
        exact ((hperforms.pending.append_left _).append_left _).trans hledger.balance
      · rw [hperforms.skipped]
        intro intent hintent
        exact (Observers.advances_perform hperform).revoked (hledger.skipped intent hintent)
  | leased hthread => exact hledger.lease haudiences hthread

/-! ## Over runs -/

/-- The three invariants together. -/
structure Delivered (world : DeliveryWorld) : Prop where
  history : History world
  audiences : Audiences world
  ledger : Ledger world

omit [Infra] in
theorem Delivered.fresh (maxObservers maxObjects : Nat) :
    Delivered (.fresh maxObservers maxObjects) where
  history :=
    { fresh := fun _ _ => ⟨rfl, rfl⟩
      rising := fun _ => List.Pairwise.nil
      latest := fun _ _ hevent => absurd hevent (by simp [DeliveryWorld.history,
        DeliveryWorld.fresh])
      generation := fun _ => ⟨0, fun _ hevent => absurd hevent List.not_mem_nil,
        fun _ hentry => absurd hentry (by simp [DeliveryWorld.fresh])⟩ }
  audiences :=
    { issued := fun _ _ => rfl
      recorded := fun _ _ hrecord => absurd hrecord (by simp [DeliveryWorld.fresh,
        Observers.fresh])
      unissued := fun _ _ => rfl
      hears := fun _ _ hchange => absurd hchange List.not_mem_nil
      nodup := fun _ hchange => absurd hchange List.not_mem_nil }
  ledger := ⟨List.Perm.refl _, fun _ hintent => absurd hintent List.not_mem_nil⟩

theorem delivered_of_reachable (hreach : deliveryMachine.Reachable world) :
    Delivered world := by
  refine hreach.induct ?_ ?_
  · rintro _ ⟨maxObservers, maxObjects, rfl⟩
    exact .fresh maxObservers maxObjects
  · intro before label last _ hdelivered _ hnext
    have hcase := delivery_case hnext
    exact ⟨hdelivered.history.step hcase, hdelivered.audiences.step hcase,
      hdelivered.ledger.step hdelivered.audiences hcase⟩

omit [Infra] in
theorem History.nodup (hhistory : History world) :
    (world.changes.map StateChange.event).Nodup := by
  rw [List.nodup_iff_count_le_one]
  intro event
  have hrising : (world.history event.id).Nodup := by
    refine (hhistory.rising event.id).imp ?_
    rintro earlier later hlt rfl
    exact Nat.lt_irrefl _ hlt
  have hcount := List.nodup_iff_count_le_one.mp hrising event
  rwa [DeliveryWorld.history, List.count_filter (p := fun other : StateEvent =>
    other.id == event.id) (beq_self_eq_true event.id)] at hcount

omit [Infra] in
/-- No event is copied twice for one observer. -/
theorem Delivered.nodup_intents (hdelivered : Delivered world) : world.intents.Nodup := by
  rw [DeliveryWorld.intents, List.nodup_flatMap]
  refine ⟨?_, ?_⟩
  · intro change hchange
    refine (hdelivered.audiences.nodup change hchange).map ?_
    intro token other hsame
    exact congrArg Intent.token hsame
  · refine (List.pairwise_map.mp hdelivered.history.nodup).imp ?_
    intro change other hne intent hintent hother
    obtain ⟨_, -, rfl⟩ := List.mem_map.mp hintent
    obtain ⟨_, -, hsame⟩ := List.mem_map.mp hother
    exact hne (congrArg Intent.event hsame).symm

omit [Infra] in
theorem Delivered.called (hdelivered : Delivered world) {intent : Intent}
    (hintent : intent ∈ world.calls) :
    ∃ registration, world.registrations intent.token = some registration ∧
      registration.concerns intent.event = true ∧
      ∃ change ∈ world.changes.drop registration.since,
        change.event = intent.event ∧ intent.token ∈ change.audience := by
  have hmem : intent ∈ world.intents :=
    hdelivered.ledger.balance.subset (List.mem_append_left _ hintent)
  obtain ⟨change, hchange, hcopied⟩ := List.mem_flatMap.mp hmem
  obtain ⟨token, htoken, rfl⟩ := List.mem_map.mp hcopied
  have hhears := hdelivered.audiences.hears token
  cases hregistration : world.registrations token with
  | none =>
      rw [hregistration] at hhears
      exact absurd htoken (hhears change hchange)
  | some registration =>
      rw [hregistration] at hhears
      obtain ⟨-, hbefore, hsince⟩ := hhears
      rw [← List.take_append_drop registration.since world.changes] at hchange
      rcases List.mem_append.mp hchange with hearly | hlate
      · exact absurd htoken (hbefore change hearly)
      · exact ⟨registration, rfl, (hsince change hlate).1 htoken, change, hlate, rfl, htoken⟩

omit [Infra] in
theorem DeliveryCase.calls (hcase : DeliveryCase world after) :
    ∃ fresh, after.calls = world.calls ++ fresh ∧
      ∀ intent ∈ fresh, world.observers.observerActive intent.token = true := by
  have hnone : ∀ last : DeliveryWorld, last.calls = world.calls →
      ∃ fresh, last.calls = world.calls ++ fresh ∧
        ∀ intent ∈ fresh, world.observers.observerActive intent.token = true :=
    fun last hcalls => ⟨[], by rw [hcalls, List.append_nil],
      fun _ hintent => absurd hintent List.not_mem_nil⟩
  cases hcase with
  | performed act hperforms => exact hnone _ hperforms.calls
  | leased hthread =>
      unfold DeliveryWorld.lease
      split
      case h_1 observers hacquire =>
        refine ⟨_, rfl, ?_⟩
        intro intent hintent
        obtain rfl := List.mem_singleton.mp hintent
        exact acquire_granted hacquire
      case h_2 => exact hnone _ rfl
  | same | created | published | observed => exact hnone _ rfl

/-- In every interleaving of state changes, registrations, revocations and dispatches, an
observer is called at most once for each state change, for changes of its own object made
after its registration, and only while it is active. -/
theorem called_at_most_once (hreach : deliveryMachine.Reachable world) :
    world.calls.Nodup ∧
      (∀ intent ∈ world.calls, ∃ registration,
        world.registrations intent.token = some registration ∧
          registration.concerns intent.event = true ∧
          ∃ change ∈ world.changes.drop registration.since,
            change.event = intent.event ∧ intent.token ∈ change.audience) ∧
      ∀ label after, deliveryMachine.next world label = some after →
        ∃ fresh, after.calls = world.calls ++ fresh ∧
          ∀ intent ∈ fresh, world.observers.observerActive intent.token = true := by
  have hdelivered := delivered_of_reachable hreach
  refine ⟨?_, fun intent hintent => hdelivered.called hintent,
    fun label after hnext => (delivery_case hnext).calls⟩
  have hnodup := hdelivered.ledger.balance.nodup_iff.mpr hdelivered.nodup_intents
  exact (List.nodup_append.mp hnodup).1

def DeliveryWorld.told (world : DeliveryWorld) (token : TokenId) : List StateEvent :=
  (world.calls.filter fun intent => intent.token == token).map Intent.event

def DeliveryWorld.due (world : DeliveryWorld) (registration : Registration) :
    List StateEvent :=
  ((world.changes.drop registration.since).map StateChange.event).filter registration.concerns

omit [Infra] in
theorem Audiences.intents_of (haudiences : Audiences world) {token : TokenId}
    {registration : Registration} (hactive : world.observers.observerActive token = true)
    (hregistration : world.registrations token = some registration) :
    ((world.intents.filter fun intent => intent.token == token).map Intent.event) =
      world.due registration := by
  have hone : ∀ change ∈ world.changes,
      (change.intents.filter fun intent => intent.token == token).map Intent.event =
        if token ∈ change.audience then [change.event] else [] := by
    intro change hchange
    have hfilter : change.audience.filter (fun other => other == token) =
        if token ∈ change.audience then [token] else [] := by
      rw [List.filter_beq, (haudiences.nodup change hchange).count]
      split
      · rfl
      · rfl
    have hintents : (change.intents.filter fun intent => intent.token == token) =
        (change.audience.filter (fun other => other == token)).map
          fun token => ⟨token, change.event⟩ := List.filter_map
    rw [hintents, hfilter]
    split
    · rfl
    · rfl
  have hhears := haudiences.hears token
  rw [hactive, hregistration] at hhears
  obtain ⟨-, hbefore, hsince⟩ := hhears
  have hall : ∀ changes : List StateChange, (∀ change ∈ changes, change ∈ world.changes) →
      ((changes.flatMap StateChange.intents).filter
        fun intent => intent.token == token).map Intent.event =
      (changes.filter fun change => token ∈ change.audience).map StateChange.event := by
    intro changes hchanges
    induction changes with
    | nil => rfl
    | cons change rest ih =>
        rw [List.flatMap_cons, List.filter_append, List.map_append,
          hone change (hchanges change List.mem_cons_self),
          ih (fun other hother => hchanges other (List.mem_cons_of_mem _ hother)),
          List.filter_cons]
        by_cases htoken : token ∈ change.audience
        · simp [htoken]
        · simp [htoken]
  rw [DeliveryWorld.intents, hall world.changes (fun _ hchange => hchange),
    DeliveryWorld.due, List.filter_map]
  conv_lhs => rw [← List.take_append_drop registration.since world.changes, List.filter_append]
  have hnone : (world.changes.take registration.since).filter
      (fun change => decide (token ∈ change.audience)) = [] := by
    rw [List.filter_eq_nil_iff]
    intro change hchange
    simpa using hbefore change hchange
  rw [hnone, List.nil_append]
  congr 1
  refine List.filter_congr ?_
  intro change hchange
  obtain ⟨htold, htells⟩ := hsince change hchange
  rw [Function.comp_apply]
  by_cases htoken : token ∈ change.audience
  · rw [htold htoken, decide_eq_true htoken]
  · rw [decide_eq_false htoken, eq_comm, Bool.eq_false_iff]
    exact fun hconcerns => htoken (htells rfl hconcerns)

omit [Infra] in
theorem Delivered.told_perm (hdelivered : Delivered world) {token : TokenId}
    {registration : Registration} (hactive : world.observers.observerActive token = true)
    (hregistration : world.registrations token = some registration)
    (hidle : ∀ pc ∈ world.threads, ∀ intent ∈ pc.pending, intent.token ≠ token) :
    (world.told token).Perm (world.due registration) := by
  have hskipped : (world.skipped.filter fun intent => intent.token == token) = [] := by
    rw [List.filter_eq_nil_iff]
    intro intent hintent
    have hrevoked := (hdelivered.ledger.skipped intent hintent).2
    rw [beq_iff_eq]
    rintro rfl
    exact Bool.false_ne_true (hrevoked.symm.trans hactive)
  have hpending : (held ObserverPc.pending world.threads).filter
      (fun intent => intent.token == token) = [] := by
    rw [List.filter_eq_nil_iff]
    intro intent hintent
    obtain ⟨pc, hpc, hmem⟩ := mem_held.mp hintent
    rw [beq_iff_eq]
    exact hidle pc hpc intent hmem
  have hperm := (hdelivered.ledger.balance.filter fun intent => intent.token == token).map
    Intent.event
  rw [List.filter_append, List.filter_append, hskipped, hpending, List.append_nil,
    List.append_nil, hdelivered.audiences.intents_of hactive hregistration] at hperm
  exact hperm

omit [Infra] in
theorem History.latest_due (hhistory : History world) {registration : Registration}
    {event : StateEvent} (hevent : event ∈ world.due registration)
    (hmax : ∀ other ∈ world.due registration, other.revision ≤ event.revision) :
    world.Shows registration.targetId event := by
  obtain ⟨generation, hgeneration, -⟩ := hhistory.generation registration.targetId
  have hsplit : world.history registration.targetId =
      ((world.changes.take registration.since).map StateChange.event).filter
        (fun other => other.id == registration.targetId) ++
      ((world.changes.drop registration.since).map StateChange.event).filter
        (fun other => other.id == registration.targetId) := by
    rw [← List.filter_append, ← List.map_append, List.take_append_drop]
    rfl
  obtain ⟨hmem, hconcerns⟩ := List.mem_filter.mp hevent
  rw [Registration.concerns, Bool.and_eq_true, beq_iff_eq, beq_iff_eq] at hconcerns
  have hhere : event ∈ world.history registration.targetId := by
    rw [hsplit]
    refine List.mem_append_right _ (List.mem_filter.mpr ⟨hmem, ?_⟩)
    rw [hconcerns.1]
    exact beq_self_eq_true _
  have hne : ((world.changes.drop registration.since).map StateChange.event).filter
      (fun other => other.id == registration.targetId) ≠ [] := by
    refine List.ne_nil_of_mem (List.mem_filter.mpr ⟨hmem, ?_⟩)
    rw [hconcerns.1]
    exact beq_self_eq_true _
  have hlast : (world.history registration.targetId).getLast? =
      some ((((world.changes.drop registration.since).map StateChange.event).filter
        (fun other => other.id == registration.targetId)).getLast hne) := by
    rw [hsplit, List.getLast?_append_of_ne_nil _ hne, List.getLast?_eq_some_getLast hne]
  have hlastmem := List.getLast_mem hne
  have hlasthere := List.mem_of_getLast? hlast
  have hdue := List.mem_filter.mp hlastmem
  have hlastdue : _ ∈ world.due registration := List.mem_filter.mpr ⟨hdue.1, by
    rw [Registration.concerns, hdue.2, hgeneration _ hlasthere,
      ← hgeneration event hhere, hconcerns.2]
    exact beq_self_eq_true _⟩
  rcases le_last_of_rising (hhistory.rising _) hlast hhere with heq | hlt
  · rw [heq]
    exact hhistory.latest _ _ hlast
  · exact absurd (hmax _ hlastdue) (Nat.not_le.mpr hlt)

/-- An observer that is active, and for which nothing is left to dispatch, has been called
once for each state change of its object since its registration; whatever the order of the
calls, the one with the highest revision shows the object as it is. -/
theorem observers_catch_up (hreach : deliveryMachine.Reachable world) {token : TokenId}
    (hactive : world.observers.observerActive token = true)
    (hidle : ∀ pc ∈ world.threads, ∀ intent ∈ pc.pending, intent.token ≠ token) :
    ∃ registration, world.registrations token = some registration ∧
      (world.told token).Perm (world.due registration) ∧
      ((world.told token).map StateEvent.revision).Nodup ∧
      ∀ event ∈ world.told token,
        (∀ other ∈ world.told token, other.revision ≤ event.revision) →
          world.Shows registration.targetId event := by
  have hdelivered := delivered_of_reachable hreach
  obtain ⟨record, hrecord, -⟩ := (Option.any_eq_true _ _).mp hactive
  obtain ⟨registration, hregistration, -⟩ :=
    hdelivered.audiences.recorded token record hrecord
  have hperm := hdelivered.told_perm hactive hregistration hidle
  refine ⟨registration, hregistration, hperm, ?_, ?_⟩
  · rw [(hperm.map StateEvent.revision).nodup_iff, List.Nodup, List.pairwise_map]
    have hsub : (world.due registration).Sublist (world.history registration.targetId) := by
      have hfilter : world.due registration =
          (((world.changes.drop registration.since).map StateChange.event).filter
            fun event => event.id == registration.targetId).filter
              fun event => event.generation == registration.targetGeneration := by
        rw [List.filter_filter, DeliveryWorld.due]
        refine List.filter_congr ?_
        intro event _
        rw [Registration.concerns, Bool.and_comm]
      rw [hfilter]
      refine List.filter_sublist.trans ?_
      exact ((List.drop_sublist _ _).map _).filter _
    exact ((hdelivered.history.rising registration.targetId).sublist hsub).imp Nat.ne_of_lt
  · intro event hevent hmax
    refine hdelivered.history.latest_due (hperm.subset hevent) ?_
    intro other hother
    exact hmax other (hperm.symm.subset hother)

end

/-- The component is installed and started; the second change is dispatched first, and the
second observer is revoked before anything has reached it. -/
def overtakenSteps : List DeliveryStep :=
  let component : ObjectHandle := ⟨true, ⟨.component, 0⟩, 1⟩
  [.create .component "T" "a", .observe true component component,
    .observe true component component, .setState ⟨.component, 0⟩ .installing none,
    .setState ⟨.component, 0⟩ .running none] ++
    List.replicate 3 (.advance 1 false) ++ [.revoke 2] ++
    List.replicate 2 (.advance 1 false) ++ List.replicate 5 (.advance 0 false)

theorem called_at_most_once_overtaken :
    letI := permissiveInfra
    ∃ world, deliveryMachine.Reachable world ∧
      (world.told 1).map StateEvent.revision = [2, 1] ∧ world.told 2 = [] ∧
      world.skipped.length = 2 ∧ world.calls.Nodup := by
  let _ := permissiveInfra
  have hstart : deliveryMachine.Reachable (.fresh 10 10) := .start ⟨10, 10, rfl⟩
  obtain ⟨world, hreach, htest⟩ := hstart.exec_any (fun _ _ => true) (fun _ _ _ => trivial)
    overtakenSteps
    (fun world => (world.told 1).map StateEvent.revision = [2, 1] ∧ world.told 2 = [] ∧
      world.skipped.length = 2) (by decide)
  obtain ⟨hfirst, hsecond, hskipped⟩ := of_decide_eq_true htest
  exact ⟨world, hreach, hfirst, hsecond, hskipped, (called_at_most_once hreach).1⟩

/-- The observer that has been called in the wrong order knows that the component runs. -/
theorem observers_catch_up_overtaken :
    letI := permissiveInfra
    ∃ world, deliveryMachine.Reachable world ∧
      (world.told 1).map StateEvent.state = [.running, .installing] ∧
      ∃ registration, world.registrations 1 = some registration ∧
        (world.told 1).Perm (world.due registration) := by
  let _ := permissiveInfra
  have hstart : deliveryMachine.Reachable (.fresh 10 10) := .start ⟨10, 10, rfl⟩
  obtain ⟨world, hreach, htest⟩ := hstart.exec_any (fun _ _ => true) (fun _ _ _ => trivial)
    overtakenSteps
    (fun world => (world.told 1).map StateEvent.state = [.running, .installing] ∧
      world.observers.observerActive 1 = true ∧
      ∀ pc ∈ world.threads, ∀ intent ∈ pc.pending, intent.token ≠ 1) (by decide)
  obtain ⟨htold, hactive, hidle⟩ := of_decide_eq_true htest
  obtain ⟨registration, hregistration, hperm, -⟩ := observers_catch_up hreach hactive hidle
  exact ⟨world, hreach, htold, registration, hregistration, hperm⟩

end BbtFramework.Observe
