import BbtFramework.App.Edges
import BbtFramework.App.Transitions

/-!
# A completed stop is complete

`CoStop` tears down what it has listed and calls the application stopped when
nothing is left behind.  An installation looks at the application state before
it registers its object, and not again; one that registers after the lists were
taken escapes the stop.
-/

namespace BbtFramework.App

open BbtFramework.Library

def Action.registers : Action → Bool
  | .command (.createComponent _) | .command (.createService _ _)
  | .command (.createActorType _) => true
  | _ => false

section

variable [Infra]

/-- Nothing is registered once a stop has taken its lists, until that stop ends
incomplete. -/
def RegistersInTime (pool : StagedPool) (label : AppStep) : Prop :=
  ∀ act ∈ pool.asked label, act.registers = true →
    pool.shared.state ≠ .stopped ∧
      ∀ thread < pool.count, (pool.views thread).stage.isStopping = false

instance (pool : StagedPool) (label : AppStep) : Decidable (RegistersInTime pool label) :=
  inferInstanceAs (Decidable (∀ act ∈ _, _ → _ ∧ ∀ thread < _, _))

end

/-- An entry keeps the phase of a teardown, and it has one while an operation is
in progress. -/
structure Wears (id : ObjectId) (before after : RegistryEntry) : Prop where
  phase : id.kind ≠ .actor → before.destroyPhase ≠ "" → after.destroyPhase ≠ ""
  busy : id.kind ≠ .actor → after.opInProgress = true →
    before.opInProgress = true ∨ after.destroyPhase ≠ ""

def Registry.Wearing (before after : Registry) : Prop :=
  ∀ id later, after.findEntryLocked id = some later →
    ∃ earlier, before.findEntryLocked id = some earlier ∧ Wears id earlier later

theorem Wears.refl (id : ObjectId) (entry : RegistryEntry) : Wears id entry entry :=
  ⟨fun _ hphase => hphase, fun _ hbusy => Or.inl hbusy⟩

theorem Wears.trans {id : ObjectId} {first second third : RegistryEntry}
    (hfirst : Wears id first second) (hsecond : Wears id second third) :
    Wears id first third := by
  refine ⟨fun hkind hphase => hsecond.phase hkind (hfirst.phase hkind hphase), ?_⟩
  intro hkind hbusy
  obtain hmiddle | hphase := hsecond.busy hkind hbusy
  · exact (hfirst.busy hkind hmiddle).imp_right (hsecond.phase hkind)
  · exact Or.inr hphase

namespace Registry

variable {before middle after : Registry}

theorem Wearing.refl (registry : Registry) : Wearing registry registry :=
  fun id later hfind => ⟨later, hfind, .refl id later⟩

theorem Wearing.trans (hfirst : Wearing before middle)
    (hsecond : Wearing middle after) : Wearing before after := by
  intro id later hfind
  obtain ⟨between, hbetween, hlater⟩ := hsecond id later hfind
  obtain ⟨earlier, hearlier, hwears⟩ := hfirst id between hbetween
  exact ⟨earlier, hearlier, hwears.trans hlater⟩

theorem Agree.wearing
    (hagree : Agree (fun entry => (entry.opInProgress, entry.destroyPhase))
      before after) : Wearing before after := by
  intro id later hfind
  obtain ⟨earlier, hearlier, heq⟩ := hagree.find_some hfind
  simp only [Prod.mk.injEq] at heq
  refine ⟨earlier, hearlier, ?_, ?_⟩
  · intro _ hphase
    rwa [← heq.2]
  · intro _ hbusy
    exact Or.inl (heq.1.trans hbusy)

theorem wearing_modify {id : ObjectId} {change : RegistryEntry → RegistryEntry}
    (hchange : ∀ entry, before.findEntryLocked id = some entry →
      Wears id entry (change entry)) :
    Wearing before (before.modify id change) := by
  intro other later hfind
  rw [findEntryLocked_modify] at hfind
  split at hfind
  case isTrue heq =>
    subst heq
    obtain ⟨earlier, hearlier, rfl⟩ := Option.map_eq_some_iff.mp hfind
    exact ⟨earlier, hearlier, hchange earlier hearlier⟩
  case isFalse => exact ⟨later, hfind, .refl other later⟩

end Registry

section

variable [Infra] {world last : AppWorld}

omit [Infra] in
/-- A teardown that begins has a phase. -/
theorem store_wearing {id : ObjectId} {begun : RegistryEntry}
    (hphase : begun.destroyPhase ≠ "") :
    Registry.Wearing world.registry (world.store id begun).registry := by
  apply Registry.wearing_modify
  intro _ _
  exact ⟨fun _ _ => hphase, fun _ _ => Or.inr hphase⟩

omit [Infra] in
theorem takesDown_wearing {kind : ObjectKind} {phase : String}
    {result : Except Error ObjectId × AppWorld} (hphase : kind ≠ .actor → phase ≠ "")
    (hresult : world.TakesDown kind phase result) :
    Registry.Wearing world.registry result.2.registry := by
  obtain ⟨error, rfl⟩ | ⟨id, entry, hkind, hfind, -, -, rfl⟩ := hresult
  · exact .refl _
  · apply Registry.wearing_modify
    intro _ _
    exact ⟨fun hactor _ => hphase (hkind ▸ hactor),
      fun hactor _ => Or.inr (hphase (hkind ▸ hactor))⟩

theorem apply_wearing {command : Command} {choice : Choice} {answer : command.Answer}
    {progress : Progress} (hregisters : (Action.command command).registers = false)
    (hallowed : Progress.allowsCommand command progress)
    (happly : world.apply command choice = some (answer, last)) :
    Registry.Wearing world.registry last.registry := by
  have hagree : command.Keeps (fun entry => (entry.opInProgress, entry.destroyPhase)) →
      Registry.Wearing world.registry last.registry :=
    fun hkeeps => ((AppWorld.apply_framed happly).agree hkeeps).wearing
  cases command with
  | createComponent key => cases hregisters
  | createService name allowed => cases hregisters
  | createActorType type => cases hregisters
  | finishDestroy id =>
      cases happly
      intro other later hfind
      change (world.registry.remove id).findEntryLocked other = some later at hfind
      rw [Registry.findEntryLocked_remove] at hfind
      split at hfind
      · cases hfind
      · exact ⟨later, hfind, .refl other later⟩
  | abortDestroy id phase incomplete =>
      cases happly
      apply Registry.wearing_modify
      intro _ _
      exact ⟨fun _ _ => hallowed.1, fun _ => nofun⟩
  | beginStopComponent id =>
      replace happly := Option.some.inj happly
      obtain heq | ⟨entry, hfind, -, heq⟩ := world.beginStopComponent_cases id
      · cases heq.symm.trans happly
        exact .refl _
      · cases heq.symm.trans happly
        exact store_wearing (show "stop" ≠ "" by decide)
  | beginStopService id =>
      replace happly := Option.some.inj happly
      obtain heq | ⟨entry, hfind, -, heq⟩ := world.beginStopService_cases id
      · cases heq.symm.trans happly
        exact .refl _
      · cases heq.symm.trans happly
        refine Registry.Wearing.trans (store_wearing (show "stop" ≠ "" by decide))
          (Registry.Agree.wearing (Registry.agree_modifyAll ?_))
        intro other component _
        split
        · rfl
        · rfl
  | beginUninstallComponent key =>
      have hresult := takesDown_wearing (fun _ => by decide)
        (world.beginUninstallComponent_takesDown key)
      rw [Option.some.inj happly] at hresult
      exact hresult
  | beginUninstallService name =>
      have hresult := takesDown_wearing (fun _ => by decide)
        (world.beginUninstallService_takesDown name)
      rw [Option.some.inj happly] at hresult
      exact hresult
  | beginUninstallActorType type =>
      have hresult := takesDown_wearing (fun hactor => absurd rfl hactor)
        (world.beginUninstallActorType_takesDown type)
      rw [Option.some.inj happly] at hresult
      exact hresult
  | _ => exact hagree (by simp [Command.Keeps])

theorem event_wearing {event : Event} (hevent : world.event event = some last) :
    Registry.Wearing world.registry last.registry :=
  ((AppWorld.event_undisturbed hevent).agree (fun _ _ _ _ => rfl)).wearing

end

/-- A stop has every object before it or in a teardown; one that found nothing
to clean up has left the application alone. -/
structure Covers (registry : Registry) (stage : Stage) : Prop where
  listed : ∀ pending clean, stage = .stopping pending clean →
    ∀ id entry, registry.findEntryLocked id = some entry → id.kind ≠ .app →
      id ∈ pending ∨ (id.kind ≠ .actor ∧ entry.destroyPhase ≠ "")
  cleaned : ∀ pending, stage = .stopping pending true →
    ∀ id entry, registry.findEntryLocked id = some entry → id.kind = .app

namespace Covers

variable {before after : Registry} {stage other : Stage}

theorem of_not_stopping (registry : Registry)
    (hstage : ∀ pending clean, stage ≠ .stopping pending clean) :
    Covers registry stage :=
  ⟨fun pending clean hstop => absurd hstop (hstage pending clean),
    fun pending hstop => absurd hstop (hstage pending true)⟩

/-- A stage that comes from another one without a turn. -/
theorem of_stage {registry : Registry} (hcovers : Covers registry stage)
    (hstage : ∀ pending clean, other = .stopping pending clean →
      stage = .stopping pending clean) : Covers registry other :=
  ⟨fun pending clean hstop => hcovers.listed pending clean (hstage pending clean hstop),
    fun pending hstop => hcovers.cleaned pending (hstage pending true hstop)⟩

theorem wearing (hcovers : Covers before stage)
    (hwearing : Registry.Wearing before after) : Covers after stage := by
  constructor
  · intro pending clean hstop id later hfind hkind
    obtain ⟨earlier, hearlier, hwears⟩ := hwearing id later hfind
    obtain hpending | ⟨hactor, hphase⟩ :=
      hcovers.listed pending clean hstop id earlier hearlier hkind
    · exact Or.inl hpending
    · exact Or.inr ⟨hactor, hwears.phase hactor hphase⟩
  · intro pending hstop id later hfind
    obtain ⟨earlier, hearlier, -⟩ := hwearing id later hfind
    exact hcovers.cleaned pending hstop id earlier hearlier

/-- A turn is over when its object is gone or in a teardown. -/
theorem turn {registry : Registry} {progress : Progress} {id : ObjectId} {begun : Bool}
    (hcovers : Covers registry progress.stage)
    (hhead : ∀ pending clean, progress.stage = .stopping pending clean →
      pending.head? = some id)
    (hdone : ∀ entry, registry.findEntryLocked id = some entry →
      id.kind ≠ .actor ∧ entry.destroyPhase ≠ "") :
    Covers registry (progress.turn id begun).stage := by
  obtain ⟨lifecycle, stage, log, failed⟩ := progress
  cases stage with
  | stopping pending clean =>
      have hfirst := hhead pending clean rfl
      obtain ⟨rest, rfl⟩ : ∃ rest, pending = id :: rest := by
        cases pending with
        | nil => cases hfirst
        | cons first rest =>
            obtain rfl := Option.some.inj hfirst
            exact ⟨rest, rfl⟩
      constructor
      · rintro _ _ ⟨⟩ other entry hfind hkind
        obtain hmem | hphase := hcovers.listed _ _ rfl other entry hfind hkind
        · rcases List.mem_cons.mp hmem with rfl | hmem
          · exact Or.inr (hdone entry hfind)
          · exact Or.inl hmem
        · exact Or.inr hphase
      · rintro _ ⟨⟩ other entry hfind
        exact hcovers.cleaned _ rfl other entry hfind
  | _ => exact hcovers

end Covers

theorem mem_stopLists {world : AppWorld} {id : ObjectId} {entry : RegistryEntry}
    (hfind : world.registry.findEntryLocked id = some entry) (hkind : id.kind ≠ .app) :
    id ∈ world.stopLists.order := by
  have hlisted : id ∈ world.registry.listIdsByKindLocked id.kind :=
    Registry.mem_listIdsByKind.mpr ⟨rfl, entry, hfind⟩
  simp only [StopLists.order, AppWorld.stopLists, List.mem_append, List.mem_filter,
    List.mem_reverse]
  cases hcase : id.kind with
  | app => exact absurd hcase hkind
  | service => exact Or.inl (Or.inl (Or.inl (hcase ▸ hlisted)))
  | actor => exact Or.inl (Or.inl (Or.inr (hcase ▸ hlisted)))
  | component =>
      have horder : id ∈ world.registry.componentStartOrderLocked.order :=
        Registry.mem_startOrder.mpr (hcase ▸ hlisted)
      by_cases hscope : entry.scope = .app
      · exact Or.inr ⟨horder, by simp [hfind, hscope]⟩
      · exact Or.inl (Or.inr ⟨horder, by simp [hfind, hscope]⟩)

/-- An entry with the phase of a teardown is reported. -/
theorem pendingCleanup_ne_nil {registry : Registry} {id : ObjectId}
    {entry : RegistryEntry} (hfind : registry.findEntryLocked id = some entry)
    (hphase : entry.destroyPhase ≠ "") : registry.pendingCleanup ≠ [] := by
  intro hempty
  have hnone := List.filterMap_eq_nil_iff.mp hempty id
    (Table.mem_order.mpr (Table.mem_of_lookup hfind))
  rw [hfind, Option.bind_some, if_pos (Or.inr (Or.inr (Or.inl hphase)))] at hnone
  cases hnone

section

variable [Infra] {world last : AppWorld} {progress : Progress}

theorem covers_query {query : Query} {choice : Choice} {answer : query.Answer}
    (hallowed : Progress.allowsQuery query progress)
    (hanswer : world.answer query choice = some answer)
    (hcovers : Covers world.registry progress.stage) :
    Covers world.registry (Progress.afterQuery query answer progress).stage := by
  cases query with
  | loadState =>
      change AppState at answer
      refine hcovers.of_stage ?_
      obtain ⟨lifecycle, stage, log, failed⟩ := progress
      intro pending clean hstop
      cases stage with
      | idle => cases lifecycle <;> cases hstop
      | placed id =>
          replace hstop : (if answer = .running then Stage.launching id
            else .idle) = .stopping pending clean := hstop
          split at hstop
          · cases hstop
          · cases hstop
      | _ => exact hstop
  | startLists => exact .of_not_stopping _ (fun _ _ => nofun)
  | listServices state =>
      refine .of_not_stopping _ ?_
      intro pending clean
      change (if state = .running then Stage.pausing answer else .resuming answer) ≠ _
      split
      · exact nofun
      · exact nofun
  | stopLists =>
      cases hanswer
      constructor
      · rintro _ _ ⟨⟩ id entry hfind hkind
        exact Or.inl (mem_stopLists hfind hkind)
      · rintro _ ⟨⟩
  | pendingCleanup =>
      cases hanswer
      obtain ⟨clean, hstage⟩ := hallowed
      obtain ⟨lifecycle, stage, log, failed⟩ := progress
      obtain rfl : stage = .stopping [] clean := hstage
      constructor
      · rintro _ _ ⟨⟩ id entry hfind hkind
        exact hcovers.listed [] clean rfl id entry hfind hkind
      · intro pending hstop id entry hfind
        obtain ⟨-, hempty⟩ := Stage.stopping.inj hstop
        by_contra hkind
        obtain hmem | ⟨-, hphase⟩ := hcovers.listed [] clean rfl id entry hfind hkind
        · cases hmem
        · exact pendingCleanup_ne_nil hfind hphase (of_decide_eq_true hempty)
  | _ => exact hcovers

omit [Infra] in
/-- After the first critical section of a teardown its object is gone or has a
phase. -/
theorem phase_of_begin {id : ObjectId} {result : Bool × AppWorld}
    (hphase : ∀ entry, world.registry.findEntryLocked id = some entry →
      entry.opInProgress = true → entry.destroyPhase ≠ "")
    (hresult : (∃ begun, (world.registry.findEntryLocked id).bind
        Registry.beginOpLocked = some begun ∧
        ∀ entry, result.2.registry.findEntryLocked id = some entry →
          entry.destroyPhase = "stop") ∨
      ((world.registry.findEntryLocked id).bind Registry.beginOpLocked = none ∧
        result.2 = world)) :
    ∀ entry, result.2.registry.findEntryLocked id = some entry →
      entry.destroyPhase ≠ "" := by
  intro entry hfind
  obtain ⟨begun, -, hstop⟩ | ⟨hrefused, hsame⟩ := hresult
  · rw [hstop entry hfind]
    decide
  · rw [hsame] at hfind
    refine hphase entry hfind ?_
    rw [hfind, Option.bind_some, Registry.beginOpLocked] at hrefused
    split at hrefused
    case isTrue hbusy => exact hbusy
    case isFalse => cases hrefused

omit [Infra] in
theorem phase_of_beginStopComponent {id : ObjectId}
    (hphase : ∀ entry, world.registry.findEntryLocked id = some entry →
      entry.opInProgress = true → entry.destroyPhase ≠ "") :
    ∀ entry, (world.beginStopComponent id).2.registry.findEntryLocked id = some entry →
      entry.destroyPhase ≠ "" := by
  apply phase_of_begin hphase
  unfold AppWorld.beginStopComponent
  cases hbegin : (world.registry.findEntryLocked id).bind Registry.beginOpLocked with
  | none => exact Or.inr ⟨rfl, rfl⟩
  | some begun =>
      refine Or.inl ⟨begun, rfl, ?_⟩
      intro entry hfind
      dsimp only [AppWorld.store] at hfind
      rw [Registry.findEntryLocked_modify, if_pos rfl] at hfind
      obtain ⟨old, -, rfl⟩ := Option.map_eq_some_iff.mp hfind
      rfl

omit [Infra] in
theorem phase_of_beginStopService {id : ObjectId}
    (hphase : ∀ entry, world.registry.findEntryLocked id = some entry →
      entry.opInProgress = true → entry.destroyPhase ≠ "") :
    ∀ entry, (world.beginStopService id).2.registry.findEntryLocked id = some entry →
      entry.destroyPhase ≠ "" := by
  apply phase_of_begin hphase
  unfold AppWorld.beginStopService
  cases hbegin : (world.registry.findEntryLocked id).bind Registry.beginOpLocked with
  | none => exact Or.inr ⟨rfl, rfl⟩
  | some begun =>
      refine Or.inl ⟨begun, rfl, ?_⟩
      intro entry hfind
      dsimp only [AppWorld.modifyComponents, AppWorld.store] at hfind
      rw [Registry.findEntryLocked_modifyAll, Registry.findEntryLocked_modify,
        if_pos rfl] at hfind
      obtain ⟨middle, hmiddle, rfl⟩ := Option.map_eq_some_iff.mp hfind
      obtain ⟨old, -, rfl⟩ := Option.map_eq_some_iff.mp hmiddle
      dsimp only
      split
      · rfl
      · rfl

theorem covers_command {command : Command} {choice : Choice} {answer : command.Answer}
    (hregisters : (Action.command command).registers = false)
    (hallowed : Progress.allowsCommand command progress)
    (happly : world.apply command choice = some (answer, last))
    (hphase : ∀ id entry, world.registry.findEntryLocked id = some entry →
      id.kind ≠ .actor → entry.opInProgress = true → entry.destroyPhase ≠ "")
    (hcovers : Covers world.registry progress.stage) :
    Covers last.registry (Progress.afterCommand command answer progress).stage := by
  have hlast := hcovers.wearing (apply_wearing hregisters hallowed happly)
  cases command with
  | storeState state => exact .of_not_stopping _ (fun _ _ => nofun)
  | releaseLifecycle => exact .of_not_stopping _ (fun _ _ => nofun)
  | exchangeLifecycle =>
      change Bool at answer
      cases answer with
      | false => exact hlast
      | true => exact hlast
  | createComponent key => cases hregisters
  | createService name allowed => cases hregisters
  | setState id state =>
      refine hlast.of_stage ?_
      intro pending clean hstop
      have hknown := congrArg Stage.appState hstop
      change (progress.afterState state).stage.appState = some .stopping at hknown
      rw [Progress.appState_afterState] at hknown
      obtain ⟨lifecycle, stage, log, failed⟩ := progress
      cases stage with
      | knows known =>
          cases hknown
          exact hallowed.elim
      | stopping pending clean => exact hallowed.elim
      | _ => cases hknown
  | beginStopService id =>
      obtain ⟨hactor, rest, clean, hstage⟩ := hallowed
      refine hlast.turn ?_ ?_
      · intro _ _ hstop
        obtain ⟨rfl, -⟩ := Stage.stopping.inj (hstage.symm.trans hstop)
        rfl
      · intro entry hfind
        rw [← (Prod.mk.inj (Option.some.inj happly)).2] at hfind
        exact ⟨hactor, phase_of_beginStopService
          (fun entry hentry => hphase id entry hentry hactor) entry hfind⟩
  | beginStopComponent id =>
      obtain ⟨hactor, rest, clean, hstage⟩ := hallowed
      refine hlast.turn ?_ ?_
      · intro _ _ hstop
        obtain ⟨rfl, -⟩ := Stage.stopping.inj (hstage.symm.trans hstop)
        rfl
      · intro entry hfind
        rw [← (Prod.mk.inj (Option.some.inj happly)).2] at hfind
        exact ⟨hactor, phase_of_beginStopComponent
          (fun entry hentry => hphase id entry hentry hactor) entry hfind⟩
  | takeHook id hook =>
      obtain ⟨log, heq⟩ := takeHook_log id hook answer progress
      rw [heq]
      exact hlast
  | finishDestroy id =>
      change Covers _ (if id.kind = .actor then progress.turn id true else progress).stage
      split
      case isTrue hactor =>
        refine hlast.turn (hallowed hactor) ?_
        intro entry hfind
        cases happly
        change (world.registry.remove id).findEntryLocked id = some entry at hfind
        rw [Registry.findEntryLocked_remove, if_pos rfl] at hfind
        cases hfind
      case isFalse => exact hlast
  | _ => exact hlast

/-! ## Over runs -/

structure StopLedger (world : AppWorld) (views : Nat → Progress) : Prop where
  phase : ∀ id entry, world.registry.findEntryLocked id = some entry →
    id.kind ≠ .actor → entry.opInProgress = true → entry.destroyPhase ≠ ""
  covers : ∀ thread, Covers world.registry (views thread).stage
  stopped : world.state = .stopped →
    ∀ id entry, world.registry.findEntryLocked id = some entry → id.kind = .app

omit [Infra] in
theorem phase_wearing {before after : Registry}
    (hphase : ∀ id entry, before.findEntryLocked id = some entry →
      id.kind ≠ .actor → entry.opInProgress = true → entry.destroyPhase ≠ "")
    (hwearing : Registry.Wearing before after) :
    ∀ id entry, after.findEntryLocked id = some entry →
      id.kind ≠ .actor → entry.opInProgress = true → entry.destroyPhase ≠ "" := by
  intro id later hfind hactor hbusy
  obtain ⟨earlier, hearlier, hwears⟩ := hwearing id later hfind
  obtain hbefore | hdone := hwears.busy hactor hbusy
  · exact hwears.phase hactor (hphase id earlier hearlier hactor hbefore)
  · exact hdone

omit [Infra] in
theorem stopped_wearing {before after : Registry}
    (hstopped : ∀ id entry, before.findEntryLocked id = some entry → id.kind = .app)
    (hwearing : Registry.Wearing before after) :
    ∀ id entry, after.findEntryLocked id = some entry → id.kind = .app := by
  intro id later hfind
  obtain ⟨earlier, hearlier, -⟩ := hwearing id later hfind
  exact hstopped id earlier hearlier

theorem stopLedger_command {views : Nat → Progress} {thread : Nat} {command : Command}
    {choice : Choice} {answer : command.Answer}
    (hregisters : (Action.command command).registers = false)
    (hallowed : Progress.allowsCommand command (views thread))
    (happly : world.apply command choice = some (answer, last))
    (hledger : StopLedger world views) :
    StopLedger last (Function.update views thread
      (Progress.afterCommand command answer (views thread))) := by
  have hwearing := apply_wearing hregisters hallowed happly
  refine ⟨phase_wearing hledger.phase hwearing, ?_, ?_⟩
  · refine (Function.forall_update_iff views
      (fun _ progress => Covers last.registry progress.stage)).mpr ⟨?_, ?_⟩
    · exact covers_command hregisters hallowed happly hledger.phase
        (hledger.covers thread)
    · exact fun other _ => (hledger.covers other).wearing hwearing
  · intro hstopped
    by_cases hwrites : command.writesState = false
    · rw [(AppWorld.apply_framed happly).state hwrites] at hstopped
      exact stopped_wearing (hledger.stopped hstopped) hwearing
    · -- A stop that stores `Stopped` has found nothing to clean up.
      cases command with
      | storeState state =>
          cases happly
          obtain rfl : state = .stopped := hstopped
          exact (hledger.covers thread).cleaned [] hallowed.2
      | _ => exact absurd rfl hwrites

omit [Infra] in
/-- A registration, when no stop has taken its lists. -/
theorem stopLedger_created {views : Nat → Progress} {thread : Nat} {kind : ObjectKind}
    {progress : Progress} (hcreated : world.Created kind last)
    (hstate : world.state ≠ .stopped)
    (hviews : ∀ other, (views other).stage.isStopping = false)
    (hprogress : progress.stage.isStopping = false) (hledger : StopLedger world views) :
    StopLedger last (Function.update views thread progress) := by
  have hcovers : ∀ stage : Stage, stage.isStopping = false →
      Covers last.registry stage := by
    intro stage hstage
    apply Covers.of_not_stopping
    rintro pending clean rfl
    cases hstage
  refine ⟨?_, ?_, ?_⟩
  · intro id later hfind hactor hbusy
    obtain hold | ⟨-, _, _, _, _, _, rfl⟩ := hcreated.find hfind
    · exact hledger.phase id later hold hactor hbusy
    · cases hbusy
  · exact (Function.forall_update_iff views
      (fun _ progress => Covers last.registry progress.stage)).mpr
      ⟨hcovers _ hprogress, fun other _ => hcovers _ (hviews other)⟩
  · intro hstopped
    obtain ⟨typeName, name, scope, ownerId, object, rfl⟩ := hcreated
    exact absurd hstopped hstate

/-- A command that registers an object, or is refused. -/
theorem stopLedger_registers {views : Nat → Progress} {thread : Nat} {command : Command}
    {choice : Choice} {answer : command.Answer}
    (hregisters : (Action.command command).registers = true)
    (happly : world.apply command choice = some (answer, last))
    (hstate : world.state ≠ .stopped)
    (hviews : ∀ other, (views other).stage.isStopping = false)
    (hledger : StopLedger world views) :
    StopLedger last (Function.update views thread
      (Progress.afterCommand command answer (views thread))) := by
  have hsame : StopLedger world (Function.update views thread (views thread)) := by
    rw [Function.update_eq_self]
    exact hledger
  cases command with
  | createComponent key =>
      replace happly := Option.some.inj happly
      obtain ⟨error, heq⟩ | ⟨made, heq, hcreated⟩ := world.createComponent_cases key
      · cases heq.symm.trans happly
        exact hsame
      · cases heq.symm.trans happly
        exact stopLedger_created hcreated hstate hviews rfl hledger
  | createService name allowed =>
      replace happly := Option.some.inj happly
      obtain ⟨error, heq⟩ | ⟨made, heq, hcreated⟩ :=
        world.createService_cases name allowed
      · cases heq.symm.trans happly
        exact hsame
      · cases heq.symm.trans happly
        exact stopLedger_created hcreated hstate hviews rfl hledger
  | createActorType type =>
      replace happly := Option.some.inj happly
      obtain ⟨error, heq⟩ | ⟨made, heq, hcreated⟩ := world.createActorType_cases type
      · cases heq.symm.trans happly
        exact hsame
      · cases heq.symm.trans happly
        exact stopLedger_created hcreated hstate hviews (hviews thread) hledger
  | _ => cases hregisters

variable {pool : StagedPool}

theorem stopLedger_of_reachable
    (hreach : stagedSystem.machine.ReachableWhere RegistersInTime pool) :
    StopLedger pool.shared pool.views := by
  refine stagedSystem_disciplined.invariant (motive := StopLedger) ?_ ?_ ?_ hreach
  · rintro world ⟨options, maxObjects, maxBindings, -, rfl⟩
    have happ : ∀ id entry, (AppWorld.freshRegistry maxObjects
        maxBindings).findEntryLocked id = some entry →
        id.kind = .app ∧ entry.opInProgress = false := by
      intro id entry hfind
      rw [AppWorld.freshRegistry, Registry.findEntryLocked_append] at hfind
      split at hfind
      case isTrue heq =>
        cases hfind
        exact ⟨congrArg ObjectId.kind heq, rfl⟩
      case isFalse => cases hfind
    refine ⟨?_, fun _ => .of_not_stopping _ (fun _ _ => nofun), nofun⟩
    intro id entry hfind _ hbusy
    rw [(happ id entry hfind).2] at hbusy
    cases hbusy
  · intro pool thread choice act answer last hacts hledger
    cases act with
    | query query =>
        obtain ⟨hanswer, rfl⟩ := AppWorld.perform_query hacts.performed
        refine ⟨hledger.phase, ?_, hledger.stopped⟩
        exact (Function.forall_update_iff pool.views
          (fun _ progress => Covers pool.shared.registry progress.stage)).mpr
          ⟨covers_query hacts.allowed hanswer (hledger.covers thread),
            fun other _ => hledger.covers other⟩
    | command command =>
        have happly := AppWorld.perform_command hacts.performed
        by_cases hregisters : (Action.command command).registers = false
        · exact stopLedger_command hregisters hacts.allowed happly hledger
        · have hasked : pool.asked (.step thread choice : AppStep) =
              some (.command command) := by
            obtain ⟨rest, hrest⟩ := hacts.asked
            rw [Pool.asked, hrest, Program.asks]
          have hregisters' := (Bool.not_eq_false _).mp hregisters
          obtain ⟨hstate, hstages⟩ := hacts.guarded _ hasked hregisters'
          refine stopLedger_registers hregisters' happly hstate ?_ hledger
          intro other
          by_cases hlt : other < pool.count
          · exact hstages other hlt
          · rw [System.views_of_ge hacts.reach other (Nat.le_of_not_lt hlt)]
            rfl
  · intro pool event last _ _ hreact hledger
    have hevent := AppWorld.react_event hreact
    have hwearing := event_wearing hevent
    refine ⟨phase_wearing hledger.phase hwearing,
      fun thread => (hledger.covers thread).wearing hwearing, ?_⟩
    intro hstopped
    rw [(AppWorld.event_undisturbed hevent).state] at hstopped
    exact stopped_wearing (hledger.stopped hstopped) hwearing

end

/-- The steps of a stop that tears down one component, whose `OnStop` is the
given task. -/
def stopSteps (thread task : Nat) : List AppStep :=
  List.replicate 8 (smoothStep thread) ++ hookSteps thread task ++
    List.replicate 7 (smoothStep thread)

end BbtFramework.App
