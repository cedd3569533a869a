import BbtFramework.App.ScopeConfinement
import BbtFramework.App.Transitions

/-!
# The log of a stop

The bindings between components have no cycle, so the start order has every component
after those it depends on.  A stop takes up the objects in an order of its own, and its
log keeps to that order.
-/

namespace BbtFramework.App

open BbtFramework.Library

section

variable {α : Type} [DecidableEq α] {first second : α} {items : List α}

theorem idxOf_lt_of_sublist (hnodup : items.Nodup)
    (hpair : [first, second].Sublist items) : items.idxOf first < items.idxOf second := by
  obtain ⟨early, late, rfl, hfirst, hsecond⟩ := List.cons_sublist_iff.mp hpair
  have hlate : second ∉ early := fun hmem =>
    List.disjoint_of_nodup_append hnodup hmem (List.singleton_sublist.mp hsecond)
  rw [List.idxOf_append_of_mem hfirst, List.idxOf_append_of_notMem hlate]
  exact Nat.lt_of_lt_of_le (List.idxOf_lt_length_of_mem hfirst) (Nat.le_add_right _ _)

omit [DecidableEq α] in
theorem sublist_or_sublist (hne : first ≠ second) (hfirst : first ∈ items)
    (hsecond : second ∈ items) :
    [first, second].Sublist items ∨ [second, first].Sublist items := by
  obtain ⟨early, late, rfl⟩ := List.append_of_mem hfirst
  rcases List.mem_append.mp hsecond with hearly | hlate
  · exact Or.inr ((List.singleton_sublist.mpr hearly).append
      (List.singleton_sublist.mpr List.mem_cons_self))
  · have hlate := (List.mem_cons.mp hlate).resolve_left hne.symm
    exact Or.inl (List.Sublist.trans ((List.singleton_sublist.mpr hlate).cons_cons first)
      (List.sublist_append_right _ _))

omit [DecidableEq α] in
theorem sublist_of_prefix {rest : List α} (hnodup : (items ++ rest).Nodup)
    (hpair : [first, second].Sublist (items ++ rest)) (hsecond : second ∈ items) :
    [first, second].Sublist items := by
  obtain ⟨early, late, hsplit, hearly, hlate⟩ := List.sublist_append_iff.mp hpair
  rcases List.eq_nil_or_concat late with rfl | ⟨before, last, rfl⟩
  · rw [List.append_nil] at hsplit
    rwa [hsplit]
  · rw [List.concat_eq_append, ← List.append_assoc] at hsplit
    obtain ⟨-, heq⟩ := List.append_inj' (show [first] ++ [second] = _ from hsplit) rfl
    obtain rfl := List.head_eq_of_cons_eq heq
    exact absurd (hlate.subset (by simp)) (List.disjoint_of_nodup_append hnodup hsecond)

end

section

variable [Infra] {world last : AppWorld}

omit [Infra] in
theorem leads_carries {before after : Registry} {user used : ObjectId}
    (hcarries : Registry.Carries before after)
    (hleads : Leads after.dependencies user used) : Leads before.dependencies user used := by
  obtain ⟨hkind, later, hfind, edge, hedge, hsubject⟩ :=
    Registry.mem_dependencies.mp hleads
  obtain ⟨earlier, hearlier, hdescends⟩ := hcarries.entries used later hfind
  obtain ⟨known, hknown, heq⟩ := hdescends.subjects edge hedge
  exact Registry.mem_dependencies.mpr
    ⟨hkind, earlier, hearlier, known, hknown, heq.trans hsubject⟩

/-- A bind that passes its checks closes no cycle. -/
theorem not_back_of_bindChecks {subject : ObjectHandle} {key : ComponentKey}
    {id : ObjectId} {component : RegistryEntry} {edge : Binding}
    (hchecks : world.bindChecks subject key = .ok (id, component, edge)) :
    ¬Relation.ReflTransGen (Leads world.registry.dependencies) id subject.id := by
  obtain ⟨hfound, hfind⟩ := AppWorld.bindChecks_found hchecks
  obtain ⟨hkind, -⟩ := Registry.findComponentLocked_some hfound
  by_cases hsubject : subject.id.kind = .component
  · have hfree := AppWorld.bindChecks_acyclic hchecks hsubject
    unfold Registry.wouldFormCycleLocked at hfree
    split at hfree
    · cases hfree
    · exact not_reachable_of_reach world.registry.closed_dependencies
        (Registry.mem_listIdsByKind.mpr ⟨hkind, component, hfind⟩) (Nat.le_succ _) hfree
  · -- Nothing but a component is depended on.
    intro hpath
    obtain heq | ⟨before, -, hstep⟩ := Relation.ReflTransGen.cases_tail hpath
    · exact hsubject (heq ▸ hkind)
    · exact hsubject (Registry.mem_dependencies.mp hstep).1

theorem acyclic_edgeStep {asked : Option Action} (hstep : world.EdgeStep asked last)
    (hacyclic : Acyclic world.registry.dependencies) :
    Acyclic last.registry.dependencies := by
  cases hstep with
  | carries hcarries => exact hacyclic.mono (fun _ _ => leads_carries hcarries)
  | created kind hcreated =>
      refine hacyclic.mono ?_
      intro user used hleads
      obtain ⟨hkind, later, hfind, edge, hedge, hsubject⟩ :=
        Registry.mem_dependencies.mp hleads
      obtain hold | ⟨-, _, _, _, _, _, rfl⟩ := hcreated.find hfind
      · exact Registry.mem_dependencies.mpr ⟨hkind, later, hold, edge, hedge, hsubject⟩
      · cases hedge
  | bound subject key id component edge change hasked hchecks hlast =>
      subst hlast
      refine hacyclic.insert ?_ (not_back_of_bindChecks hchecks)
      intro user used hleads
      obtain ⟨hkind, later, hfind, edge, hedge, hsubject⟩ :=
        Registry.mem_dependencies.mp hleads
      obtain ⟨earlier, hearlier, -, -, hedges⟩ := AppWorld.find_withEdge hfind
      obtain ⟨known, hknown, heq⟩ | ⟨heq, hnew⟩ := hedges edge hedge
      · exact Or.inl (Registry.mem_dependencies.mpr
          ⟨hkind, earlier, hearlier, known, hknown, heq.trans hsubject⟩)
      · exact Or.inr ⟨hsubject.symm.trans hnew, heq⟩

/-- In every run the bindings between components have no cycle. -/
theorem dependencies_acyclic {View : Type} {view : View}
    {discipline : Discipline Action Action.Answer View}
    {guard : AppPool View → AppStep → Prop} {pool : AppPool View}
    (hreach : (appSystem view discipline).machine.ReachableWhere guard pool) :
    Acyclic pool.shared.registry.dependencies := by
  refine hreach.induct (motive := fun pool =>
    Acyclic pool.shared.registry.dependencies) ?_ ?_
  · rintro pool ⟨world, ⟨options, maxObjects, maxBindings, -, rfl⟩, rfl⟩ id hcycle
    obtain ⟨used, hleads, -⟩ := Relation.TransGen.head'_iff.mp hcycle
    obtain ⟨hkind, entry, hfind, -⟩ := Registry.mem_dependencies.mp hleads
    change (AppWorld.freshRegistry maxObjects maxBindings).findEntryLocked used =
      some entry at hfind
    rw [AppWorld.freshRegistry, Registry.findEntryLocked_append] at hfind
    split at hfind
    case isTrue heq =>
      rw [heq] at hkind
      cases hkind
    case isFalse => cases hfind
  · intro pool label next _ ih _ hnext
    exact acyclic_edgeStep (AppWorld.next_edgeStep hnext) ih

end

namespace Registry

variable (registry : Registry)

def inAppScope (id : ObjectId) : Bool :=
  (registry.findEntryLocked id).any (fun entry => entry.scope = .app)

def ScopesDescend : Prop :=
  ∀ user ∈ registry.listIdsByKindLocked .component,
    registry.inAppScope user = true →
      ∀ used ∈ registry.dependencies user, registry.inAppScope used = true

instance : Decidable registry.ScopesDescend :=
  inferInstanceAs (Decidable (∀ user ∈ _, _ = _ → ∀ used ∈ _, _ = _))

variable {registry}

theorem mem_of_leads {user used : ObjectId} (hleads : Leads registry.dependencies user used) :
    used ∈ registry.listIdsByKindLocked .component := by
  obtain ⟨hkind, entry, hfind, -⟩ := mem_dependencies.mp hleads
  exact mem_listIdsByKind.mpr ⟨hkind, entry, hfind⟩

theorem nodup_listIdsByKind (kind : ObjectKind) :
    (registry.listIdsByKindLocked kind).Nodup :=
  (Table.nodup_order registry.entries).filter _

end Registry

section

variable {world : AppWorld} {user used : ObjectId}

def StopLists.components (lists : StopLists) : List ObjectId :=
  lists.scopedComponents ++ lists.appComponents

theorem mem_scopedComponents {id : ObjectId} :
    id ∈ world.stopLists.scopedComponents ↔
      id ∈ world.registry.listIdsByKindLocked .component ∧
        world.registry.inAppScope id = false := by
  simp only [AppWorld.stopLists, List.mem_filter, List.mem_reverse,
    Registry.mem_startOrder, Registry.inAppScope]
  refine and_congr_right ?_
  intro hmem
  obtain ⟨-, entry, hfind⟩ := Registry.mem_listIdsByKind.mp hmem
  simp [hfind]

theorem mem_appComponents {id : ObjectId} :
    id ∈ world.stopLists.appComponents ↔
      id ∈ world.registry.listIdsByKindLocked .component ∧
        world.registry.inAppScope id = true := by
  simp only [AppWorld.stopLists, List.mem_filter, List.mem_reverse,
    Registry.mem_startOrder, Registry.inAppScope]
  refine and_congr_right ?_
  intro hmem
  obtain ⟨-, entry, hfind⟩ := Registry.mem_listIdsByKind.mp hmem
  simp [hfind]

theorem reverse_sublist (hacyclic : Acyclic world.registry.dependencies)
    (huser : user ∈ world.registry.listIdsByKindLocked .component)
    (hleads : Leads world.registry.dependencies user used) :
    [user, used].Sublist world.registry.componentStartOrderLocked.order.reverse := by
  have hsorted := postOrder_sorted world.registry.closed_dependencies hacyclic
  exact List.reverse_sublist.mpr
    (hsorted.sublist (Registry.mem_startOrder.mpr huser) hleads)

theorem stopComponents_sublist (hacyclic : Acyclic world.registry.dependencies)
    (hscopes : world.registry.ScopesDescend)
    (huser : user ∈ world.registry.listIdsByKindLocked .component)
    (hleads : Leads world.registry.dependencies user used) :
    [user, used].Sublist world.stopLists.components := by
  have hused := Registry.mem_of_leads hleads
  have hreverse := reverse_sublist hacyclic huser hleads
  have hany : ∀ id ∈ world.registry.listIdsByKindLocked .component,
      (world.registry.findEntryLocked id).any (fun entry =>
        decide (entry.scope = .app) = world.registry.inAppScope id) = true := by
    intro id hmem
    obtain ⟨-, entry, hfind⟩ := Registry.mem_listIdsByKind.mp hmem
    simp [Registry.inAppScope, hfind]
  have hsplit : ∀ test : ObjectId → Bool, test user = true → test used = true →
      [user, used].Sublist
        (world.registry.componentStartOrderLocked.order.reverse.filter test) := by
    intro test huser hused
    have hfiltered := hreverse.filter test
    rwa [List.filter_cons_of_pos huser, List.filter_cons_of_pos hused,
      List.filter_nil] at hfiltered
  cases huserScope : world.registry.inAppScope user with
  | true =>
      have husedScope := hscopes user huser huserScope used hleads
      refine List.Sublist.trans (hsplit _ ?_ ?_) (List.sublist_append_right _ _)
      · have htest := hany user huser
        rwa [huserScope] at htest
      · have htest := hany used hused
        rwa [husedScope] at htest
  | false =>
      cases husedScope : world.registry.inAppScope used with
      | true =>
          exact (List.singleton_sublist.mpr
            (mem_scopedComponents.mpr ⟨huser, huserScope⟩)).append
              (List.singleton_sublist.mpr (mem_appComponents.mpr ⟨hused, husedScope⟩))
      | false =>
          refine List.Sublist.trans (hsplit _ ?_ ?_) (List.sublist_append_left _ _)
          · have htest := hany user huser
            rwa [huserScope] at htest
          · have htest := hany used hused
            rwa [husedScope] at htest

/-- No object is listed twice. -/
theorem nodup_stopLists : world.stopLists.order.Nodup := by
  obtain ⟨hservices, hactors, hscoped, happ⟩ := @AppWorld.kind_of_mem_stopLists world
  have hnodup : world.registry.componentStartOrderLocked.order.reverse.Nodup :=
    List.nodup_reverse.mpr (nodup_postOrder world.registry.closed_dependencies)
  refine List.Nodup.append (List.Nodup.append (List.Nodup.append
    (Registry.nodup_listIdsByKind _) (Registry.nodup_listIdsByKind _) ?_)
      (hnodup.filter _) ?_) (hnodup.filter _) ?_
  · intro id hservice hactor
    cases (hservices id hservice).symm.trans (hactors id hactor)
  · intro id hmem hcomponent
    rcases List.mem_append.mp hmem with hservice | hactor
    · cases (hservices id hservice).symm.trans (hscoped id hcomponent)
    · cases (hactors id hactor).symm.trans (hscoped id hcomponent)
  · intro id hmem hcomponent
    rcases List.mem_append.mp hmem with hmem | hother
    · rcases List.mem_append.mp hmem with hservice | hactor
      · cases (hservices id hservice).symm.trans (happ id hcomponent)
      · cases (hactors id hactor).symm.trans (happ id hcomponent)
    · cases (mem_scopedComponents.mp hother).2.symm.trans
        (mem_appComponents.mp hcomponent).2

theorem components_sublist (lists : StopLists) :
    lists.components.Sublist lists.order := by
  rw [StopLists.order, StopLists.components, List.append_assoc _ lists.scopedComponents]
  exact List.sublist_append_right _ _

end

/-! ## The log of a stop -/

namespace StopStep

def turn? : StopStep → Option ObjectId
  | .turn id _ => some id
  | .onStop _ _ => none

def onStop? : StopStep → Option ObjectId
  | .turn _ _ => none
  | .onStop id _ => some id

def task? : StopStep → Option Nat
  | .turn _ _ => none
  | .onStop _ task => some task

end StopStep

def turns (log : List StopStep) : List ObjectId :=
  log.filterMap StopStep.turn?

/-- The objects whose `OnStop` was handed to a task. -/
def onStops (log : List StopStep) : List ObjectId :=
  log.filterMap StopStep.onStop?

/-- `OnStop` directly follows the turn of its object. -/
inductive WellServed : List StopStep → Prop where
  | start : WellServed []
  | turn {log : List StopStep} (hserved : WellServed log) (id : ObjectId) (begun : Bool) :
      WellServed (log ++ [.turn id begun])
  | onStop {log : List StopStep} (hserved : WellServed log) (id : ObjectId) (task : Nat) :
      WellServed (log ++ [.turn id true] ++ [.onStop id task])

theorem WellServed.of_turn {log : List StopStep} {id : ObjectId} {begun : Bool}
    (hserved : WellServed (log ++ [.turn id begun])) : WellServed log := by
  generalize hwhole : log ++ [StopStep.turn id begun] = whole at hserved
  cases hserved with
  | start => exact absurd hwhole (by simp)
  | turn hbefore other given =>
      obtain ⟨rfl, -⟩ := List.append_inj' hwhole rfl
      exact hbefore
  | onStop hbefore other task =>
      obtain ⟨-, heq⟩ := List.append_inj' hwhole rfl
      cases heq

@[simp]
theorem turns_append (log rest : List StopStep) :
    turns (log ++ rest) = turns log ++ turns rest :=
  List.filterMap_append

@[simp]
theorem onStops_append (log rest : List StopStep) :
    onStops (log ++ rest) = onStops log ++ onStops rest :=
  List.filterMap_append

@[simp]
theorem turns_turn (id : ObjectId) (begun : Bool) : turns [.turn id begun] = [id] :=
  rfl

@[simp]
theorem turns_onStop (id : ObjectId) (task : Nat) : turns [.onStop id task] = [] :=
  rfl

@[simp]
theorem onStops_turn (id : ObjectId) (begun : Bool) : onStops [.turn id begun] = [] :=
  rfl

@[simp]
theorem onStops_onStop (id : ObjectId) (task : Nat) : onStops [.onStop id task] = [id] :=
  rfl

theorem WellServed.onStops_sublist {log : List StopStep} (hserved : WellServed log) :
    (onStops log).Sublist (turns log) := by
  induction hserved with
  | start => exact .slnil
  | @turn log _ id begun ih =>
      rw [onStops_append, turns_append, onStops_turn]
      exact ih.append (List.nil_sublist _)
  | @onStop log _ id task ih =>
      rw [onStops_append, onStops_append, onStops_turn, onStops_onStop, List.append_nil,
        turns_append, turns_append, turns_turn, turns_onStop, List.append_nil]
      exact ih.append (.refl _)

structure OnCourse (order : List ObjectId) (progress : Progress) : Prop where
  served : WellServed progress.log
  turned : ∃ pending, turns progress.log ++ pending = order ∧
    ((∃ clean, progress.stage = .stopping pending clean) ∨
      (pending = [] ∧ progress.stage.isStopping = false))

theorem Progress.pending_of_stores {progress : Progress} {state : AppState}
    {pending : List ObjectId} {clean : Bool} (hstores : progress.stores state)
    (hstop : progress.stage = .stopping pending clean) : pending = [] := by
  obtain ⟨lifecycle, stage, log, failed⟩ := progress
  obtain rfl : stage = .stopping pending clean := hstop
  cases state with
  | created => exact hstores.elim
  | starting => obtain h | h := hstores <;> cases h
  | running => obtain h | h | ⟨h, -⟩ := hstores <;> cases h
  | paused => cases hstores
  | stopping =>
      obtain ⟨before, -, h⟩ := hstores
      cases h
  | stopIncomplete =>
      obtain ⟨given, h⟩ := hstores
      exact (Stage.stopping.inj h).1
  | stopped => exact (Stage.stopping.inj hstores).1

namespace OnCourse

variable {order : List ObjectId} {progress last : Progress}

theorem same (hcourse : OnCourse order progress) (hlog : last.log = progress.log)
    (hstage : last.stage = progress.stage) : OnCourse order last := by
  constructor
  · rw [hlog]
    exact hcourse.served
  · rw [hlog, hstage]
    exact hcourse.turned

/-- A thread that is not stopping, or has nothing left to stop, goes on to another
stage. -/
theorem rests (hcourse : OnCourse order progress) (hlog : last.log = progress.log)
    (hstage : last.stage.isStopping = false)
    (hdone : ∀ pending clean, progress.stage = .stopping pending clean → pending = []) :
    OnCourse order last := by
  constructor
  · rw [hlog]
    exact hcourse.served
  · obtain ⟨pending, horder, ⟨clean, hstop⟩ | ⟨hnone, -⟩⟩ := hcourse.turned
    · obtain rfl := hdone pending clean hstop
      exact ⟨[], by rwa [hlog], Or.inr ⟨rfl, hstage⟩⟩
    · exact ⟨pending, by rwa [hlog], Or.inr ⟨hnone, hstage⟩⟩

theorem turn {id : ObjectId} {begun : Bool} (hcourse : OnCourse order progress)
    (hhead : ∀ pending clean, progress.stage = .stopping pending clean →
      pending.head? = some id) : OnCourse order (progress.turn id begun) := by
  obtain ⟨lifecycle, stage, log, failed⟩ := progress
  cases stage with
  | stopping pending clean =>
      have hfirst := hhead pending clean rfl
      cases pending with
      | nil => cases hfirst
      | cons first rest =>
          obtain rfl := Option.some.inj hfirst
          obtain ⟨served, horder, ⟨given, hstop⟩ | ⟨-, hstage⟩⟩ := hcourse.turned
          · obtain ⟨rfl, -⟩ := Stage.stopping.inj hstop
            refine ⟨hcourse.served.turn first begun, rest, ?_, Or.inl ⟨clean, rfl⟩⟩
            rw [← horder]
            change turns (log ++ [.turn first begun]) ++ rest = turns log ++ first :: rest
            simp
          · cases hstage
  | _ => exact hcourse

theorem takeHook {id : ObjectId} {hook : Hook} {taken : Option Nat}
    (hcourse : OnCourse order progress)
    (hallowed : Progress.allowsCommand (.takeHook id hook) progress) :
    OnCourse order (Progress.afterCommand (.takeHook id hook) taken progress) := by
  by_cases hstopping : ∃ pending clean, progress.stage = .stopping pending clean
  · obtain ⟨pending, clean, hstage⟩ := hstopping
    obtain ⟨lifecycle, stage, log, failed⟩ := progress
    obtain rfl : stage = .stopping pending clean := hstage
    cases taken with
    | none => exact hcourse.same rfl rfl
    | some task =>
        by_cases hook = .onStop
        case neg hother =>
          refine hcourse.same ?_ ?_ <;> simp [Progress.afterCommand, hother]
        case pos hhook =>
          subst hhook
          -- The turn of the object is the last step of the log.
          obtain ⟨before, rfl⟩ := List.getLast?_eq_some_iff.mp
            (hallowed rfl pending clean rfl)
          refine ⟨hcourse.served.of_turn.onStop id task, ?_⟩
          obtain ⟨rest, horder, hrest⟩ := hcourse.turned
          refine ⟨rest, ?_, hrest⟩
          rw [← horder]
          change turns (before ++ [.turn id true] ++ [.onStop id task]) ++ rest =
            turns (before ++ [.turn id true]) ++ rest
          rw [turns_append _ [.onStop id task], turns_onStop, List.append_nil]
  · rw [afterCommand_takeHook (fun pending clean hstage => hstopping ⟨pending, clean, hstage⟩)]
    exact hcourse

/-- A stop in progress takes no other lists. -/
theorem query {query : Query} {answer : query.Answer} (horder : order ≠ [])
    (hallowed : Progress.allowsQuery query progress) (hcourse : OnCourse order progress) :
    OnCourse order (Progress.afterQuery query answer progress) := by
  obtain ⟨lifecycle, stage, log, failed⟩ := progress
  cases query with
  | loadState =>
      change AppState at answer
      cases stage with
      | idle => cases lifecycle <;> exact hcourse.rests rfl rfl nofun
      | placed id =>
          refine hcourse.rests rfl ?_ nofun
          change (if answer = .running then Stage.launching id else .idle).isStopping = false
          split
          · rfl
          · rfl
      | _ => exact hcourse
  | startLists =>
      obtain rfl : stage = .knows .starting := hallowed
      exact hcourse.rests rfl rfl nofun
  | listServices state =>
      have hstage : (if state = .running then Stage.pausing answer
          else .resuming answer).isStopping = false := by
        split
        · rfl
        · rfl
      obtain ⟨-, hknows⟩ | ⟨-, hknows⟩ := hallowed
      · obtain rfl : stage = .knows .running := hknows
        exact hcourse.rests rfl hstage nofun
      · obtain rfl : stage = .knows .paused := hknows
        exact hcourse.rests rfl hstage nofun
  | stopLists =>
      obtain ⟨hknows, hempty⟩ := hallowed
      obtain rfl : stage = .knows .stopping := hknows
      obtain rfl : log = [] := hempty
      obtain ⟨pending, hturns, ⟨clean, ⟨⟩⟩ | ⟨rfl, -⟩⟩ := hcourse.turned
      exact absurd hturns.symm horder
  | pendingCleanup =>
      obtain ⟨clean, hstop⟩ := hallowed
      obtain rfl : stage = .stopping [] clean := hstop
      refine ⟨hcourse.served, ?_⟩
      obtain ⟨pending, hturns, ⟨given, ⟨⟩⟩ | ⟨-, ⟨⟩⟩⟩ := hcourse.turned
      exact ⟨[], hturns, Or.inl ⟨_, rfl⟩⟩
  | _ => exact hcourse

theorem setState {id : ObjectId} {state : ObjectState} (hcourse : OnCourse order progress)
    (hwrites : Progress.writes id state progress.stage) :
    OnCourse order (progress.afterState state) := by
  obtain ⟨lifecycle, stage, log, failed⟩ := progress
  have hlog : (Progress.afterState state ⟨lifecycle, stage, log, failed⟩).log = log := by
    unfold Progress.afterState
    repeat' split
    all_goals rfl
  have hstage : stage.isStopping = false := by
    cases stage with
    | stopping pending clean => exact hwrites.elim
    | _ => rfl
  refine hcourse.rests hlog ?_ ?_
  · unfold Progress.afterState
    repeat' split
    all_goals first | rfl | exact hstage
  · rintro pending clean rfl
    cases hstage

theorem command {command : Command} {answer : command.Answer}
    (hallowed : Progress.allowsCommand command progress)
    (hcourse : OnCourse order progress) :
    OnCourse order (Progress.afterCommand command answer progress) := by
  have hrests : ∀ stage last, progress.stage = stage → stage.isStopping = false →
      last.log = progress.log → last.stage.isStopping = false → OnCourse order last := by
    rintro stage last rfl hbefore hlog hafter
    refine hcourse.rests hlog hafter ?_
    intro pending clean hstop
    rw [hstop] at hbefore
    cases hbefore
  cases command with
  | exchangeLifecycle =>
      change Bool at answer
      cases answer with
      | false => exact hcourse.same rfl rfl
      | true => exact hcourse
  | releaseLifecycle =>
      obtain ⟨-, state, hknows⟩ := hallowed
      exact hrests _ _ hknows rfl rfl rfl
  | storeState state =>
      refine hcourse.rests rfl rfl ?_
      intro pending clean hstop
      exact Progress.pending_of_stores hallowed.2 hstop
  | createComponent key =>
      change Except Error ObjectId at answer
      cases answer with
      | error error => exact hcourse
      | ok id => exact hrests _ _ hallowed.2 rfl rfl rfl
  | createService name allowed =>
      change Except Error ObjectHandle at answer
      cases answer with
      | error error => exact hcourse
      | ok handle => exact hrests _ _ hallowed.2 rfl rfl rfl
  | setState id state => exact hcourse.setState hallowed
  | beginStopService id =>
      obtain ⟨-, rest, clean, hstage⟩ := hallowed
      refine hcourse.turn ?_
      intro _ _ hstop
      obtain ⟨rfl, -⟩ := Stage.stopping.inj (hstage.symm.trans hstop)
      rfl
  | beginStopComponent id =>
      obtain ⟨-, rest, clean, hstage⟩ := hallowed
      refine hcourse.turn ?_
      intro _ _ hstop
      obtain ⟨rfl, -⟩ := Stage.stopping.inj (hstage.symm.trans hstop)
      rfl
  | takeHook id hook => exact hcourse.takeHook hallowed
  | finishDestroy id =>
      change OnCourse order (if id.kind = .actor then progress.turn id true else progress)
      split
      case isTrue hactor => exact hcourse.turn (hallowed hactor)
      case isFalse => exact hcourse
  | _ => exact hcourse

theorem after {act : Action} {answer : act.Answer} (horder : order ≠ [])
    (hallowed : Progress.allows act progress) (hcourse : OnCourse order progress) :
    OnCourse order (Progress.after act answer progress) := by
  cases act with
  | query query => exact hcourse.query horder hallowed
  | command command => exact hcourse.command hallowed

end OnCourse

/-- The scheduler may still begin the hook. -/
def TaskPhase.queued : TaskPhase → Bool
  | .taken | .submitted => true
  | _ => false

def AppWorld.queued (world : AppWorld) (index : Nat) : Bool :=
  (world.tasks[index]?).any (fun task => task.phase.queued)

/-- Tasks are added, and none goes back to the queue. -/
def TasksAdvance (before after : List HookTask) : Prop :=
  ∀ (index : Nat) (task : HookTask), before[index]? = some task →
    ∃ later : HookTask, after[index]? = some later ∧
      (task.phase.queued = false → later.phase.queued = false)

theorem TasksAdvance.refl (tasks : List HookTask) : TasksAdvance tasks tasks :=
  fun _ task hfind => ⟨task, hfind, id⟩

theorem tasksAdvance_append (tasks : List HookTask) (task : HookTask) :
    TasksAdvance tasks (tasks ++ [task]) := by
  intro index old hfind
  refine ⟨old, ?_, id⟩
  rwa [List.getElem?_append_left (List.getElem?_eq_some_iff.mp hfind).1]

theorem tasksAdvance_set {tasks : List HookTask} {index : Nat} {task later : HookTask}
    (hfind : tasks[index]? = some task)
    (hqueued : task.phase.queued = false → later.phase.queued = false) :
    TasksAdvance tasks (tasks.set index later) := by
  intro other old hold
  by_cases heq : index = other
  · subst heq
    obtain rfl := Option.some.inj (hfind.symm.trans hold)
    exact ⟨later, by rw [List.getElem?_set_self (List.getElem?_eq_some_iff.mp hfind).1],
      hqueued⟩
  · exact ⟨old, by rwa [List.getElem?_set_ne heq], id⟩

/-- What a step does to the tasks: nothing, a hook is counted as a new one, or one of them
gets another phase. -/
inductive TaskMove (asked : Option Action) (before : List HookTask) :
    List HookTask → Prop where
  | same : TaskMove asked before before
  | taken (id : ObjectId) (hook : Hook)
      (hasked : asked = some (.command (.takeHook id hook))) :
      TaskMove asked before (before ++ [⟨id, hook, .taken⟩])
  | moved (index : Nat) (found : HookTask) (phase : TaskPhase)
      (hfind : before[index]? = some found)
      (hqueued : found.phase.queued = false → phase.queued = false) :
      TaskMove asked before (before.set index { found with phase := phase })

theorem TaskMove.advance {asked : Option Action} {before after : List HookTask}
    (hmove : TaskMove asked before after) : TasksAdvance before after := by
  cases hmove with
  | same => exact .refl before
  | taken id hook hasked => exact tasksAdvance_append before _
  | moved index found phase hfind hqueued => exact tasksAdvance_set hfind hqueued

section

variable [Infra] {world last : AppWorld}

theorem apply_taskMove {command : Command} {choice : Choice} {answer : command.Answer}
    (happly : world.apply command choice = some (answer, last)) :
    TaskMove (some (.command command)) world.tasks last.tasks := by
  by_cases hwrites : command.writesTasks = false
  · rw [(AppWorld.apply_framed happly).tasks hwrites]
    exact .same
  · cases command with
    | takeHook id hook =>
        replace happly := Option.some.inj happly
        cases hfind : world.registry.findEntryLocked id with
        | none =>
            rw [AppWorld.takeHook, hfind] at happly
            cases happly
            exact .same
        | some entry =>
            rw [AppWorld.takeHook, hfind] at happly
            cases happly
            exact .taken id hook rfl
    | submitHook task =>
        simp only [AppWorld.apply, AppWorld.submitHook] at happly
        split at happly
        · split at happly
          case h_1 object hook hfind =>
            cases happly
            exact .moved task _ _ hfind (by simp [TaskPhase.queued])
          · cases happly
        · cases happly
    | noteRejected task =>
        simp only [AppWorld.apply] at happly
        split at happly
        case h_1 object hook hfind =>
          cases happly
          exact .moved task _ _ hfind (fun _ => rfl)
        · cases happly
    | _ => exact absurd rfl hwrites

theorem event_taskMove {event : Event} {asked : Option Action}
    (hevent : world.event event = some last) : TaskMove asked world.tasks last.tasks := by
  cases event with
  | borrow object generation allow =>
      simp only [AppWorld.event] at hevent
      split at hevent
      · cases hevent
        exact .same
      · cases hevent
        exact .same
  | release lease =>
      simp only [AppWorld.event] at hevent
      split at hevent
      · cases hevent
        exact .same
      · cases hevent
  | notifyHook index =>
      simp only [AppWorld.event] at hevent
      split at hevent
      case h_1 object hook notify result hfind =>
        cases hevent
        cases notify
        · exact .moved index _ _ hfind (fun _ => rfl)
        · exact .moved index _ _ hfind (fun _ => rfl)
      · cases hevent
  | _ =>
      simp only [AppWorld.event] at hevent
      split at hevent
      case h_1 object hook hfind =>
        cases hevent
        exact .moved _ _ _ hfind (fun _ => rfl)
      · cases hevent

theorem next_taskMove {View : Type} {view : View}
    {discipline : Discipline Action Action.Answer View} {pool next : AppPool View}
    {label : AppStep} (hnext : (appSystem view discipline).next pool label = some next) :
    TaskMove (pool.asked label) pool.shared.tasks next.shared.tasks := by
  cases label with
  | spawn entry =>
      cases hnext
      exact .same
  | env event =>
      obtain ⟨last, hreact, rfl⟩ := Option.map_eq_some_iff.mp hnext
      exact event_taskMove (AppWorld.react_event hreact)
  | step thread choice =>
      obtain ⟨-, act, rest, answer, last, hthread, hperform, rfl⟩ := System.next_step hnext
      rw [Pool.asked_call hthread]
      cases act with
      | query query =>
          obtain ⟨-, rfl⟩ := AppWorld.perform_query hperform
          exact .same
      | command command => exact apply_taskMove (AppWorld.perform_command hperform)

end

end BbtFramework.App
