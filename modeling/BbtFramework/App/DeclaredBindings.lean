import BbtFramework.App.ServiceBindings
import BbtFramework.Library.Interference

/-!
# Declared bindings

`_InstallServiceImpl` binds the components a service declares, one after another, and
undoes those it has bound when one of them is refused.  As long as nobody else touches the
service, its edges and the declared components, the service holds exactly the edges and
the rows of the declarations bound so far, at every failing declaration and on the way
back.
-/

namespace BbtFramework.App

open BbtFramework.Library

/-- What a call of `CoInstallService` has come to: before its service is created, while
the declared bindings are applied, and from `OnInstall` on. -/
inductive InstallView where
  | fresh
  | created (service : ObjectHandle)
  | entered
  deriving DecidableEq

def installDiscipline : Discipline Action Action.Answer InstallView where
  allows := fun _ _ => True
  possible := fun _ _ => True
  after := fun act answer view =>
    match view with
    | .fresh =>
        match act, answer with
        | .command (.createService _ _), .ok service => .created service
        | _, _ => .fresh
    | .created service =>
        match act with
        | .query (.enterHook _ _) => .entered
        | _ => .created service
    | .entered => .entered

/-- While the declared bindings are applied the others leave them alone.  The way back
waits for nobody, and `OnInstall` is entered with everything bound. -/
def installContract (decls : List ComponentBindingDecl) :
    Contract Action Action.Answer AppWorld InstallView where
  rely := fun view world last =>
    match view with
    | .fresh => last.SubjectsKnown
    | .created service => AppWorld.LeavesAlone service.id decls world last
    | .entered => True
  grants := fun _ _ _ _ => True
  asserts := fun act view world =>
    match view, act with
    | .created service, .query (.enterHook id _) =>
        id = service.id ∧ world.AllBound service.id decls
    | .created _, .query (.awaitBinding _ _ _) => False
    | _, _ => True

section

variable [Infra]

/-- Calls on the application, each with what its installation has come to. -/
def installSystem :
    System Action Action.Answer Outcome AppWorld InstallView Entry Choice Event :=
  appSystem .fresh installDiscipline

/-- What an installation secures when it returns before `OnInstall`. -/
def Refused (outcome : Outcome) (view : InstallView) (world : AppWorld) : Prop :=
  ∀ service, view = .created service →
    (∃ error, outcome = .control (.error error)) ∧ world.NothingBound service.id ∧
      ∃ entry, world.registry.findEntryLocked service.id = some entry ∧
        entry.state = .installFailed

variable {decls : List ComponentBindingDecl} {service : ObjectHandle} {Inner : Type}
variable {world : AppWorld} {view : InstallView} {rows : List BoundComponent}
variable {row : BoundComponent}

theorem secures_read {query : Query} {next : query.Answer → Op Inner}
    {motive : AppWorld → Prop} {post : Inner → InstallView → AppWorld → Prop}
    (hstable : (installContract decls).Stable view motive) (hmotive : motive world)
    (hasserts : ∀ world, motive world →
      (installContract decls).asserts (.query query) view world)
    (hnext : ∀ world choice answer, motive world → world.answer query choice = some answer →
      installSystem.Secures (installContract decls) (next answer)
        (installDiscipline.after (.query query) answer view) world post) :
    installSystem.Secures (installContract decls) (read query >>= next) view world post := by
  refine System.Secures.step hstable hmotive hasserts ?_
  intro middle choice answer last hmiddle hperform _
  obtain ⟨hanswer, rfl⟩ := AppWorld.perform_query hperform
  exact hnext last choice answer hmiddle hanswer

theorem secures_write {command : Command} {next : command.Answer → Op Inner}
    {motive : AppWorld → Prop} {post : Inner → InstallView → AppWorld → Prop}
    (hstable : (installContract decls).Stable view motive) (hmotive : motive world)
    (hnext : ∀ world choice answer last, motive world →
      world.apply command choice = some (answer, last) →
      installSystem.Secures (installContract decls) (next answer)
        (installDiscipline.after (.command command) answer view) last post) :
    installSystem.Secures (installContract decls) (write command >>= next) view world
      post := by
  refine System.Secures.step hstable hmotive ?_ ?_
  · intro middle _
    cases view with
    | _ => trivial
  · intro middle choice answer last hmiddle hperform _
    exact hnext middle choice answer last hmiddle (AppWorld.perform_command hperform)

omit [Infra] in
theorem holds_stable (leaving : Option ObjectId) (rows : List BoundComponent) :
    (installContract decls).Stable (.created service)
      (AppWorld.Holds service.id decls leaving rows) :=
  fun _ _ hholds halone => hholds.undisturbed halone

theorem bindComponentImpl_secures (howned : service.owned = true)
    (hholds : AppWorld.Holds service.id decls none rows world)
    {decl : ComponentBindingDecl} (hdecl : decl ∈ decls) :
    installSystem.Secures (installContract decls)
      (bindComponentImpl decl.componentType service decl.name ⟨.app, none⟩)
      (.created service) world (fun bound view world => view = .created service ∧
        match bound with
        | .error _ => AppWorld.Holds service.id decls none rows world
        | .ok (object, generation) => AppWorld.Holds service.id decls none
            (rows ++ [⟨decl.componentType, decl.name, object, generation⟩]) world) := by
  rw [bindComponentImpl, if_neg (by simp [howned])]
  refine secures_read (holds_stable none rows) hholds (fun _ _ => trivial) ?_
  intro world choice owner hholds howner
  obtain rfl : Except.ok none = owner := Option.some.inj howner
  change installSystem.Secures _ (write (.bindComponent service
    ⟨decl.componentType, decl.name, .app, none⟩) >>= pure) (.created service) _ _
  refine secures_write (holds_stable none rows) hholds ?_
  intro world choice answer last hholds happly
  have hbind := Option.some.inj happly
  cases answer with
  | error error =>
      obtain ⟨reason, hrefused⟩ | ⟨_, _, _, _, hbound⟩ := world.bindComponent_writes service
        ⟨decl.componentType, decl.name, .app, none⟩
      · cases hrefused.symm.trans hbind
        exact .done (holds_stable none rows) hholds (fun _ hlast => ⟨rfl, hlast⟩)
      · cases hbound.symm.trans hbind
  | ok made =>
      exact .done (holds_stable none _) (hholds.bindComponent rfl hdecl hbind)
        (fun _ hlast => ⟨rfl, hlast⟩)

theorem unbindComponentImpl_secures (howned : service.owned = true)
    (hholds : AppWorld.Holds service.id decls none (row :: rows) world) :
    installSystem.Secures (installContract decls)
      (unbindComponentImpl row.type service row.name ⟨.app, none⟩)
      (.created service) world (fun _ view world => view = .created service ∧
        AppWorld.Holds service.id decls none rows world) := by
  rw [unbindComponentImpl, if_neg (by simp [howned])]
  refine secures_read (holds_stable none (row :: rows)) hholds (fun _ _ => trivial) ?_
  intro world choice owner hholds howner
  obtain rfl : Except.ok none = owner := Option.some.inj howner
  refine secures_write (holds_stable none (row :: rows)) hholds ?_
  intro world choice begun last hholds happly
  obtain ⟨rfl, hleaving⟩ := hholds.beginUnbind (Option.some.inj happly)
  dsimp only
  have hdrains : installSystem.Secures (installContract decls)
      (waitBindingDrained row.object.id service.id row.bindingGeneration)
      (.created service) last (fun drained view world => drained = .ok () ∧
        view = .created service ∧ AppWorld.Holds service.id decls (some row.object.id)
          (row :: rows) world) := by
    refine secures_read (holds_stable _ (row :: rows)) hleaving (fun _ _ => trivial) ?_
    intro world choice drained hleaving hdrained
    obtain rfl : true = drained :=
      (hleaving.drained List.mem_cons_self).symm.trans (Option.some.inj hdrained)
    exact .done (holds_stable _ (row :: rows)) hleaving (fun _ hlast => ⟨rfl, rfl, hlast⟩)
  refine hdrains.andThen ?_
  rintro drained view world ⟨rfl, rfl, hleaving⟩
  refine secures_write (holds_stable _ (row :: rows)) hleaving ?_
  intro world choice answer last hleaving happly
  obtain rfl : _ = last := congrArg Prod.snd (Option.some.inj happly)
  exact .done (holds_stable none rows) hleaving.finishUnbind (fun _ hlast => ⟨rfl, hlast⟩)

/-- What was bound so far is unbound, the first first. -/
theorem unbindDone_secures (howned : service.owned = true)
    {done : List ComponentBindingDecl} (hrows : rows.map BoundComponent.decl = done)
    (hholds : AppWorld.Holds service.id decls none rows world) :
    installSystem.Secures (installContract decls) (unbindDone service done)
      (.created service) world (fun _ view world => view = .created service ∧
        AppWorld.Holds service.id decls none [] world) := by
  induction rows generalizing done world with
  | nil =>
      subst hrows
      exact .done (holds_stable none []) hholds (fun _ hlast => ⟨rfl, hlast⟩)
  | cons row rows ih =>
      subst hrows
      refine (unbindComponentImpl_secures howned hholds).andThen ?_
      rintro _ view world ⟨rfl, hholds⟩
      exact ih rfl hholds

def LoopPost (service : ObjectHandle) (decls : List ComponentBindingDecl)
    (bound : Except Error Unit) (view : InstallView) (world : AppWorld) : Prop :=
  view = .created service ∧
    match bound with
    | .error _ => AppWorld.Holds service.id decls none [] world
    | .ok () => ∃ rows, AppWorld.Holds service.id decls none rows world ∧
        rows.map BoundComponent.decl = decls

theorem undo_secures (howned : service.owned = true) {done : List ComponentBindingDecl}
    (hrows : rows.map BoundComponent.decl = done)
    (hholds : AppWorld.Holds service.id decls none rows world) (error : Error) :
    installSystem.Secures (installContract decls)
      (do unbindDone service done; return (.error error : Except Error Unit))
      (.created service) world (LoopPost service decls) := by
  refine (unbindDone_secures howned hrows hholds).andThen ?_
  rintro _ view world ⟨rfl, hholds⟩
  exact .done (holds_stable none []) hholds (fun _ hlast => ⟨rfl, hlast⟩)

theorem bindDeclared_secures (howned : service.owned = true) (base : ObjectBase)
    {rest done : List ComponentBindingDecl} (hdecls : done ++ rest = decls)
    (hrows : rows.map BoundComponent.decl = done)
    (hholds : AppWorld.Holds service.id decls none rows world) :
    installSystem.Secures (installContract decls) (bindDeclared service base rest done)
      (.created service) world (LoopPost service decls) := by
  induction rest generalizing rows done world with
  | nil =>
      rw [List.append_nil] at hdecls
      subst hdecls
      exact .done (holds_stable none rows) hholds (fun _ hlast => ⟨rfl, rows, hlast, hrows⟩)
  | cons decl rest ih =>
      rw [bindDeclared]
      split
      case isTrue => exact undo_secures howned hrows hholds _
      case isFalse =>
        have hdecl : decl ∈ decls := hdecls ▸ List.mem_append_right _ List.mem_cons_self
        refine (bindComponentImpl_secures howned hholds hdecl).andThen ?_
        rintro (error | ⟨object, generation⟩) view world ⟨rfl, hbound⟩
        · exact undo_secures howned hrows hbound error
        -- the row is there already: `BindLocked`'s caller has written it once
        refine secures_write (holds_stable none _) hbound ?_
        intro world choice answer last hbound happly
        obtain rfl : _ = last := congrArg Prod.snd (Option.some.inj happly)
        refine ih (by rw [List.append_assoc]; exact hdecls) ?_
          (hbound.changeSubject (hbound.bindComponentEntry_eq
            (List.mem_append_right _ (List.mem_singleton.mpr rfl))))
        rw [List.map_append, hrows]
        rfl

theorem applyServiceBindings_secures (howned : service.owned = true)
    (hholds : AppWorld.Holds service.id decls none [] world) :
    installSystem.Secures (installContract decls) (applyServiceBindings service decls)
      (.created service) world (LoopPost service decls) := by
  refine secures_read (holds_stable none []) hholds (fun _ _ => trivial) ?_
  rintro world choice (_ | base) hholds hbase
  · exact .done (holds_stable none []) hholds (fun _ hlast => ⟨rfl, hlast⟩)
  · exact bindDeclared_secures howned base rfl rfl hholds

omit [Infra] in
theorem AppWorld.nothingBound_setState {world : AppWorld} {service : ObjectId}
    (hnothing : world.NothingBound service) (state : ObjectState) :
    AppWorld.NothingBound service
        { world with registry := world.registry.setStateLocked service state } ∧
      ∃ entry, (world.registry.setStateLocked service state).findEntryLocked service =
        some entry ∧ entry.state = state := by
  obtain ⟨hedges, allowed, hbase⟩ := hnothing
  obtain ⟨entry, hentry, hobject⟩ := Option.bind_eq_some_iff.mp hbase
  refine ⟨⟨?_, allowed, ?_⟩, { entry with state := state }, ?_, rfl⟩
  · intro component
    rw [← hedges component]
    unfold Registry.edgesOf
    dsimp only
    rw [Registry.setStateLocked, Registry.findEntryLocked_modify]
    by_cases heq : component = service
    · subst heq
      rw [if_pos rfl]
      cases world.registry.findEntryLocked component with
      | none => rfl
      | some entry => rfl
    · rw [if_neg heq]
  · refine (Registry.baseOf_modify _ _ _ ?_).trans hbase
    intro entry _
    rfl
  · rw [Registry.setStateLocked, Registry.findEntryLocked_modify, if_pos rfl, hentry]
    rfl

omit [Infra] in
theorem refused_stable (outcome : Outcome) (view : InstallView) :
    (installContract decls).Stable view (Refused outcome view) := by
  rintro world last hrefused hrely service rfl
  obtain ⟨herror, ⟨hedges, hbase⟩, hentry⟩ := hrefused service rfl
  have halone : AppWorld.LeavesAlone service.id decls world last := hrely
  refine ⟨herror, ⟨fun component => (halone.edges component).trans (hedges component), ?_⟩, ?_⟩
  · unfold Registry.baseOf
    rw [halone.entry]
    exact hbase
  · rw [halone.entry]
    exact hentry

theorem control_secures {program : Op (Except Error Unit)}
    (hsecures : installSystem.Secures (installContract decls) program view world
      (fun result => Refused (.control result))) :
    installSystem.Secures (installContract decls) (control program) view world Refused := by
  refine hsecures.andThen ?_
  intro result view world hrefused
  exact .done (refused_stable _ view) hrefused (fun _ hlast => hlast)

omit [Infra] in
theorem known_stable : (installContract decls).Stable .fresh AppWorld.SubjectsKnown :=
  fun _ _ _ hknown => hknown

/-- Before the service is created a call promises nothing. -/
theorem return_secures (hknown : world.SubjectsKnown) (result : Except Error Unit) :
    installSystem.Secures (installContract decls) (pure result) .fresh world
      (fun result => Refused (.control result)) :=
  .done known_stable hknown (fun _ _ => nofun)

/-- From `OnInstall` on neither. -/
theorem entered_secures (program : Op (Except Error Unit)) :
    installSystem.Secures (installContract decls) program .entered world
      (fun result => Refused (.control result)) :=
  .idle (fun _ _ => rfl) (fun _ _ => trivial) (fun _ _ => nofun)

theorem installCreated_secures (howned : service.owned = true)
    (hholds : AppWorld.Holds service.id decls none [] world) :
    installSystem.Secures (installContract decls)
      (do
        let bound : Except Error Unit ← applyServiceBindings service decls
        match bound with
        | .error error =>
            write (.setState service.id .installFailed)
            return .error error
        | .ok () =>
            let installed : Except Error Unit ← runServiceHook service.id .onInstall
            match installed with
            | .error error =>
                write (.setState service.id .installFailed)
                return .error error
            | .ok () => startInstalled service.id)
      (.created service) world (fun result => Refused (.control result)) := by
  refine (applyServiceBindings_secures howned hholds).andThen ?_
  rintro (error | ⟨⟩) view world ⟨rfl, hbound⟩
  · refine secures_write (holds_stable none []) hbound ?_
    intro world choice answer last hholds happly
    obtain rfl : _ = last := congrArg Prod.snd (Option.some.inj happly)
    have hset := AppWorld.nothingBound_setState hholds.nothingBound .installFailed
    refine .done (refused_stable (.control (.error error)) _) ?_ (fun _ hlast => hlast)
    rintro other ⟨⟩
    exact ⟨⟨error, rfl⟩, hset⟩
  · obtain ⟨rows, hholds, hrows⟩ := hbound
    have hentered : ∀ (next : Bool → Op (Except Error Unit)),
        installSystem.Secures (installContract decls)
          (read (.enterHook service.id .onInstall) >>= next) (.created service) world
          (fun result => Refused (.control result)) := by
      intro next
      refine secures_read (holds_stable none rows) hholds ?_ ?_
      · exact fun world hholds => ⟨rfl, hholds.allBound hrows⟩
      · exact fun world choice answer _ _ => entered_secures _
    exact hentered _

theorem installServiceImpl_secures (hknown : world.SubjectsKnown) (name : String)
    (allowed : List String) :
    installSystem.Secures (installContract decls) (installServiceImpl name allowed decls)
      .fresh world (fun result => Refused (.control result)) := by
  refine secures_read known_stable hknown (fun _ _ => trivial) ?_
  rintro world choice (state : AppState) hknown -
  change installSystem.Secures _ (if state = .stopped then _ else _) .fresh _ _
  split
  · exact return_secures hknown _
  refine secures_read known_stable hknown (fun _ _ => trivial) ?_
  rintro world choice (error | ⟨⟩) hknown _
  · exact return_secures hknown _
  refine secures_write known_stable hknown ?_
  rintro world choice (error | service) last hknown happly
  · have hlast : last = world := by
      obtain ⟨reason, hrefused⟩ | ⟨_, hcreated, -⟩ := world.createService_cases name allowed
      · cases hrefused.symm.trans (Option.some.inj happly)
        rfl
      · cases hcreated.symm.trans (Option.some.inj happly)
    exact return_secures (hlast ▸ hknown) _
  · obtain ⟨howned, hholds⟩ :=
      AppWorld.holds_createService hknown (Option.some.inj happly) decls
    exact installCreated_secures howned hholds

theorem main_secures (hknown : world.SubjectsKnown) (valid : Except Error Unit)
    (name : String) (allowed : List String) :
    installSystem.Secures (installContract decls)
      (Entry.main (.coInstallService valid name allowed decls)) .fresh world Refused := by
  refine control_secures ?_
  cases valid with
  | error error => exact return_secures hknown _
  | ok _ =>
      rw [coInstallService]
      split
      · exact return_secures hknown _
      · exact installServiceImpl_secures hknown name allowed

/-! ### Runs -/

/-- In every run the subjects of the edges are known. -/
theorem subjectsKnown_of_reachable {View : Type} {view : View}
    {discipline : Discipline Action Action.Answer View}
    {guard : AppPool View → AppStep → Prop} {pool : AppPool View}
    (hreach : (appSystem view discipline).machine.ReachableWhere guard pool) :
    pool.shared.SubjectsKnown := by
  refine hreach.induct (motive := fun pool => pool.shared.SubjectsKnown) ?_ ?_
  · rintro pool ⟨world, ⟨options, maxObjects, maxBindings, -, rfl⟩, rfl⟩ id entry hfind
    replace hfind : (AppWorld.freshRegistry maxObjects maxBindings).findEntryLocked id =
      some entry := hfind
    rw [AppWorld.freshRegistry, Registry.findEntryLocked_append] at hfind
    split at hfind
    · cases hfind
      rintro _ ⟨⟩
    · cases hfind
  · intro pool label last _ hknown _ hnext id later hfind edge hmem
    cases AppWorld.next_edgeStep hnext with
    | carries hcarries =>
        obtain ⟨earlier, hearlier, hdescends⟩ := hcarries.entries id later hfind
        obtain ⟨known, hmem, hsame⟩ := hdescends.subjects edge hmem
        rw [← hsame]
        exact Nat.lt_of_lt_of_le (hknown id earlier hearlier known hmem) hcarries.ids
    | created kind hcreated =>
        obtain hold | ⟨-, _, _, _, _, _, rfl⟩ := hcreated.find hfind
        · have hlt := hknown id later hold edge hmem
          obtain ⟨_, _, _, _, _, hlast⟩ := hcreated
          rw [hlast]
          exact Nat.lt_succ_of_lt hlt
        · cases hmem
    | bound subject key target component made change hasked hchecks hlast =>
        rw [hlast] at hfind ⊢
        obtain ⟨earlier, hearlier, -, -, hedges⟩ := AppWorld.find_withEdge hfind
        rw [AppWorld.nextIdSeq_changeSubject]
        obtain ⟨known, hknown', hsame⟩ | ⟨-, hsame⟩ := hedges edge hmem
        · rw [← hsame]
          exact hknown id earlier hearlier known hknown'
        · rw [hsame]
          obtain ⟨-, -, -, -, ⟨owner, howner, -⟩, -, -⟩ := AppWorld.bindChecks_ok hchecks
          have hlt : subject.id.number < pool.shared.registry.nextIdSeq :=
            Registry.number_lt_of_find howner
          exact hlt

/-- While the thread applies the bindings of its service, the steps of the others leave
them alone: no call touches the service or a declared component under its name, and nobody
binds, unbinds or borrows through an edge of the service. -/
def Undisturbed (thread : Nat) (decls : List ComponentBindingDecl)
    (pool : AppPool InstallView) (label : AppStep) : Prop :=
  label.actor = some thread ∨ ∀ service last, pool.views thread = .created service →
    installSystem.next pool label = some last →
      AppWorld.LeavesAlone service.id decls pool.shared last.shared

/-- An installation that created its service and returns without entering `OnInstall`
returns an error, leaves no edge of the service and no row, and the service is
`InstallFailed`.  One that enters it has bound every declaration once.  At no point does
it wait for a borrow. -/
theorem declared_bindings_all_or_nothing {pool last : AppPool InstallView}
    {valid : Except Error Unit} {name : String} {allowed : List String}
    {labels : List AppStep} (hreach : installSystem.machine.Reachable pool)
    (hrun : installSystem.machine.Run (Undisturbed pool.count decls) pool
      (.spawn (.coInstallService valid name allowed decls) :: labels) last)
    (hcreated : last.views pool.count = .created service) :
    (∀ outcome, (last.threads pool.count).returned = some outcome →
      (∃ error, outcome = .control (.error error)) ∧
        last.shared.NothingBound service.id ∧
        ∃ entry, last.shared.registry.findEntryLocked service.id = some entry ∧
          entry.state = .installFailed) ∧
    (∀ id hook, (last.threads pool.count).asks = some (.query (.enterHook id hook)) →
      id = service.id ∧ last.shared.AllBound service.id decls) ∧
    ∀ component subject generation, (last.threads pool.count).asks ≠
      some (.query (.awaitBinding component subject generation)) := by
  obtain ⟨first, -, hspawn, hrest⟩ := hrun.uncons
  have hfirst := hreach.step trivial hspawn
  obtain rfl := Option.some.inj hspawn
  have hsecures : installSystem.Secures (installContract decls) (last.threads pool.count)
      (last.views pool.count) last.shared Refused := by
    refine System.Secures.run (Nat.lt_succ_self _) ?_ ?_
      (fun _ _ _ _ _ _ _ _ _ _ => trivial) hrest
    · dsimp only
      rw [Function.update_self, System.views_of_ge hreach pool.count (Nat.le_refl _)]
      exact main_secures (subjectsKnown_of_reachable hreach) valid name allowed
    · intro performed middle label after hbefore hguard hothers hnext
      have hmiddle := hfirst.run (hbefore.mono (fun _ _ _ => trivial))
      cases hview : middle.views pool.count with
      | fresh => exact subjectsKnown_of_reachable (hmiddle.step trivial hnext)
      | created service =>
          obtain hself | halone := hguard
          · exact absurd hself hothers
          · exact halone service after hview hnext
      | entered => trivial
  rw [hcreated] at hsecures
  refine ⟨fun outcome hreturned => hsecures.returned hreturned service rfl, ?_, ?_⟩
  · exact fun id hook hasks => hsecures.asked hasks
  · exact fun _ _ _ hasks => hsecures.asked hasks

/-- A call that is started disturbs nobody yet. -/
theorem undisturbed_of_check {thread : Nat} {pool : AppPool InstallView} {label : AppStep}
    (hcheck : label.actor = some thread ∨ label.spawned.isSome = true) :
    Undisturbed thread decls pool label := by
  refine hcheck.imp_right ?_
  intro hspawned service last _ hnext
  cases label with
  | spawn entry =>
      cases hnext
      exact ⟨rfl, fun _ => rfl, fun _ _ => rfl⟩
  | step thread choice => cases hspawned
  | env event => cases hspawned

end

def Action.hookEntered : Action → Option (ObjectId × Hook)
  | .query (.enterHook id hook) => some (id, hook)
  | _ => none

theorem Action.asked_hookEntered {asked : Option Action} {id : ObjectId} {hook : Hook}
    (hentered : asked.bind Action.hookEntered = some (id, hook)) :
    asked = some (.query (.enterHook id hook)) := by
  obtain ⟨act, rfl, hact⟩ := Option.bind_eq_some_iff.mp hentered
  cases act with
  | query query =>
      cases query with
      | enterHook other entered =>
          cases hact
          rfl
      | _ => cases hact
  | command command => cases hact

/-- The second of two declarations names a component that is missing, or both are there. -/
theorem declared_bindings_all_or_nothing_both :
    letI := permissiveInfra
    let decls : List ComponentBindingDecl := [⟨"A", "a"⟩, ⟨"A", "b"⟩]
    (∃ last : AppPool InstallView, ∃ service, last.views 1 = .created service ∧
      (∃ error, (last.threads 1).returned = some (.control (.error error))) ∧
      last.shared.NothingBound service.id) ∧
    ∃ last : AppPool InstallView, ∃ service id hook, last.views 2 = .created service ∧
      (last.threads 2).asks = some (.query (.enterHook id hook)) ∧ id = service.id ∧
      last.shared.AllBound service.id decls := by
  let _ := permissiveInfra
  intro decls
  have hboot : installSystem.machine.Reachable
      (installSystem.boot (AppWorld.fresh (.ok ()) 10 10)) :=
    .start ⟨_, start_fresh 10 10 (by decide), rfl⟩
  have hlater : ∀ (thread : Nat) (pool : AppPool InstallView) (label : AppStep),
      decide (label.actor = some thread ∨ label.spawned.isSome = true) = true →
      Undisturbed thread decls pool label :=
    fun _ _ _ hcheck => undisturbed_of_check (of_decide_eq_true hcheck)
  constructor
  · let service : ObjectHandle := ⟨true, ⟨.service, 2⟩, 3⟩
    obtain ⟨pool, last, hreach, hrun, htest⟩ := hboot.exec_then
      (fun _ _ => true) (fun _ _ _ => trivial) _ (hlater 1)
      (.spawn (.coInstallComponent "A" "a" ⟨.app, none⟩) :: List.replicate 8 (smoothStep 0))
      (.spawn (.coInstallService (.ok ()) "S" ["A"] decls) ::
        List.replicate 14 (smoothStep 1))
      (fun pool last => pool.count = 1 ∧ last.views 1 = .created service ∧
        (last.threads 1).returned.isSome = true)
      (by decide)
    obtain ⟨hcount, hview, hreturned⟩ := of_decide_eq_true htest
    rw [← hcount] at hrun hview hreturned ⊢
    obtain ⟨outcome, houtcome⟩ := Option.isSome_iff_exists.mp hreturned
    obtain ⟨⟨error, rfl⟩, hnothing, -⟩ :=
      (declared_bindings_all_or_nothing hreach hrun hview).1 outcome houtcome
    exact ⟨last, service, hview, ⟨error, houtcome⟩, hnothing⟩
  · let service : ObjectHandle := ⟨true, ⟨.service, 3⟩, 4⟩
    obtain ⟨pool, last, hreach, hrun, htest⟩ := hboot.exec_then
      (fun _ _ => true) (fun _ _ _ => trivial) _ (hlater 2)
      ([.spawn (.coInstallComponent "A" "a" ⟨.app, none⟩),
        .spawn (.coInstallComponent "A" "b" ⟨.app, none⟩)] ++
        List.replicate 8 (smoothStep 0) ++ List.replicate 8 (smoothStep 1))
      (.spawn (.coInstallService (.ok ()) "S" ["A"] decls) ::
        List.replicate 10 (smoothStep 2))
      (fun pool last => pool.count = 2 ∧ last.views 2 = .created service ∧
        (last.threads 2).asks.bind Action.hookEntered = some (⟨.service, 3⟩, .onInstall))
      (by decide)
    obtain ⟨hcount, hview, hentered⟩ := of_decide_eq_true htest
    have hasks := Action.asked_hookEntered hentered
    rw [← hcount] at hrun hview hasks ⊢
    obtain ⟨hid, hbound⟩ :=
      (declared_bindings_all_or_nothing hreach hrun hview).2.1 _ _ hasks
    exact ⟨last, service, _, _, hview, hasks, hid, hbound⟩

end BbtFramework.App
