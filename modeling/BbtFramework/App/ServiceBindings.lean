import BbtFramework.App.ComponentTable

/-!
# The bindings of one service

What a service that is being installed holds: its edges and its rows.  As long as nobody
else touches them, every action of the installation changes them by one binding or not
at all.
-/

namespace BbtFramework.App

open BbtFramework.Library

namespace Registry

def edgesOf (registry : Registry) (subject component : ObjectId) : List Binding :=
  match registry.findEntryLocked component with
  | none => []
  | some entry => entry.bindings.filter (fun edge => edge.subjectId = subject)

theorem edgesOf_of_find {registry : Registry} {component : ObjectId} {entry : RegistryEntry}
    (subject : ObjectId) (hfind : registry.findEntryLocked component = some entry) :
    registry.edgesOf subject component =
      entry.bindings.filter (fun edge => edge.subjectId = subject) := by
  rw [edgesOf, hfind]

theorem openEdge_filter (subject : ObjectId) (edges : List Binding) :
    openEdge subject edges =
      openEdge subject (edges.filter (fun edge => edge.subjectId = subject)) := by
  unfold openEdge
  rw [List.find?_filter]
  congr 1
  funext edge
  by_cases hsubject : edge.subjectId = subject
  · simp [hsubject]
  · simp [hsubject]

theorem filter_sealEdge (subject : ObjectId) (edges : List Binding) :
    (sealEdge subject edges).filter (fun edge => edge.subjectId = subject) =
      sealEdge subject (edges.filter (fun edge => edge.subjectId = subject)) := by
  induction edges with
  | nil => rfl
  | cons edge rest ih =>
      by_cases hsubject : edge.subjectId = subject
      · by_cases hretiring : edge.retiring = true
        · simp [sealEdge, hsubject, hretiring, ih]
        · simp [sealEdge, hsubject, hretiring]
      · simp [sealEdge, hsubject, ih]

theorem filter_eraseBinding (component : RegistryEntry) (subject : ObjectId)
    (generation : Nat) :
    (eraseBindingLocked component subject generation).bindings.filter
        (fun edge => edge.subjectId = subject) =
      (component.bindings.filter (fun edge => edge.subjectId = subject)).eraseP
        (fun edge => edge.subjectId = subject ∧ edge.generation = generation ∧
          edge.retiring) := by
  unfold eraseBindingLocked
  induction component.bindings with
  | nil => rfl
  | cons edge rest ih =>
      dsimp only at ih ⊢
      by_cases hsubject : edge.subjectId = subject
      · by_cases herased : edge.generation = generation ∧ edge.retiring = true
        · simp [hsubject, herased]
        · rw [List.filter_cons_of_pos (by simpa using hsubject),
            List.eraseP_cons_of_neg (by simpa [hsubject] using herased),
            List.eraseP_cons_of_neg (by simpa [hsubject] using herased),
            List.filter_cons_of_pos (by simpa using hsubject), ih]
      · rw [List.filter_cons_of_neg (by simpa using hsubject),
          List.eraseP_cons_of_neg (by simp [hsubject]),
          List.filter_cons_of_neg (by simpa using hsubject), ih]

/-- The object behind an id. -/
def baseOf (registry : Registry) (id : ObjectId) : Option ObjectBase :=
  (registry.findEntryLocked id).bind RegistryEntry.object

theorem baseOf_modify (registry : Registry) (id other : ObjectId)
    {change : RegistryEntry → RegistryEntry}
    (hchange : ∀ entry, registry.findEntryLocked id = some entry →
      (change entry).object = entry.object) :
    (registry.modify id change).baseOf other = registry.baseOf other := by
  unfold baseOf
  rw [findEntryLocked_modify]
  split
  case isTrue heq =>
    subst heq
    cases hfind : registry.findEntryLocked other with
    | none => rfl
    | some entry => exact hchange entry hfind
  case isFalse => rfl

/-- Where a component is looked for. -/
def place (entry : RegistryEntry) : ComponentScope × Option ObjectId × String × String :=
  (entry.scope, entry.ownerId, entry.typeName, entry.name)

/-- Entries that stay where they are are found as before. -/
theorem findComponentLocked_congr {before after : Registry}
    (hids : after.listIdsLocked = before.listIdsLocked)
    (hplace : ∀ id, (after.findEntryLocked id).map place =
      (before.findEntryLocked id).map place)
    (scope : ComponentScope) (ownerId : Option ObjectId) (type name : String) :
    after.findComponentLocked scope ownerId type name =
      before.findComponentLocked scope ownerId type name := by
  unfold findComponentLocked listWhere listIdsByKindLocked
  rw [hids]
  congr 1
  refine List.filter_congr ?_
  intro id _
  have hsame := hplace id
  cases hafter : after.findEntryLocked id with
  | none =>
      rw [hafter, Option.map_none, eq_comm, Option.map_eq_none_iff] at hsame
      rw [hsame]
  | some later =>
      rw [hafter, Option.map_some, eq_comm, Option.map_eq_some_iff] at hsame
      obtain ⟨earlier, hearlier, heq⟩ := hsame
      rw [hearlier]
      obtain ⟨hscope, howner, htype, hname⟩ : _ ∧ _ ∧ _ ∧ _ := by
        simpa only [place, Prod.mk.injEq] using heq
      simp only [Option.any_some, hscope, howner, htype, hname]

theorem listIdsLocked_modifyAll (registry : Registry)
    (change : ObjectId → RegistryEntry → RegistryEntry) :
    (registry.modifyAll change).listIdsLocked = registry.listIdsLocked :=
  congrArg List.reverse (Table.keys_mapValues registry.entries change)

theorem findComponentLocked_modify (registry : Registry) (id : ObjectId)
    {change : RegistryEntry → RegistryEntry}
    (hchange : ∀ entry, registry.findEntryLocked id = some entry →
      place (change entry) = place entry)
    (scope : ComponentScope) (ownerId : Option ObjectId) (type name : String) :
    (registry.modify id change).findComponentLocked scope ownerId type name =
      registry.findComponentLocked scope ownerId type name := by
  have hids : (registry.modify id change).listIdsLocked = registry.listIdsLocked :=
    listIdsLocked_modifyAll registry _
  refine findComponentLocked_congr hids ?_ scope ownerId type name
  intro other
  rw [findEntryLocked_modify]
  split
  case isTrue heq =>
    subst heq
    cases hfind : registry.findEntryLocked other with
    | none => rfl
    | some entry => exact congrArg some (hchange entry hfind)
  case isFalse => rfl

end Registry

def BoundComponent.decl (row : BoundComponent) : ComponentBindingDecl :=
  ⟨row.type, row.name⟩

/-- The edge of a row; the edges on the component `leaving` are sealed. -/
def BoundComponent.edge (row : BoundComponent) (service : ObjectId)
    (leaving : Option ObjectId) : Binding where
  subjectId := service
  generation := row.bindingGeneration
  active := leaving ≠ some row.object.id
  retiring := leaving = some row.object.id
  borrows := 0

namespace AppWorld

structure Holds (service : ObjectId) (decls : List ComponentBindingDecl)
    (leaving : Option ObjectId) (rows : List BoundComponent) (world : AppWorld) : Prop where
  table : ∃ allowed, world.registry.baseOf service = some ⟨allowed, rows⟩
  edges : ∀ component, world.registry.edgesOf service component =
    (rows.filter (fun row => row.object.id = component)).map
      (fun row => row.edge service leaving)
  declared : ∀ row ∈ rows, row.decl ∈ decls
  named : ∀ row ∈ rows, world.registry.findComponentLocked .app none row.type row.name =
    some row.object.id
  apart : (rows.map (fun row => row.object.id)).Nodup

structure LeavesAlone (service : ObjectId) (decls : List ComponentBindingDecl)
    (world last : AppWorld) : Prop where
  entry : last.registry.findEntryLocked service = world.registry.findEntryLocked service
  edges : ∀ component, last.registry.edgesOf service component =
    world.registry.edgesOf service component
  named : ∀ decl ∈ decls, last.registry.findComponentLocked .app none decl.componentType
    decl.name = world.registry.findComponentLocked .app none decl.componentType decl.name

variable {world last : AppWorld} {service : ObjectId} {decls : List ComponentBindingDecl}
variable {leaving : Option ObjectId} {rows : List BoundComponent} {row : BoundComponent}

namespace Holds

theorem undisturbed (hholds : Holds service decls leaving rows world)
    (halone : LeavesAlone service decls world last) :
    Holds service decls leaving rows last where
  table := by
    unfold Registry.baseOf
    rw [halone.entry]
    exact hholds.table
  edges := fun component => (halone.edges component).trans (hholds.edges component)
  declared := hholds.declared
  named := fun row hmem =>
    (halone.named row.decl (hholds.declared row hmem)).trans (hholds.named row hmem)
  apart := hholds.apart

theorem row_eq (hholds : Holds service decls leaving rows world) {other : BoundComponent}
    (hrow : row ∈ rows) (hother : other ∈ rows) (hkey : other.decl = row.decl) :
    other = row := by
  obtain ⟨htype, hname⟩ : other.type = row.type ∧ other.name = row.name := by
    simpa only [BoundComponent.decl, ComponentBindingDecl.mk.injEq] using hkey
  have hfound := hholds.named other hother
  rw [htype, hname, hholds.named row hrow] at hfound
  exact List.inj_on_of_nodup_map hholds.apart hother hrow (Option.some.inj hfound).symm

theorem filter_row (hholds : Holds service decls leaving rows world) (hrow : row ∈ rows) :
    rows.filter (fun other => other.object.id = row.object.id) = [row] := by
  have hself : rows.filter (fun other => other.object.id = row.object.id) =
      rows.filter (fun other => other = row) := by
    refine List.filter_congr ?_
    intro other hmem
    refine decide_eq_decide.mpr ⟨fun hsame => ?_, fun hsame => by rw [hsame]⟩
    exact List.inj_on_of_nodup_map hholds.apart hmem hrow hsame
  rw [hself, List.filter_eq, List.count_eq_one_of_mem hholds.apart.of_map hrow]
  rfl

theorem edgesOf_row (hholds : Holds service decls leaving rows world) (hrow : row ∈ rows) :
    world.registry.edgesOf service row.object.id = [row.edge service leaving] := by
  rw [hholds.edges, hholds.filter_row hrow]
  rfl

theorem edgesOf_free (hholds : Holds service decls leaving rows world) {component : ObjectId}
    (hfree : ∀ row ∈ rows, row.object.id ≠ component) :
    world.registry.edgesOf service component = [] := by
  rw [hholds.edges, List.map_eq_nil_iff, List.filter_eq_nil_iff]
  intro row hmem hsame
  exact hfree row hmem (of_decide_eq_true hsame)

end Holds

/-! ## The actions -/

theorem baseOf_changeSubject (world : AppWorld) (subject : ObjectId)
    (change : ObjectBase → ObjectBase) :
    (world.changeSubject subject change).registry.baseOf subject =
      (world.registry.baseOf subject).map change := by
  unfold Registry.baseOf
  rw [findEntryLocked_changeSubject]
  cases world.registry.findEntryLocked subject with
  | none => rfl
  | some entry => simp

theorem edgesOf_changeSubject (world : AppWorld) (subject : ObjectId)
    (change : ObjectBase → ObjectBase) (service component : ObjectId) :
    (world.changeSubject subject change).registry.edgesOf service component =
      world.registry.edgesOf service component := by
  unfold Registry.edgesOf
  rw [findEntryLocked_changeSubject]
  cases hfind : world.registry.findEntryLocked component with
  | none => rfl
  | some entry =>
      rw [Option.map_some]
      dsimp only
      split
      · rfl
      · rfl

theorem findComponentLocked_changeSubject (world : AppWorld) (subject : ObjectId)
    (change : ObjectBase → ObjectBase) (scope : ComponentScope) (ownerId : Option ObjectId)
    (type name : String) :
    (world.changeSubject subject change).registry.findComponentLocked scope ownerId type
      name = world.registry.findComponentLocked scope ownerId type name := by
  obtain hsame | ⟨hsame, -⟩ | ⟨hsame, -⟩ := world.changeSubject_cases subject change
  · rw [hsame]
  · rw [hsame]
  · rw [hsame]
    refine Registry.findComponentLocked_modify _ _ ?_ _ _ _ _
    intro entry _
    rfl

/-- The table of the service changes, and the edges do not. -/
theorem Holds.changeSubject (hholds : Holds service decls leaving rows world)
    {change : ObjectBase → ObjectBase}
    (hchange : ∀ allowed, change ⟨allowed, rows⟩ = ⟨allowed, rows⟩) :
    Holds service decls leaving rows (world.changeSubject service change) where
  table := by
    obtain ⟨allowed, hbase⟩ := hholds.table
    exact ⟨allowed, by rw [baseOf_changeSubject, hbase, Option.map_some, hchange]⟩
  edges := fun component => (edgesOf_changeSubject _ _ _ _ _).trans (hholds.edges component)
  declared := hholds.declared
  named := fun row hmem =>
    (findComponentLocked_changeSubject _ _ _ _ _ _ _).trans (hholds.named row hmem)
  apart := hholds.apart

/-- Writing a row again changes nothing. -/
theorem Holds.bindComponentEntry_eq (hholds : Holds service decls leaving rows world)
    (hrow : row ∈ rows) (allowed : List String) :
    ObjectBase.bindComponentEntry ⟨allowed, rows⟩ row.type row.name row.object
      row.bindingGeneration = ⟨allowed, rows⟩ := by
  unfold ObjectBase.bindComponentEntry
  rw [if_pos (List.any_eq_true.mpr ⟨row, hrow, by simp⟩)]
  have hrows : rows.map (fun other => if other.type = row.type ∧ other.name = row.name then
      { other with object := row.object, bindingGeneration := row.bindingGeneration }
        else other) = rows := by
    refine (List.map_congr_left ?_).trans (List.map_id rows)
    intro other hmem
    split
    case isTrue hkey =>
      have hdecl : other.decl = row.decl := by
        rw [BoundComponent.decl, BoundComponent.decl, hkey.1, hkey.2]
      obtain rfl := hholds.row_eq hrow hmem hdecl
      rfl
    case isFalse => rfl
  dsimp only
  rw [hrows]

section

variable [Infra]

omit [Infra] in
theorem findComponentLocked_withEdge (world : AppWorld) (id subject : ObjectId)
    (scope : ComponentScope) (ownerId : Option ObjectId) (type name : String) :
    (world.withEdge id subject).registry.findComponentLocked scope ownerId type name =
      world.registry.findComponentLocked scope ownerId type name := by
  refine (Registry.findComponentLocked_modify _ _ ?_ _ _ _ _).trans rfl
  intro entry _
  rfl

omit [Infra] in
theorem edgesOf_withEdge (world : AppWorld) {id : ObjectId} {entry : RegistryEntry}
    (hfind : world.registry.findEntryLocked id = some entry) (subject component : ObjectId) :
    (world.withEdge id subject).registry.edgesOf subject component =
      world.registry.edgesOf subject component ++
        if component = id then [world.newEdge subject] else [] := by
  by_cases heq : component = id
  · subst heq
    have hbound : (world.withEdge component subject).registry.findEntryLocked component =
        some { entry with bindings := entry.bindings ++ [world.newEdge subject] } := by
      rw [withEdge, Registry.findEntryLocked_modify, if_pos rfl]
      exact congrArg (Option.map _) hfind
    rw [Registry.edgesOf_of_find _ hbound, Registry.edgesOf_of_find _ hfind, if_pos rfl,
      List.filter_append]
    simp [newEdge]
  · unfold Registry.edgesOf
    rw [withEdge, Registry.findEntryLocked_modify, if_neg heq, if_neg heq, List.append_nil]
    rfl

/-- A declaration that is bound adds its row and its edge. -/
theorem Holds.bindComponent (hholds : Holds service decls none rows world)
    {subject : ObjectHandle} (hsubject : subject.id = service)
    {decl : ComponentBindingDecl} (hdecl : decl ∈ decls) {object : ObjectHandle}
    {generation : Nat} (hbind : world.bindComponent subject
      ⟨decl.componentType, decl.name, .app, none⟩ = (.ok (object, generation), last)) :
    Holds service decls none
      (rows ++ [⟨decl.componentType, decl.name, object, generation⟩]) last := by
  subst hsubject
  obtain ⟨error, hrefused⟩ | ⟨id, component, edge, hchecks, hbound⟩ :=
    world.bindComponent_writes subject ⟨decl.componentType, decl.name, .app, none⟩
  · rw [hrefused] at hbind
    cases hbind
  rw [hbound] at hbind
  cases hbind
  obtain ⟨-, hcomponent, -, -, -, hopen, -⟩ := bindChecks_ok hchecks
  obtain ⟨hfound, -⟩ := bindChecks_found hchecks
  have hnew : ∀ row ∈ rows, row.object.id ≠ id := by
    rintro row hrow rfl
    have hedges := hholds.edgesOf_row hrow
    rw [Registry.edgesOf_of_find _ hcomponent] at hedges
    have hmem : row.edge subject.id none ∈ component.bindings :=
      (List.mem_filter.mp (hedges ▸ List.mem_singleton.mpr rfl)).1
    exact absurd (hopen _ hmem rfl) (by simp [BoundComponent.edge])
  have hkey : ∀ row ∈ rows, ¬(row.type = decl.componentType ∧ row.name = decl.name) := by
    rintro row hrow ⟨htype, hname⟩
    have hnamed := hholds.named row hrow
    rw [htype, hname] at hnamed
    exact hnew row hrow (Option.some.inj (hnamed.symm.trans hfound))
  refine ⟨?_, ?_, ?_, ?_, ?_⟩
  · obtain ⟨allowed, hbase⟩ := hholds.table
    have hany : ¬(rows.any (fun row => row.type = decl.componentType ∧
        row.name = decl.name) = true) := by
      rw [List.any_eq_true]
      rintro ⟨row, hrow, hmatch⟩
      exact hkey row hrow (of_decide_eq_true hmatch)
    refine ⟨allowed, ?_⟩
    have hkept : (world.withEdge id subject.id).registry.baseOf subject.id =
        some ⟨allowed, rows⟩ := by
      refine (Registry.baseOf_modify world.registry.bumpGeneration id _ ?_).trans hbase
      intro entry _
      rfl
    rw [baseOf_changeSubject, hkept, Option.map_some, ObjectBase.bindComponentEntry,
      if_neg hany]
  · intro other
    rw [edgesOf_changeSubject, edgesOf_withEdge world hcomponent, hholds.edges,
      List.filter_append, List.map_append]
    congr 1
    split
    case isTrue heq =>
      subst heq
      rw [List.filter_cons_of_pos (by simp [Registry.makeHandle])]
      rfl
    case isFalse hne =>
      rw [List.filter_cons_of_neg (by simp [Registry.makeHandle, Ne.symm hne])]
      rfl
  · intro row hrow
    rcases List.mem_append.mp hrow with hrow | hrow
    · exact hholds.declared row hrow
    · obtain rfl := List.mem_singleton.mp hrow
      exact hdecl
  · intro row hrow
    rw [findComponentLocked_changeSubject, findComponentLocked_withEdge]
    rcases List.mem_append.mp hrow with hrow | hrow
    · exact hholds.named row hrow
    · obtain rfl := List.mem_singleton.mp hrow
      exact hfound
  · rw [List.map_append]
    refine List.Nodup.append hholds.apart (List.nodup_singleton _) ?_
    intro other hold hother
    obtain ⟨row, hrow, rfl⟩ := List.mem_map.mp hold
    exact hnew row hrow (List.mem_singleton.mp hother)

omit [Infra] in
theorem edgesOf_store (world : AppWorld) {id : ObjectId} {entry : RegistryEntry}
    (hfind : world.registry.findEntryLocked id = some entry) (later : RegistryEntry)
    (subject component : ObjectId) :
    (world.store id later).registry.edgesOf subject component =
      if component = id then later.bindings.filter (fun edge => edge.subjectId = subject)
      else world.registry.edgesOf subject component := by
  unfold Registry.edgesOf
  rw [store, Registry.findEntryLocked_modify]
  by_cases heq : component = id
  · rw [if_pos heq, if_pos heq, hfind, Option.map_some]
  · rw [if_neg heq, if_neg heq]

/-- The way back starts with the edge of the first row. -/
theorem Holds.beginUnbind (hholds : Holds service decls none (row :: rows) world)
    {answer : Except Error EdgeName}
    (hbegin : world.beginUnbind service ⟨row.type, row.name, .app, none⟩ = (answer, last)) :
    answer = .ok (row.object.id, row.bindingGeneration) ∧
      Holds service decls (some row.object.id) (row :: rows) last := by
  have hfound := hholds.named row List.mem_cons_self
  obtain ⟨hkind, component, hcomponent⟩ := Registry.findComponentLocked_some hfound
  have hedges := hholds.edgesOf_row List.mem_cons_self
  rw [Registry.edgesOf_of_find _ hcomponent] at hedges
  have hopen : Registry.openEdge service component.bindings = some (row.edge service none) := by
    rw [Registry.openEdge_filter, hedges]
    simp [Registry.openEdge, BoundComponent.edge]
  have hbegins : Registry.beginUnbindLocked component service =
      .ok (row.bindingGeneration, { component with
        bindings := Registry.sealEdge service component.bindings }) := by
    rw [Registry.beginUnbindLocked, hopen]
    rfl
  rw [AppWorld.beginUnbind, hfound] at hbegin
  dsimp only at hbegin
  rw [hcomponent] at hbegin
  dsimp only at hbegin
  rw [hbegins] at hbegin
  cases hbegin
  refine ⟨rfl, ?_, ?_, hholds.declared, ?_, hholds.apart⟩
  · obtain ⟨allowed, hbase⟩ := hholds.table
    refine ⟨allowed, (Registry.baseOf_modify _ _ _ ?_).trans hbase⟩
    intro entry hentry
    rw [hcomponent] at hentry
    cases hentry
    rfl
  · intro other
    rw [edgesOf_store world hcomponent]
    by_cases heq : other = row.object.id
    · subst heq
      rw [if_pos rfl, Registry.filter_sealEdge, hedges, hholds.filter_row List.mem_cons_self]
      simp [Registry.sealEdge, BoundComponent.edge]
    · rw [if_neg heq, hholds.edges]
      refine List.map_congr_left ?_
      intro found hmem
      have hid := of_decide_eq_true (List.mem_filter.mp hmem).2
      have hne : row.object.id ≠ found.object.id := fun hsame => heq (hid ▸ hsame.symm)
      simp [BoundComponent.edge, hne]
  · intro other hmem
    refine (Registry.findComponentLocked_modify _ _ ?_ _ _ _ _).trans
      (hholds.named other hmem)
    intro entry hentry
    rw [hcomponent] at hentry
    cases hentry
    rfl

omit [Infra] in
/-- Nobody has borrowed through the edge that is sealed. -/
theorem Holds.drained (hholds : Holds service decls leaving rows world) (hrow : row ∈ rows) :
    world.registry.bindingDrained row.object.id service row.bindingGeneration = true := by
  have hedges := hholds.edgesOf_row hrow
  unfold Registry.bindingDrained
  cases hfind : world.registry.findEntryLocked row.object.id with
  | none => rfl
  | some entry =>
      rw [Registry.edgesOf_of_find _ hfind] at hedges
      dsimp only
      split
      · rfl
      case h_2 edge hedge =>
        have hfound := List.find?_some hedge
        have hmem : edge ∈ entry.bindings.filter (fun edge => edge.subjectId = service) :=
          List.mem_filter.mpr ⟨List.mem_of_find?_eq_some hedge,
            decide_eq_true (of_decide_eq_true hfound).1⟩
        rw [hedges, List.mem_singleton] at hmem
        rw [hmem]
        rfl

omit [Infra] in
/-- The way back erases the edge and the row. -/
theorem Holds.finishUnbind
    (hholds : Holds service decls (some row.object.id) (row :: rows) world) :
    Holds service decls none rows (world.finishUnbind row.object.id service
      row.bindingGeneration row.type row.name) := by
  obtain ⟨hgone, hapart⟩ := List.nodup_cons.mp hholds.apart
  have hothers : ∀ other ∈ rows, other.object.id ≠ row.object.id :=
    fun other hmem hsame => hgone (List.mem_map.mpr ⟨other, hmem, hsame⟩)
  refine ⟨?_, ?_, fun other hmem => hholds.declared other (List.mem_cons_of_mem _ hmem), ?_,
    hapart⟩
  · obtain ⟨allowed, hbase⟩ := hholds.table
    have hkept : ({ world with registry := world.registry.modify row.object.id (fun entry =>
        Registry.eraseBindingLocked entry service row.bindingGeneration) } :
        AppWorld).registry.baseOf service = some ⟨allowed, row :: rows⟩ := by
      refine (Registry.baseOf_modify _ _ _ ?_).trans hbase
      intro entry _
      rfl
    refine ⟨allowed, ?_⟩
    rw [AppWorld.finishUnbind, baseOf_changeSubject, hkept, Option.map_some,
      ObjectBase.unbindComponentEntry, List.eraseP_cons_of_pos (by simp)]
  · intro other
    rw [AppWorld.finishUnbind, edgesOf_changeSubject]
    by_cases heq : other = row.object.id
    · subst heq
      have hnone : rows.filter (fun other => other.object.id = row.object.id) = [] :=
        List.filter_eq_nil_iff.mpr
          (fun found hmem hsame => hothers found hmem (of_decide_eq_true hsame))
      rw [hnone, List.map_nil]
      have hedges := hholds.edgesOf_row List.mem_cons_self
      unfold Registry.edgesOf
      rw [Registry.findEntryLocked_modify, if_pos rfl]
      cases hfind : world.registry.findEntryLocked row.object.id with
      | none => rfl
      | some entry =>
          rw [Registry.edgesOf_of_find _ hfind] at hedges
          rw [Option.map_some]
          dsimp only
          rw [Registry.filter_eraseBinding, hedges]
          simp [BoundComponent.edge]
    · have hsame : ({ world with registry := world.registry.modify row.object.id (fun entry =>
          Registry.eraseBindingLocked entry service row.bindingGeneration) } :
          AppWorld).registry.edgesOf service other = world.registry.edgesOf service other := by
        unfold Registry.edgesOf
        rw [Registry.findEntryLocked_modify, if_neg heq]
      rw [hsame, hholds.edges, List.filter_cons_of_neg (by simpa using Ne.symm heq)]
      refine List.map_congr_left ?_
      intro found hmem
      have hne := hothers found (List.mem_filter.mp hmem).1
      simp [BoundComponent.edge, Ne.symm hne]
  · intro other hmem
    rw [AppWorld.finishUnbind, findComponentLocked_changeSubject]
    refine (Registry.findComponentLocked_modify _ _ ?_ _ _ _ _).trans
      (hholds.named other (List.mem_cons_of_mem _ hmem))
    intro entry _
    rfl

end

/-! ## All or nothing -/

/-- No edge of the service is left, and its table is empty. -/
def NothingBound (service : ObjectId) (world : AppWorld) : Prop :=
  (∀ component, world.registry.edgesOf service component = []) ∧
    ∃ allowed, world.registry.baseOf service = some ⟨allowed, []⟩

/-- The declarations differ, the table has a row for each of them in their order, the
component a row names has one edge of the service, active and of the row's generation, and
no other component has any. -/
def AllBound (service : ObjectId) (decls : List ComponentBindingDecl) (world : AppWorld) :
    Prop :=
  decls.Nodup ∧ ∃ allowed rows, world.registry.baseOf service = some ⟨allowed, rows⟩ ∧
    rows.map BoundComponent.decl = decls ∧
    (rows.map (fun row => row.object.id)).Nodup ∧
    (∀ row ∈ rows,
      world.registry.findComponentLocked .app none row.type row.name = some row.object.id ∧
        world.registry.edgesOf service row.object.id =
          [⟨service, row.bindingGeneration, true, false, 0⟩]) ∧
    ∀ component, (∀ row ∈ rows, row.object.id ≠ component) →
      world.registry.edgesOf service component = []

theorem Holds.nothingBound (hholds : Holds service decls leaving [] world) :
    NothingBound service world :=
  ⟨hholds.edges, hholds.table⟩

theorem Holds.allBound (hholds : Holds service decls none rows world)
    (hrows : rows.map BoundComponent.decl = decls) : AllBound service decls world := by
  obtain ⟨allowed, hbase⟩ := hholds.table
  refine ⟨?_, allowed, rows, hbase, hrows, hholds.apart, ?_, ?_⟩
  · rw [← hrows]
    exact hholds.apart.of_map.map_on
      (fun first hfirst second hsecond hsame => hholds.row_eq hsecond hfirst hsame)
  · intro row hrow
    exact ⟨hholds.named row hrow, hholds.edgesOf_row hrow⟩
  · exact fun component hfree => hholds.edgesOf_free hfree

def SubjectsKnown (world : AppWorld) : Prop :=
  ∀ id entry, world.registry.findEntryLocked id = some entry →
    ∀ edge ∈ entry.bindings, edge.subjectId.number < world.registry.nextIdSeq

theorem holds_createService [Infra] (hknown : world.SubjectsKnown) {name : String}
    {allowed : List String} {handle : ObjectHandle}
    (hcreate : world.createService name allowed = (.ok handle, last))
    (decls : List ComponentBindingDecl) :
    handle.owned = true ∧ Holds handle.id decls none [] last := by
  unfold createService at hcreate
  split at hcreate
  · cases hcreate
  obtain ⟨error, hentry⟩ | hentry := world.registry.createEntryLocked_cases
    .service name name .app none .installing (some ⟨allowed, []⟩)
  · rw [hentry] at hcreate
    cases hcreate
  rw [hentry] at hcreate
  cases hcreate
  refine ⟨rfl, ?_, ?_, nofun, nofun, List.nodup_nil⟩
  · refine ⟨allowed, ?_⟩
    rw [Registry.baseOf, Registry.findEntryLocked_append, if_pos rfl]
    rfl
  · intro component
    rw [List.filter_nil, List.map_nil, Registry.edgesOf, Registry.findEntryLocked_append]
    split
    · rfl
    case h_2 entry hfind =>
      rw [List.filter_eq_nil_iff]
      intro edge hmem hsubject
      split at hfind
      · cases hfind
        cases hmem
      · have hlt := hknown component entry hfind edge hmem
        rw [of_decide_eq_true hsubject] at hlt
        exact absurd hlt (Nat.lt_irrefl _)

end AppWorld

end BbtFramework.App
