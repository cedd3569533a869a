import BbtFramework.App.BorrowAccounting

/-!
# The component table of a subject

A subject keeps a row for every component it has bound.  Rows are named by the type and
the name of the component, edges by their generation, so a row tells the truth about an
edge as long as nothing writes the row of its key for another edge.
-/

namespace BbtFramework.App

open BbtFramework.Library

def RegistryEntry.row (entry : RegistryEntry) (id : ObjectId) (edge : Binding) :
    BoundComponent where
  type := entry.typeName
  name := entry.name
  object := Registry.makeHandle id entry
  bindingGeneration := edge.generation

namespace ObjectBase

/-- The rows of a key. -/
def rowsOf (base : ObjectBase) (type name : String) : List BoundComponent :=
  base.boundComponents.filter (fun row => row.type = type ∧ row.name = name)

/-- No key has two rows. -/
def Keyed (base : ObjectBase) : Prop :=
  ∀ type name, (base.rowsOf type name).length ≤ 1

/-- The row is the only one of its key. -/
def Shows (base : ObjectBase) (row : BoundComponent) : Prop :=
  base.rowsOf row.type row.name = [row]

variable {base : ObjectBase} {type name other otherName : String}
variable {object : ObjectHandle} {generation : Nat}

theorem rowsOf_bindComponentEntry_other (hother : ¬(other = type ∧ otherName = name)) :
    (base.bindComponentEntry type name object generation).rowsOf other otherName =
      base.rowsOf other otherName := by
  unfold bindComponentEntry rowsOf
  split
  · rw [List.filter_map]
    have hkeys : ((fun row : BoundComponent => decide (row.type = other ∧
        row.name = otherName)) ∘ fun row => if row.type = type ∧ row.name = name then
          { row with object := object, bindingGeneration := generation } else row) =
        fun row => decide (row.type = other ∧ row.name = otherName) := by
      funext row
      simp only [Function.comp]
      split
      · rfl
      · rfl
    rw [hkeys]
    refine (List.map_congr_left ?_).trans (List.map_id _)
    intro row hmem
    obtain ⟨htype, hname⟩ := of_decide_eq_true (List.mem_filter.mp hmem).2
    rw [if_neg (fun hsame => hother ⟨htype.symm.trans hsame.1, hname.symm.trans hsame.2⟩)]
    rfl
  · rw [List.filter_append]
    have hnew : ¬(type = other ∧ name = otherName) :=
      fun hsame => hother ⟨hsame.1.symm, hsame.2.symm⟩
    simp [hnew]

/-- A bind writes the row of its key. -/
theorem Keyed.shows_bindComponentEntry (hkeyed : base.Keyed) (row : BoundComponent) :
    (base.bindComponentEntry row.type row.name row.object row.bindingGeneration).Shows
      row := by
  obtain ⟨type, name, object, generation⟩ := row
  have hone := hkeyed type name
  unfold Shows bindComponentEntry rowsOf
  unfold rowsOf at hone
  split
  case isTrue hany =>
    obtain ⟨row, hmem, hrow⟩ := List.any_eq_true.mp hany
    have hfiltered : row ∈ base.boundComponents.filter (fun row => row.type = type ∧
        row.name = name) := List.mem_filter.mpr ⟨hmem, hrow⟩
    obtain ⟨only, honly⟩ := List.length_eq_one_iff.mp
      (Nat.le_antisymm hone (List.length_pos_of_mem hfiltered))
    rw [honly] at hfiltered
    obtain rfl := List.mem_singleton.mp hfiltered
    obtain ⟨rfl, rfl⟩ := of_decide_eq_true hrow
    rw [List.filter_map]
    have hkeys : ((fun other : BoundComponent => decide (other.type = row.type ∧
        other.name = row.name)) ∘ fun other => if other.type = row.type ∧
          other.name = row.name then
          { other with object := object, bindingGeneration := generation } else other) =
        fun other => decide (other.type = row.type ∧ other.name = row.name) := by
      funext other
      simp only [Function.comp]
      split
      · rfl
      · rfl
    dsimp only
    rw [hkeys, honly]
    simp
  case isFalse hnone =>
    have hempty : base.boundComponents.filter (fun row => row.type = type ∧
        row.name = name) = [] := by
      rw [List.filter_eq_nil_iff]
      intro row hmem hrow
      exact hnone (List.any_eq_true.mpr ⟨row, hmem, hrow⟩)
    dsimp only
    rw [List.filter_append, hempty]
    simp

theorem Keyed.bindComponentEntry (hkeyed : base.Keyed) :
    (base.bindComponentEntry type name object generation).Keyed := by
  intro other otherName
  by_cases hsame : other = type ∧ otherName = name
  · have hshows : _ = _ := hkeyed.shows_bindComponentEntry ⟨type, name, object, generation⟩
    rw [hsame.1, hsame.2, hshows]
    exact Nat.le_refl _
  · rw [rowsOf_bindComponentEntry_other hsame]
    exact hkeyed other otherName

theorem rowsOf_unbindComponentEntry_other (hother : ¬(other = type ∧ otherName = name)) :
    (base.unbindComponentEntry type name).rowsOf other otherName =
      base.rowsOf other otherName := by
  unfold unbindComponentEntry rowsOf
  dsimp only
  induction base.boundComponents with
  | nil => rfl
  | cons row rest ih =>
      rw [List.eraseP_cons]
      cases hrow : decide (row.type = type ∧ row.name = name) with
      | false => rw [cond_false, List.filter_cons, List.filter_cons, ih]
      | true =>
          obtain ⟨rfl, rfl⟩ := of_decide_eq_true hrow
          have hskip : ¬(row.type = other ∧ row.name = otherName) :=
            fun hsame => hother ⟨hsame.1.symm, hsame.2.symm⟩
          rw [cond_true, List.filter_cons_of_neg (by simpa using hskip)]

theorem Shows.bind_other {row : BoundComponent} (hshows : base.Shows row)
    (hother : ¬(row.type = type ∧ row.name = name)) :
    (base.bindComponentEntry type name object generation).Shows row :=
  (rowsOf_bindComponentEntry_other hother).trans hshows

theorem Shows.unbind_other {row : BoundComponent} (hshows : base.Shows row)
    (hother : ¬(row.type = type ∧ row.name = name)) :
    (base.unbindComponentEntry type name).Shows row :=
  (rowsOf_unbindComponentEntry_other hother).trans hshows

theorem Keyed.unbindComponentEntry (hkeyed : base.Keyed) :
    (base.unbindComponentEntry type name).Keyed := by
  intro other otherName
  refine Nat.le_trans (List.Sublist.length_le ?_) (hkeyed other otherName)
  exact List.Sublist.filter _ List.eraseP_sublist

end ObjectBase

namespace Registry

variable (registry : Registry)

def openRows (subject : ObjectId) (type name : String) : List BoundComponent :=
  (registry.listIdsByKindLocked .component).flatMap (fun id =>
    match registry.findEntryLocked id with
    | none => []
    | some entry =>
        if entry.typeName = type ∧ entry.name = name then
          (entry.bindings.filter (fun edge =>
            edge.subjectId = subject ∧ ¬edge.retiring)).map (entry.row id)
        else [])

variable {registry}

theorem mem_openRows {id : ObjectId} {entry : RegistryEntry} {edge : Binding}
    (hkind : id.kind = .component) (hfind : registry.findEntryLocked id = some entry)
    (hmem : edge ∈ entry.bindings) (hopen : edge.retiring = false) :
    entry.row id edge ∈ registry.openRows edge.subjectId entry.typeName entry.name := by
  refine List.mem_flatMap.mpr ⟨id, mem_listIdsByKind.mpr ⟨hkind, entry, hfind⟩, ?_⟩
  rw [hfind]
  dsimp only
  rw [if_pos ⟨rfl, rfl⟩]
  exact List.mem_map.mpr ⟨edge, List.mem_filter.mpr ⟨hmem, by simp [hopen]⟩, rfl⟩

/-- Every subject shows the rows of its open edges, but for those that `skip` names. -/
def Shows (registry : Registry) (skip : ObjectId → Prop) : Prop :=
  ∀ id entry edge, id.kind = .component → registry.findEntryLocked id = some entry →
    edge ∈ entry.bindings → edge.retiring = false → ¬skip edge.subjectId →
    ∀ subject base, registry.findEntryLocked edge.subjectId = some subject →
      subject.object = some base → base.Shows (entry.row id edge)

end Registry

/-- The tables agree with the open edges. -/
structure Registry.Tabled (registry : Registry) : Prop where
  keyed : ∀ id entry base, registry.findEntryLocked id = some entry →
    entry.object = some base → base.Keyed
  known : ∀ id entry, registry.findEntryLocked id = some entry →
    ∀ edge ∈ entry.bindings, edge.subjectId.number < registry.nextIdSeq
  rows : registry.Shows (fun _ => False)

def RegistryEntry.SameTable (later earlier : RegistryEntry) : Prop :=
  later.object = earlier.object

namespace Registry

variable {before after : Registry}

theorem Tabled.of_empty (hempty : ∀ id, before.findEntryLocked id = none) :
    before.Tabled := by
  have hnone : ∀ {id entry}, before.findEntryLocked id ≠ some entry := by
    intro id entry hfind
    rw [hempty id] at hfind
    cases hfind
  exact ⟨fun _ _ _ hfind => absurd hfind hnone, fun _ _ hfind => absurd hfind hnone,
    fun _ _ _ _ hfind => absurd hfind hnone⟩

/-- A step that makes no row and opens no edge. -/
theorem Tabled.ages (htabled : before.Tabled) (hids : before.nextIdSeq ≤ after.nextIdSeq)
    (hages : Relates RegistryEntry.Ages before after)
    (htables : Relates RegistryEntry.SameTable before after) : after.Tabled where
  keyed := by
    intro id later base hfind hobject
    obtain ⟨earlier, hearlier, hsame⟩ := htables id later hfind
    exact htabled.keyed id earlier base hearlier (hsame.symm.trans hobject)
  known := by
    intro id later hfind edge hmem
    obtain ⟨earlier, hearlier, hage⟩ := hages id later hfind
    obtain ⟨known, hknown, hedge⟩ := hage.edges edge hmem
    rw [hedge.subject]
    exact Nat.lt_of_lt_of_le (htabled.known id earlier hearlier known hknown) hids
  rows := by
    intro id later edge hkind hfind hmem hopen _ subject base hsubject hobject
    obtain ⟨earlier, hearlier, hage⟩ := hages id later hfind
    obtain ⟨known, hknown, hedge⟩ := hage.edges edge hmem
    obtain ⟨owner, howner, hsame⟩ := htables edge.subjectId subject hsubject
    have hbefore : known.retiring = false := by
      by_contra hretiring
      rw [hedge.retiring (eq_true_of_ne_false hretiring)] at hopen
      cases hopen
    have hshows := htabled.rows id earlier known hkind hearlier hknown hbefore not_false owner base
      (hedge.subject ▸ howner) (hsame.symm.trans hobject)
    have hrow : later.row id edge = earlier.row id known := by
      rw [RegistryEntry.row, RegistryEntry.row, makeHandle, makeHandle, hage.typeName,
        hage.name, hage.generation, hedge.generation]
    rw [hrow]
    exact hshows

/-- A new object has neither edges nor rows. -/
theorem Tabled.created (htabled : before.Tabled) (kind : ObjectKind)
    {entry : Nat → RegistryEntry} (hbindings : ∀ generation, (entry generation).bindings = [])
    (hobject : ∀ generation base, (entry generation).object = some base →
      base.boundComponents = []) : (before.append kind entry).Tabled where
  keyed := by
    intro id later base hfind hbase
    rw [findEntryLocked_append] at hfind
    split at hfind
    case isTrue =>
      cases hfind
      intro type name
      rw [ObjectBase.rowsOf, hobject _ base hbase]
      exact Nat.zero_le _
    case isFalse => exact htabled.keyed id later base hfind hbase
  known := by
    intro id later hfind edge hmem
    rw [findEntryLocked_append] at hfind
    split at hfind
    case isTrue =>
      cases hfind
      rw [hbindings] at hmem
      cases hmem
    case isFalse => exact Nat.lt_succ_of_lt (htabled.known id later hfind edge hmem)
  rows := by
    intro id later edge hkind hfind hmem hopen hskip subject base hsubject hbase
    rw [findEntryLocked_append] at hfind hsubject
    split at hfind
    case isTrue =>
      cases hfind
      rw [hbindings] at hmem
      cases hmem
    case isFalse =>
      have hlt := htabled.known id later hfind edge hmem
      split at hsubject
      case isTrue heq =>
        rw [heq] at hlt
        exact absurd hlt (Nat.lt_irrefl _)
      case isFalse =>
        exact htabled.rows id later edge hkind hfind hmem hopen hskip subject base hsubject
          hbase

end Registry

namespace AppWorld

variable {world : AppWorld} {subject : ObjectId} {change : ObjectBase → ObjectBase}

theorem findEntryLocked_changeSubject (world : AppWorld) (subject : ObjectId)
    (change : ObjectBase → ObjectBase) (id : ObjectId) :
    (world.changeSubject subject change).registry.findEntryLocked id =
      (world.registry.findEntryLocked id).map (fun entry => if id = subject then
        { entry with object := entry.object.map change } else entry) := by
  unfold changeSubject
  cases hentry : world.registry.findEntryLocked subject with
  | none =>
      by_cases heq : id = subject
      · subst heq
        dsimp only
        rw [hentry]
        rfl
      · simp [heq]
  | some entry =>
      by_cases heq : id = subject
      · subst heq
        dsimp only
        split
        case isTrue hnone =>
          obtain hobject := Option.isNone_iff_eq_none.mp hnone
          cases entry
          obtain rfl := hobject
          simp [hentry]
        case isFalse =>
          rw [Registry.findEntryLocked_modify, if_pos rfl]
          simp
      · dsimp only
        split
        · simp
        · rw [Registry.findEntryLocked_modify, if_neg heq]
          simp

theorem find_changeSubject {id : ObjectId} {later : RegistryEntry}
    (hfind : (world.changeSubject subject change).registry.findEntryLocked id =
      some later) :
    ∃ earlier, world.registry.findEntryLocked id = some earlier ∧
      later = if id = subject then { earlier with object := earlier.object.map change }
        else earlier := by
  rw [findEntryLocked_changeSubject] at hfind
  obtain ⟨earlier, hearlier, rfl⟩ := Option.map_eq_some_iff.mp hfind
  exact ⟨earlier, hearlier, rfl⟩

theorem tabled_changeSubject
    (hkeyed : ∀ id entry base, world.registry.findEntryLocked id = some entry →
      entry.object = some base → base.Keyed)
    (hknown : ∀ id entry, world.registry.findEntryLocked id = some entry →
      ∀ edge ∈ entry.bindings, edge.subjectId.number < world.registry.nextIdSeq)
    (hothers : world.registry.Shows (fun other => other = subject))
    (hchange : ∀ base : ObjectBase, base.Keyed → (change base).Keyed)
    (hrows : ∀ id entry edge, id.kind = .component →
      world.registry.findEntryLocked id = some entry → edge ∈ entry.bindings →
      edge.retiring = false → edge.subjectId = subject →
      ∀ owner base, world.registry.findEntryLocked subject = some owner →
        owner.object = some base → (change base).Shows (entry.row id edge)) :
    (world.changeSubject subject change).registry.Tabled where
  keyed := by
    intro id later base hfind hobject
    obtain ⟨earlier, hearlier, rfl⟩ := find_changeSubject hfind
    split at hobject
    · obtain ⟨old, hold, rfl⟩ := Option.map_eq_some_iff.mp hobject
      exact hchange old (hkeyed id earlier old hearlier hold)
    · exact hkeyed id earlier base hearlier hobject
  known := by
    intro id later hfind edge hmem
    obtain ⟨earlier, hearlier, rfl⟩ := find_changeSubject hfind
    rw [nextIdSeq_changeSubject]
    split at hmem
    · exact hknown id earlier hearlier edge hmem
    · exact hknown id earlier hearlier edge hmem
  rows := by
    intro id later edge hkind hfind hmem hopen _ owner base hsubject hobject
    obtain ⟨earlier, hearlier, rfl⟩ := find_changeSubject hfind
    obtain ⟨known, hknown', rfl⟩ := find_changeSubject hsubject
    have hrow : RegistryEntry.row (if id = subject then
        { earlier with object := earlier.object.map change } else earlier) id edge =
          earlier.row id edge := by
      split
      · rfl
      · rfl
    have hedge : edge ∈ earlier.bindings := by
      split at hmem
      · exact hmem
      · exact hmem
    rw [hrow]
    split at hobject
    case isTrue heq =>
      obtain ⟨old, hold, rfl⟩ := Option.map_eq_some_iff.mp hobject
      exact hrows id earlier edge hkind hearlier hedge hopen heq known old (heq ▸ hknown')
        hold
    case isFalse hne =>
      exact hothers id earlier edge hkind hearlier hedge hopen hne known base hknown' hobject

end AppWorld

/-! ## The writers of tables -/

inductive TableWrite where
  | bind (subject : ObjectHandle) (key : ComponentKey)
  | record (subject : ObjectId) (row : BoundComponent)
  | unbind (subject : ObjectId) (type name : String)

def Action.tableWrite : Action → Option TableWrite
  | .command (.bindComponent subject key) => some (.bind subject key)
  | .command (.recordBinding subject type name object generation) =>
      some (.record subject ⟨type, name, object, generation⟩)
  | .command (.finishUnbind _ subject _ type name) => some (.unbind subject type name)
  | _ => none

/-- The write does not take the row of an open edge away. -/
def TableWrite.Spares [Infra] (world : AppWorld) : TableWrite → Prop
  | .bind subject key => (world.bindChecks subject key).toOption.isSome →
      world.registry.openRows subject.id key.type key.name = []
  | .record subject row =>
      ∀ other ∈ world.registry.openRows subject row.type row.name, other = row
  | .unbind subject type name => world.registry.openRows subject type name = []

instance [Infra] (world : AppWorld) : (write : TableWrite) → Decidable (write.Spares world)
  | .bind _ _ => inferInstanceAs (Decidable (_ → _ = []))
  | .record _ _ => inferInstanceAs (Decidable (∀ other ∈ _, other = _))
  | .unbind _ _ _ => inferInstanceAs (Decidable (_ = []))

def Command.writesTable : Command → Bool
  | .bindComponent _ _ | .recordBinding _ _ _ _ _ | .finishUnbind _ _ _ _ _
  | .sealSubjectEdges _ => true
  | _ => false

namespace AppWorld

variable [Infra] {world last : AppWorld}

theorem apply_sameTable {command : Command} {choice : Choice} {answer : command.Answer}
    (hgrows : command.grows = false) (hwrites : command.writesTable = false)
    (happly : world.apply command choice = some (answer, last)) :
    Registry.Relates RegistryEntry.SameTable world.registry last.registry := by
  have hrefl : ∀ entry : RegistryEntry, entry.SameTable entry := fun _ => rfl
  have hagree : command.Keeps RegistryEntry.object →
      Registry.Relates RegistryEntry.SameTable world.registry last.registry := by
    intro hkeeps id later hfind
    obtain ⟨earlier, hearlier, hsame⟩ := ((apply_framed happly).agree hkeeps).find_some hfind
    exact ⟨earlier, hearlier, hsame.symm⟩
  cases command with
  | createComponent key => cases hgrows
  | createService name allowed => cases hgrows
  | createActorType type => cases hgrows
  | bindComponent subject key => cases hgrows
  | recordBinding subject type name object generation => cases hwrites
  | finishUnbind component subject generation type name => cases hwrites
  | sealSubjectEdges subject => cases hwrites
  | finishDestroy id =>
      cases happly
      exact Registry.relates_remove hrefl id
  | eraseSubjectEdges subject =>
      cases happly
      apply Registry.relates_modifyAll
      intro id entry _
      split
      · rfl
      · rfl
  | eraseSubjectEdgesOn subject components =>
      cases happly
      apply Registry.relates_modifyAll
      intro id entry _
      split
      · dsimp only
        split
        · rfl
        · rfl
      · rfl
  | beginUnbind subject key =>
      replace happly := Option.some.inj happly
      obtain ⟨error, heq⟩ | ⟨id, component, -, hfind, hcases⟩ :=
        world.beginUnbind_cases subject key
      · cases heq.symm.trans happly
        exact .refl hrefl _
      · obtain ⟨edge, -, heq⟩ | ⟨generation, -, heq⟩ := hcases
        · cases heq.symm.trans happly
          apply Registry.relates_modify hrefl
          intro old hold
          obtain rfl := Option.some.inj (hfind.symm.trans hold)
          rfl
        · cases heq.symm.trans happly
          exact .refl hrefl _
  | _ => exact hagree (by simp [Command.Keeps])

omit [Infra] in
/-- A row of another key is none of those that were written. -/
theorem openRows_other {subject : ObjectId} {type name : String} {id : ObjectId}
    {entry : RegistryEntry} {edge : Binding}
    (hempty : world.registry.openRows subject type name = []) (hkind : id.kind = .component)
    (hfind : world.registry.findEntryLocked id = some entry) (hmem : edge ∈ entry.bindings)
    (hopen : edge.retiring = false) (hsubject : edge.subjectId = subject) :
    ¬(entry.typeName = type ∧ entry.name = name) := by
  rintro ⟨rfl, rfl⟩
  subst hsubject
  have hrow := Registry.mem_openRows hkind hfind hmem hopen
  rw [hempty] at hrow
  cases hrow

theorem tabled_bind {subject : ObjectHandle} {key : ComponentKey} {id : ObjectId}
    {component : RegistryEntry} {edge : Binding} (htabled : world.registry.Tabled)
    (hchecks : world.bindChecks subject key = .ok (id, component, edge))
    (hspares : world.registry.openRows subject.id key.type key.name = []) :
    ((world.withEdge id subject.id).changeSubject subject.id (fun base =>
      base.bindComponentEntry key.type key.name (Registry.makeHandle id component)
        world.registry.nextGeneration)).registry.Tabled := by
  obtain ⟨hkind, hcomponent, -, -, ⟨owner, howner, -⟩, -, -⟩ := bindChecks_ok hchecks
  obtain ⟨htype, hname⟩ :=
    Registry.findComponentLocked_key (bindChecks_found hchecks).1 hcomponent
  have hentries : ∀ {target later},
      (world.withEdge id subject.id).registry.findEntryLocked target = some later →
      ∃ earlier, world.registry.findEntryLocked target = some earlier ∧
        later.object = earlier.object ∧
        (∀ edge, later.row target edge = earlier.row target edge) ∧
        ∀ edge ∈ later.bindings, edge ∈ earlier.bindings ∨
          (target = id ∧ edge = world.newEdge subject.id) := by
    intro target later hfind
    rw [withEdge, Registry.findEntryLocked_modify] at hfind
    split at hfind
    case isTrue heq =>
      obtain ⟨earlier, hearlier, rfl⟩ := Option.map_eq_some_iff.mp hfind
      refine ⟨earlier, heq ▸ hearlier, rfl, fun _ => rfl, ?_⟩
      intro edge hmem
      rcases List.mem_append.mp hmem with hmem | hmem
      · exact Or.inl hmem
      · exact Or.inr ⟨heq, List.mem_singleton.mp hmem⟩
    case isFalse => exact ⟨later, hfind, rfl, fun _ => rfl, fun _ hmem => Or.inl hmem⟩
  apply tabled_changeSubject
  · intro target later base hfind hobject
    obtain ⟨earlier, hearlier, hsame, -⟩ := hentries hfind
    exact htabled.keyed target earlier base hearlier (hsame.symm.trans hobject)
  · intro target later hfind other hmem
    obtain ⟨earlier, hearlier, -, -, hedges⟩ := hentries hfind
    obtain hold | ⟨-, rfl⟩ := hedges other hmem
    · exact htabled.known target earlier hearlier other hold
    · have hlt : subject.id.number < world.registry.nextIdSeq :=
        Registry.number_lt_of_find howner
      exact hlt
  · intro target later other hkind' hfind hmem hopen hother subject' base hsubject hobject
    obtain ⟨earlier, hearlier, -, hrow, hedges⟩ := hentries hfind
    obtain ⟨known, hknown, hsame, -⟩ := hentries hsubject
    obtain hold | ⟨-, rfl⟩ := hedges other hmem
    · rw [hrow]
      exact htabled.rows target earlier other hkind' hearlier hold hopen not_false known base
        hknown (hsame.symm.trans hobject)
    · exact absurd rfl hother
  · exact fun base hkeyed => hkeyed.bindComponentEntry
  · intro target later other hkind' hfind hmem hopen hsubject owner' base howner' hobject
    obtain ⟨earlier, hearlier, -, hrow, hedges⟩ := hentries hfind
    obtain ⟨known, hknown, hsame, -⟩ := hentries howner'
    rw [hsame] at hobject
    rw [hrow]
    obtain hold | ⟨rfl, rfl⟩ := hedges other hmem
    · have hshows := htabled.rows target earlier other hkind' hearlier hold hopen not_false known
        base (hsubject ▸ hknown) hobject
      exact hshows.bind_other
        (openRows_other hspares hkind' hearlier hold hopen hsubject)
    · obtain rfl := Option.some.inj (hcomponent.symm.trans hearlier)
      have hshows := (htabled.keyed subject.id known base hknown
        hobject).shows_bindComponentEntry ⟨key.type, key.name,
          Registry.makeHandle target component, world.registry.nextGeneration⟩
      have hnew : component.row target (world.newEdge subject.id) = ⟨key.type, key.name,
          Registry.makeHandle target component, world.registry.nextGeneration⟩ := by
        rw [RegistryEntry.row, htype, hname]
        rfl
      rw [hnew]
      exact hshows

omit [Infra] in
theorem tabled_record {subject : ObjectId} (row : BoundComponent)
    (htabled : world.registry.Tabled)
    (hspares : ∀ other ∈ world.registry.openRows subject row.type row.name, other = row) :
    (world.changeSubject subject (fun base => base.bindComponentEntry row.type row.name
      row.object row.bindingGeneration)).registry.Tabled := by
  apply tabled_changeSubject htabled.keyed htabled.known
  · intro id entry edge hkind hfind hmem hopen _
    exact htabled.rows id entry edge hkind hfind hmem hopen not_false
  · exact fun base hkeyed => hkeyed.bindComponentEntry
  · intro id entry edge hkind hfind hmem hopen hsubject owner base howner hobject
    by_cases hkey : entry.typeName = row.type ∧ entry.name = row.name
    · have hrow := Registry.mem_openRows hkind hfind hmem hopen
      rw [hsubject, hkey.1, hkey.2] at hrow
      rw [hspares _ hrow]
      exact (htabled.keyed subject owner base howner hobject).shows_bindComponentEntry row
    · exact (htabled.rows id entry edge hkind hfind hmem hopen not_false owner base
        (hsubject ▸ howner) hobject).bind_other hkey

omit [Infra] in
theorem tabled_finishUnbind {component subject : ObjectId} {generation : Nat}
    {type name : String} (htabled : world.registry.Tabled)
    (hspares : world.registry.openRows subject type name = []) :
    (world.finishUnbind component subject generation type name).registry.Tabled := by
  have herased : ({ world with registry := world.registry.modify component (fun entry =>
      Registry.eraseBindingLocked entry subject generation) } : AppWorld).registry.Tabled := by
    have hsame : Registry.Relates RegistryEntry.SameTable world.registry
        (world.registry.modify component (fun entry =>
          Registry.eraseBindingLocked entry subject generation)) := by
      apply Registry.relates_modify
      · exact fun _ => rfl
      · exact fun _ _ => rfl
    refine htabled.ages (Nat.le_refl _) (Registry.relates_modify .refl ?_) hsame
    intro entry _
    have hremains : Remains (fun _ => True)
        (Registry.eraseBindingLocked entry subject generation).bindings entry.bindings :=
      .eraseP (fun _ _ _ => trivial)
    exact (RegistryEntry.Keeps.withBindings hremains).ages
  apply tabled_changeSubject herased.keyed herased.known
  · intro id entry edge hkind hfind hmem hopen _
    exact herased.rows id entry edge hkind hfind hmem hopen not_false
  · exact fun base hkeyed => hkeyed.unbindComponentEntry
  · intro id entry edge hkind hfind hmem hopen hsubject owner base howner hobject
    refine (herased.rows id entry edge hkind hfind hmem hopen not_false owner base
      (hsubject ▸ howner) hobject).unbind_other ?_
    have hold : ∃ earlier, world.registry.findEntryLocked id = some earlier ∧
        edge ∈ earlier.bindings ∧ earlier.typeName = entry.typeName ∧
        earlier.name = entry.name := by
      rw [Registry.findEntryLocked_modify] at hfind
      split at hfind
      case isTrue heq =>
        obtain ⟨earlier, hearlier, rfl⟩ := Option.map_eq_some_iff.mp hfind
        exact ⟨earlier, heq ▸ hearlier, List.eraseP_sublist.subset hmem, rfl, rfl⟩
      case isFalse => exact ⟨entry, hfind, hmem, rfl, rfl⟩
    obtain ⟨earlier, hearlier, hmem', htype, hname⟩ := hold
    rw [RegistryEntry.row, ← htype, ← hname]
    exact openRows_other hspares hkind hearlier hmem' hopen hsubject

omit [Infra] in
theorem tabled_sealSubjectEdges {subject : ObjectId} (htabled : world.registry.Tabled)
    (haccounted : world.Accounted) :
    (world.sealSubjectEdges subject).2.registry.Tabled := by
  have hsealed := haccounted.sealed (world.seals_sealSubjectEdges subject)
  have hentries : ∀ {id later},
      (world.sealSubjectEdges subject).2.registry.findEntryLocked id = some later →
      ∃ earlier, world.registry.findEntryLocked id = some earlier ∧
        (∀ edge, later.row id edge = earlier.row id edge) ∧
        (∀ edge ∈ later.bindings, ∃ known ∈ earlier.bindings, edge.Kept known) ∧
        (later.object = earlier.object ∨ (id = subject ∧
          later.object = earlier.object.map ObjectBase.invalidateComponentEntries)) := by
    intro id later hfind
    have hfind : (world.registry.modifyAll _).findEntryLocked id = some later := hfind
    rw [Registry.findEntryLocked_modifyAll] at hfind
    obtain ⟨earlier, hearlier, rfl⟩ := Option.map_eq_some_iff.mp hfind
    refine ⟨earlier, hearlier, ?_⟩
    split
    · exact ⟨fun _ => rfl, fun edge hmem => (Remains.sealEdge (fun _ => True) subject
        earlier.bindings).known hmem, Or.inl rfl⟩
    · split
      case isTrue heq =>
        exact ⟨fun _ => rfl, fun edge hmem => ⟨edge, hmem, .refl edge⟩, Or.inr ⟨heq, rfl⟩⟩
      case isFalse =>
        exact ⟨fun _ => rfl, fun edge hmem => ⟨edge, hmem, .refl edge⟩, Or.inl rfl⟩
  constructor
  · intro id later base hfind hobject
    obtain ⟨earlier, hearlier, -, -, hsame | ⟨-, hinvalid⟩⟩ := hentries hfind
    · exact htabled.keyed id earlier base hearlier (hsame.symm.trans hobject)
    · rw [hinvalid] at hobject
      obtain ⟨old, -, rfl⟩ := Option.map_eq_some_iff.mp hobject
      exact fun _ _ => Nat.zero_le _
  · intro id later hfind edge hmem
    obtain ⟨earlier, hearlier, -, hedges, -⟩ := hentries hfind
    obtain ⟨known, hknown, hkept⟩ := hedges edge hmem
    rw [hkept.subject]
    exact htabled.known id earlier hearlier known hknown
  · intro id later edge hkind hfind hmem hopen _ owner base howner hobject
    have hother : edge.subjectId ≠ subject := by
      intro heq
      rw [hsealed id later hkind hfind edge hmem heq] at hopen
      cases hopen
    obtain ⟨earlier, hearlier, hrow, hedges, -⟩ := hentries hfind
    obtain ⟨known, hknown, hkept⟩ := hedges edge hmem
    obtain ⟨old, hold, -, -, hsame | ⟨heq, -⟩⟩ := hentries howner
    · have hbefore : known.retiring = false := by
        by_contra hretiring
        rw [hkept.retiring (eq_true_of_ne_false hretiring)] at hopen
        cases hopen
      have hshows := htabled.rows id earlier known hkind hearlier hknown hbefore not_false old base
        (hkept.subject ▸ hold) (hsame.symm.trans hobject)
      rw [hrow, RegistryEntry.row, hkept.generation]
      exact hshows
    · exact absurd heq hother

/-- A new object has an empty table. -/
theorem tabled_create {registry made : Registry} {kind : ObjectKind}
    {typeName name : String} {scope : ComponentScope} {ownerId : Option ObjectId}
    {state : ObjectState} {object : Option ObjectBase} {id : ObjectId}
    (htabled : registry.Tabled)
    (hobject : ∀ base, object = some base → base.boundComponents = [])
    (hcreate : registry.createEntryLocked kind typeName name scope ownerId state object =
      .ok (id, made)) : made.Tabled := by
  obtain ⟨error, heq⟩ | heq := registry.createEntryLocked_cases kind typeName name scope
    ownerId state object
  · cases heq.symm.trans hcreate
  · cases heq.symm.trans hcreate
    exact htabled.created kind (fun _ => rfl) (fun _ => hobject)

/-- A command whose write spares the open edges leaves the tables in agreement. -/
theorem apply_tabled {command : Command} {choice : Choice} {answer : command.Answer}
    (hspares : ∀ write ∈ (Action.command command).tableWrite, write.Spares world)
    (happly : world.apply command choice = some (answer, last))
    (haccounted : world.Accounted) (htabled : world.registry.Tabled) :
    last.registry.Tabled := by
  by_cases hgrows : command.grows = false
  · by_cases hwrites : command.writesTable = false
    · exact htabled.ages (apply_framed happly).ids (apply_ages hgrows happly)
        (apply_sameTable hgrows hwrites happly)
    · cases command with
      | bindComponent subject key => cases hgrows
      | recordBinding subject type name object generation =>
          cases happly
          exact tabled_record ⟨type, name, object, generation⟩ htabled (hspares _ rfl)
      | finishUnbind component subject generation type name =>
          cases happly
          exact tabled_finishUnbind htabled (hspares _ rfl)
      | sealSubjectEdges subject =>
          cases happly
          exact tabled_sealSubjectEdges htabled haccounted
      | _ => exact absurd rfl hwrites
  · cases command with
    | createComponent key =>
        replace happly := Option.some.inj happly
        unfold createComponent at happly
        split at happly
        · cases happly
          exact htabled
        · split at happly
          · cases happly
            exact htabled
          case h_2 hcreate =>
            cases happly
            exact tabled_create htabled (fun _ hobject => by cases hobject; rfl) hcreate
    | createService name allowed =>
        replace happly := Option.some.inj happly
        unfold createService at happly
        split at happly
        · cases happly
          exact htabled
        · split at happly
          · cases happly
            exact htabled
          case h_2 hcreate =>
            cases happly
            exact tabled_create htabled (fun _ hobject => by cases hobject; rfl) hcreate
    | createActorType type =>
        replace happly := Option.some.inj happly
        unfold createActorType at happly
        split at happly
        · cases happly
          exact htabled
        · split at happly
          · cases happly
            exact htabled
          case h_2 hcreate =>
            cases happly
            exact tabled_create htabled (fun _ hobject => by cases hobject) hcreate
    | bindComponent subject key =>
        obtain ⟨error, heq⟩ | ⟨found, entry, made, hfound, heq⟩ :=
          world.bindComponent_writes subject key
        · cases heq.symm.trans (Option.some.inj happly)
          exact htabled
        · cases heq.symm.trans (Option.some.inj happly)
          refine tabled_bind htabled hfound (hspares _ rfl ?_)
          rw [hfound]
          rfl
    | _ => exact absurd rfl hgrows

theorem event_tabled {event : Event} (hevent : world.event event = some last)
    (htabled : world.registry.Tabled) : last.registry.Tabled := by
  refine htabled.ages (Nat.le_of_eq (event_undisturbed hevent).ids.symm)
    (event_ages hevent) ?_
  intro id later hfind
  have hagree : Registry.Agree RegistryEntry.object world.registry last.registry :=
    (event_undisturbed hevent).agree (fun _ _ _ _ => rfl)
  obtain ⟨earlier, hearlier, hsame⟩ := hagree.find_some hfind
  exact ⟨earlier, hearlier, hsame.symm⟩

end AppWorld

end BbtFramework.App
