import BbtFramework.Ordered.SessionRegistry

/-!
# The registry of sessions and its readers

A live session is registered, and a session is built only when no live one has its
stream.  The registry is not locked twice by one thread as long as no temporary owner of
a scan is the last owner.
-/

namespace BbtFramework.Ordered

open BbtFramework.Library

theorem SessionView.lastUnderLock_after {view : SessionView}
    (hlast : view.lastUnderLock = true) (act : SessionAct) (answer : act.Answer) :
    (view.after act answer).lastUnderLock = true := by
  cases act with
  | promote entry =>
      simp only [after]
      split
      · exact hlast
      · exact hlast
  | expired entry =>
      simp only [after]
      split
      · exact hlast
      · exact hlast
  | release session => simp [after, hlast]
  | _ => exact hlast

theorem follows_of_lastUnderLock {Value : Type} (program : SessionOp Value)
    {view : SessionView} (hlast : view.lastUnderLock = true) :
    Program.Follows sessionDiscipline program view
      (fun _ later => later.lastUnderLock = true) := by
  induction program generalizing view with
  | done value => exact hlast
  | call act next ih =>
      exact ⟨Or.inl hlast, fun answer _ =>
        ih answer (SessionView.lastUnderLock_after hlast act answer)⟩

def OpenResult.Explained [Infra] (view : SessionView) : OpenResult → Prop
  | .opened grant (.ok session) =>
      ⟨grant, session⟩ ∈ view.found ∨ ⟨grant, session⟩ ∈ view.built
  | .opened grant (.error error) => error = streamRejectedError ∧
      ∃ entry ∈ view.found, sameOrderedStreamId entry.grant grant = true ∧
        entry.grant ≠ grant
  | _ => True

/-- The registry a thread has read, split into the entries it has passed and those
it has yet to look at. -/
def SessionView.Scanning (view : SessionView) (passed rest : List RegistryEntry) : Prop :=
  view.holding = true ∧ ∃ entries, view.registry = some entries ∧
    entries.Perm (passed ++ rest)

namespace SessionView.Scanning

variable {view : SessionView} {passed rest : List RegistryEntry} {entry : RegistryEntry}

theorem knows (hscan : view.Scanning passed (entry :: rest)) : view.Knows entry := by
  obtain ⟨hholding, entries, hentries, hperm⟩ := hscan
  exact ⟨hholding, entries, hentries, hperm.mem_iff.mpr (by simp)⟩

theorem pass (hscan : view.Scanning passed (entry :: rest)) :
    view.Scanning (entry :: passed) rest := by
  obtain ⟨hholding, entries, hentries, hperm⟩ := hscan
  exact ⟨hholding, entries, hentries, hperm.trans List.perm_middle⟩

theorem erase (hscan : view.Scanning passed (entry :: rest)) :
    (view.after (.erase entry) ()).Scanning passed rest := by
  obtain ⟨hholding, entries, hentries, hperm⟩ := hscan
  refine ⟨hholding, entries.erase entry, ?_, ?_⟩
  · simp [SessionView.after, hentries]
  · have hfirst := (hperm.trans List.perm_middle).erase entry
    rwa [List.erase_cons_head] at hfirst

end SessionView.Scanning

theorem sweep_follows (passed rest : List RegistryEntry) {view : SessionView}
    (hscan : view.Scanning passed rest) (hnone : view.unregistered = none) :
    Program.Follows sessionDiscipline (sweep rest) view
      (fun _ later => later.holding = true ∧ later.unregistered = none) := by
  induction rest generalizing passed view with
  | nil => exact ⟨hscan.1, hnone⟩
  | cons entry rest ih =>
      refine Program.Follows.step (Or.inr hscan.knows) ?_
      intro (expired : Bool) _
      cases expired with
      | false => exact ih (entry :: passed) hscan.pass hnone
      | true =>
          have hlater : (view.after (.expired entry) true).Scanning passed (entry :: rest) :=
            hscan
          refine Program.Follows.step (Or.inr ⟨hscan.1, List.mem_cons_self⟩) ?_
          intro _ _
          exact ih passed hlater.erase hnone

theorem destructor_follows (session : SessionId) {view : SessionView}
    (hfree : view.holding = false) (hnone : view.unregistered = none) :
    Program.Follows sessionDiscipline (destructor session) view (fun _ _ => True) := by
  refine Program.Follows.step (Or.inr hfree) ?_
  intro _ _
  refine Program.Follows.step (Or.inr hfree) ?_
  intro _ _
  refine Program.Follows.step (Or.inr rfl) ?_
  intro (registry : List RegistryEntry) _
  refine Program.Follows.andThen
    (sweep_follows [] registry ⟨rfl, registry, rfl, .refl _⟩ hnone) ?_
  intro _ later hlater
  exact ⟨Or.inr hlater, fun _ _ => trivial⟩

/-- A temporary owner ends under the mutex: either it was the last owner, or
nothing has changed. -/
theorem dropTemporary_follows (session : SessionId) {view : SessionView}
    (hholding : view.holding = true) :
    Program.Follows sessionDiscipline (dropTemporary session) view
      (fun _ later => later.lastUnderLock = true ∨ later = view) := by
  refine Program.Follows.step (Or.inr trivial) ?_
  intro (last : Bool) _
  cases last with
  | true =>
      refine (follows_of_lastUnderLock _ ?_).mono (fun _ _ => Or.inl)
      simp [sessionDiscipline, SessionView.after, hholding]
  | false =>
      refine Or.inr ?_
      simp [sessionDiscipline, SessionView.after]

section

variable [Infra]

/-- After a temporary owner has ended, the rest is followed or void. -/
theorem follows_dropTemporary {session : SessionId} {view : SessionView}
    {next : SessionOp OpenResult} (hholding : view.holding = true)
    (hnext : Program.Follows sessionDiscipline next view
      (fun result later => later.lastUnderLock = true ∨ result.Explained later)) :
    Program.Follows sessionDiscipline (dropTemporary session >>= fun _ => next) view
      (fun result later => later.lastUnderLock = true ∨ result.Explained later) := by
  refine (dropTemporary_follows session hholding).andThen ?_
  rintro - later (hlast | rfl)
  · exact (follows_of_lastUnderLock _ hlast).mono (fun _ _ => Or.inl)
  · exact hnext

theorem scan_follows (grant : OrderedGrant) (first : UInt64)
    (passed rest : List RegistryEntry) {view : SessionView}
    (hscan : view.Scanning passed rest) (hnone : view.unregistered = none)
    (hother : ∀ entry ∈ passed, sameOrderedStreamId entry.grant grant = false) :
    Program.Follows sessionDiscipline (scan grant first rest) view
      (fun result later => later.lastUnderLock = true ∨ result.Explained later) := by
  induction rest generalizing passed view with
  | nil =>
      obtain ⟨hholding, entries, hentries, hperm⟩ := hscan
      refine Program.Follows.step (Or.inr ⟨hholding, hnone, entries, hentries, ?_⟩) ?_
      · intro entry hmem
        exact hother entry (by simpa using hperm.mem_iff.mp hmem)
      intro (session : SessionId) _
      refine Program.Follows.step (Or.inr ⟨hholding, rfl⟩) ?_
      intro _ _
      refine Program.Follows.step (Or.inr ⟨hholding, rfl⟩) ?_
      intro _ _
      refine Program.Follows.step (Or.inr trivial) ?_
      intro _ _
      exact Or.inr (Or.inr List.mem_cons_self)
  | cons entry rest ih =>
      refine Program.Follows.step (Or.inr hscan.knows) ?_
      intro (live : Bool) _
      cases live with
      | false =>
          have hlater : (view.after (.promote entry) false).Scanning passed
              (entry :: rest) := hscan
          refine Program.Follows.step (Or.inr ⟨hscan.1, List.mem_cons_self⟩) ?_
          intro _ _
          exact ih passed hlater.erase hnone hother
      | true =>
          rw [if_pos rfl]
          refine Program.Follows.ite ?_ ?_
          · intro hsame
            refine Program.Follows.ite ?_ ?_
            · intro hequal
              refine Program.Follows.step (Or.inr trivial) ?_
              intro _ _
              refine follows_dropTemporary hscan.1 ?_
              refine Program.Follows.step (Or.inr ⟨hscan.1, hnone⟩) ?_
              intro _ _
              refine Program.Follows.step (Or.inr trivial) ?_
              intro _ _
              refine Or.inr (Or.inl ?_)
              subst hequal
              exact List.mem_cons_self
            · intro hdiffers
              refine follows_dropTemporary hscan.1 ?_
              refine Program.Follows.step (Or.inr ⟨hscan.1, hnone⟩) ?_
              intro _ _
              exact Or.inr ⟨rfl, entry, List.mem_cons_self, hsame, hdiffers⟩
          · intro hdiffers
            refine follows_dropTemporary hscan.1 ?_
            refine ih (entry :: passed) hscan.pass hnone ?_
            intro other hmem
            obtain rfl | hmem := List.mem_cons.mp hmem
            · exact (Bool.not_eq_true _).mp hdiffers
            · exact hother other hmem

theorem openImpl_follows (grant : OrderedGrant) (first : UInt64) :
    Program.Follows sessionDiscipline (openImpl grant first) .fresh
      (fun result later => later.lastUnderLock = true ∨ result.Explained later) := by
  refine Program.Follows.step (Or.inr rfl) ?_
  intro _ _
  refine Program.Follows.step (Or.inr rfl) ?_
  intro (registry : List RegistryEntry) _
  exact scan_follows grant first [] registry ⟨rfl, registry, rfl, .refl _⟩ rfl
    (fun _ => nofun)

theorem sessions_disciplined : sessionSystem.Disciplined
    (fun result later => later.lastUnderLock = true ∨ result.Explained later) where
  main := by
    intro entry
    cases entry with
    | «open» grant => exact openImpl_follows grant 1
    | openForTest grant first =>
        refine Program.Follows.ite ?_ ?_
        · intro _
          exact Or.inr trivial
        · intro _
          exact openImpl_follows grant first
    | drop session =>
        refine Program.Follows.step (Or.inr trivial) ?_
        intro (last : Bool) _
        cases last with
        | false => exact Or.inr trivial
        | true =>
            refine (destructor_follows session rfl rfl).andThen ?_
            intro _ _ _
            exact Or.inr trivial
  idle := Or.inr trivial
  answers := fun _ _ _ _ _ _ => trivial

end

/-! ## The registry and its readers -/

def SessionTable.Placed (table : SessionTable) (entry : RegistryEntry) : Prop :=
  ∃ session, table.sessions[entry.session]? = some session ∧
    session.grant = entry.grant

def SessionTable.SingleSender (table : SessionTable) : Prop :=
  ∀ left right a b, 0 < table.strong left → 0 < table.strong right →
    table.sessions[left]? = some a → table.sessions[right]? = some b →
    sameOrderedStreamId a.grant b.grant = true → left = right

structure SessionTable.Sound (table : SessionTable) (views : Nat → SessionView) :
    Prop where
  clear : ∀ thread, (views thread).lastUnderLock = false
  locked : ∀ thread, (views thread).holding = true → table.locked = true
  alone : ∀ left right, (views left).holding = true → (views right).holding = true →
    left = right
  known : ∀ thread entries, (views thread).holding = true →
    (views thread).registry = some entries → table.registry = entries
  expired : ∀ thread, ∀ session ∈ (views thread).expired,
    table.strong session = 0 ∧ session < table.sessions.length
  placed : ∀ entry ∈ table.registry, table.Placed entry
  pending : ∀ thread entry, (views thread).unregistered = some entry →
    (views thread).holding = true ∧ table.Placed entry
  listed : ∀ session, 0 < table.strong session →
    (∃ entry ∈ table.registry, entry.session = session) ∨
      ∃ thread entry, (views thread).unregistered = some entry ∧ entry.session = session
  single : table.SingleSender

namespace SessionTable

variable {table later : SessionTable} {views : Nat → SessionView}

theorem Placed.lt {entry : RegistryEntry} (hplaced : table.Placed entry) :
    entry.session < table.sessions.length := by
  obtain ⟨session, hsession, -⟩ := hplaced
  exact (List.getElem?_eq_some_iff.mp hsession).1

namespace Sound

/-- A step that changes neither the mutex nor the registry and revives no session. -/
theorem quiet (hsound : table.Sound views) {thread : Nat} {view : SessionView}
    (hlocked : later.locked = table.locked) (hregistry : later.registry = table.registry)
    (hsessions : later.sessions = table.sessions)
    (hstrong : ∀ session, 0 < later.strong session → 0 < table.strong session)
    (hlast : view.lastUnderLock = false) (hholding : view.holding = (views thread).holding)
    (hread : view.registry = (views thread).registry)
    (hunregistered : view.unregistered = (views thread).unregistered)
    (hexpired : ∀ session ∈ view.expired, session ∈ (views thread).expired ∨
      table.strong session = 0 ∧ session < table.sessions.length) :
    later.Sound (Function.update views thread view) := by
  have hfield : ∀ other, (Function.update views thread view other).holding =
        (views other).holding ∧
      (Function.update views thread view other).registry = (views other).registry ∧
      (Function.update views thread view other).unregistered =
        (views other).unregistered := by
    intro other
    by_cases heq : other = thread
    · subst heq
      rw [Function.update_self]
      exact ⟨hholding, hread, hunregistered⟩
    · rw [Function.update_of_ne heq]
      exact ⟨rfl, rfl, rfl⟩
  have hplaced : ∀ entry, later.Placed entry ↔ table.Placed entry := by
    intro entry
    rw [Placed, Placed, hsessions]
  constructor
  case clear =>
    intro other
    by_cases heq : other = thread
    · subst heq
      rwa [Function.update_self]
    · rw [Function.update_of_ne heq]
      exact hsound.clear other
  case locked =>
    intro other hheld
    rw [hlocked]
    exact hsound.locked other ((hfield other).1 ▸ hheld)
  case alone =>
    intro left right hleft hright
    exact hsound.alone left right ((hfield left).1 ▸ hleft) ((hfield right).1 ▸ hright)
  case known =>
    intro other entries hheld hentries
    rw [hregistry]
    exact hsound.known other entries ((hfield other).1 ▸ hheld)
      ((hfield other).2.1 ▸ hentries)
  case expired =>
    have hdead : ∀ session, table.strong session = 0 ∧ session < table.sessions.length →
        later.strong session = 0 ∧ session < later.sessions.length := by
      rintro session ⟨hzero, hlt⟩
      refine ⟨?_, hsessions ▸ hlt⟩
      by_contra hlive
      exact absurd (hstrong session (Nat.pos_of_ne_zero hlive)) (hzero ▸ Nat.lt_irrefl 0)
    intro other session hmem
    by_cases heq : other = thread
    · subst heq
      rw [Function.update_self] at hmem
      obtain hold | hnew := hexpired session hmem
      · exact hdead session (hsound.expired other session hold)
      · exact hdead session hnew
    · rw [Function.update_of_ne heq] at hmem
      exact hdead session (hsound.expired other session hmem)
  case placed =>
    intro entry hmem
    exact (hplaced entry).mpr (hsound.placed entry (hregistry ▸ hmem))
  case pending =>
    intro other entry hentry
    obtain ⟨hheld, hentry⟩ := hsound.pending other entry ((hfield other).2.2 ▸ hentry)
    exact ⟨(hfield other).1 ▸ hheld, (hplaced entry).mpr hentry⟩
  case listed =>
    intro session hlive
    obtain ⟨entry, hmem, heq⟩ | ⟨other, entry, hentry, heq⟩ :=
      hsound.listed session (hstrong session hlive)
    · exact Or.inl ⟨entry, hregistry ▸ hmem, heq⟩
    · exact Or.inr ⟨other, entry, (hfield other).2.2 ▸ hentry, heq⟩
  case single =>
    intro left right a b hleft hright ha hb
    exact hsound.single left right a b (hstrong left hleft) (hstrong right hright)
      (hsessions ▸ ha) (hsessions ▸ hb)

/-- The mutex is taken by a thread that has read nothing yet. -/
theorem lock (hsound : table.Sound views) {thread : Nat} (hfree : table.locked = false) :
    { table with locked := true }.Sound (Function.update views thread
      { views thread with holding := true, registry := none }) := by
  have hnone : ∀ other, (views other).holding = true → False := by
    intro other hheld
    exact nomatch hfree.symm.trans (hsound.locked other hheld)
  have hpending : ∀ other entry, (views other).unregistered = some entry → False :=
    fun other entry hentry => hnone other (hsound.pending other entry hentry).1
  constructor
  case clear =>
    intro other
    by_cases heq : other = thread
    · subst heq
      rw [Function.update_self]
      exact hsound.clear other
    · rw [Function.update_of_ne heq]
      exact hsound.clear other
  case locked => exact fun _ _ => rfl
  case alone =>
    have hself : ∀ other, (Function.update views thread { views thread with
        holding := true, registry := none } other).holding = true → other = thread := by
      intro other hheld
      by_contra heq
      rw [Function.update_of_ne heq] at hheld
      exact hnone other hheld
    intro left right hleft hright
    exact (hself left hleft).trans (hself right hright).symm
  case known =>
    intro other entries hheld hentries
    by_cases heq : other = thread
    · subst heq
      rw [Function.update_self] at hentries
      cases hentries
    · rw [Function.update_of_ne heq] at hheld
      exact (hnone other hheld).elim
  case expired =>
    intro other session hmem
    by_cases heq : other = thread
    · subst heq
      rw [Function.update_self] at hmem
      exact hsound.expired other session hmem
    · rw [Function.update_of_ne heq] at hmem
      exact hsound.expired other session hmem
  case placed => exact hsound.placed
  case pending =>
    intro other entry hentry
    by_cases heq : other = thread
    · subst heq
      rw [Function.update_self] at hentry
      exact (hpending other entry hentry).elim
    · rw [Function.update_of_ne heq] at hentry
      exact (hpending other entry hentry).elim
  case listed =>
    intro session hlive
    obtain hlisted | ⟨other, entry, hentry, -⟩ := hsound.listed session hlive
    · exact Or.inl hlisted
    · exact (hpending other entry hentry).elim
  case single => exact hsound.single

theorem listed_of_holding (hsound : table.Sound views) {thread : Nat}
    (hheld : (views thread).holding = true) {session : SessionId}
    (hlive : 0 < table.strong session) :
    (∃ entry ∈ table.registry, entry.session = session) ∨
      ∃ entry, (views thread).unregistered = some entry ∧ entry.session = session := by
  obtain hlisted | ⟨other, entry, hentry, heq⟩ := hsound.listed session hlive
  · exact Or.inl hlisted
  · obtain rfl := hsound.alone other thread (hsound.pending other entry hentry).1 hheld
    exact Or.inr ⟨entry, hentry, heq⟩

/-- A step of the thread that has the mutex: the others know nothing of the
registry. -/
theorem held (hsound : table.Sound views) {thread : Nat} {view : SessionView}
    (hheld : (views thread).holding = true) (hlast : view.lastUnderLock = false)
    (hlocked : view.holding = true → later.locked = true)
    (hdead : ∀ session, table.strong session = 0 → session < table.sessions.length →
      later.strong session = 0 ∧ session < later.sessions.length)
    (hexpired : view.expired = (views thread).expired)
    (hknown : ∀ entries, view.holding = true → view.registry = some entries →
      later.registry = entries)
    (hplaced : ∀ entry ∈ later.registry, later.Placed entry)
    (hpending : ∀ entry, view.unregistered = some entry →
      view.holding = true ∧ later.Placed entry)
    (hlisted : ∀ session, 0 < later.strong session →
      (∃ entry ∈ later.registry, entry.session = session) ∨
        ∃ entry, view.unregistered = some entry ∧ entry.session = session)
    (hsingle : later.SingleSender) :
    later.Sound (Function.update views thread view) := by
  have hothers : ∀ other, other ≠ thread → (views other).holding = true → False :=
    fun other hne hother => hne (hsound.alone other thread hother hheld)
  have hself : ∀ other, (Function.update views thread view other).holding = true →
      other = thread ∧ view.holding = true := by
    intro other hother
    by_cases heq : other = thread
    · subst heq
      rw [Function.update_self] at hother
      exact ⟨rfl, hother⟩
    · rw [Function.update_of_ne heq] at hother
      exact (hothers other heq hother).elim
  constructor
  case clear =>
    intro other
    by_cases heq : other = thread
    · subst heq
      rwa [Function.update_self]
    · rw [Function.update_of_ne heq]
      exact hsound.clear other
  case locked => exact fun other hother => hlocked (hself other hother).2
  case alone =>
    exact fun left right hleft hright => (hself left hleft).1.trans (hself right hright).1.symm
  case known =>
    intro other entries hother hentries
    obtain ⟨rfl, hview⟩ := hself other hother
    rw [Function.update_self] at hentries
    exact hknown entries hview hentries
  case expired =>
    intro other session hmem
    have hold : ∃ thread, session ∈ (views thread).expired := by
      by_cases heq : other = thread
      · subst heq
        rw [Function.update_self, hexpired] at hmem
        exact ⟨other, hmem⟩
      · rw [Function.update_of_ne heq] at hmem
        exact ⟨other, hmem⟩
    obtain ⟨reader, hmem⟩ := hold
    obtain ⟨hzero, hlt⟩ := hsound.expired reader session hmem
    exact hdead session hzero hlt
  case placed => exact hplaced
  case pending =>
    intro other entry hentry
    by_cases heq : other = thread
    · subst heq
      rw [Function.update_self] at hentry ⊢
      exact hpending entry hentry
    · rw [Function.update_of_ne heq] at hentry
      exact (hothers other heq (hsound.pending other entry hentry).1).elim
  case listed =>
    intro session hlive
    obtain hregistered | ⟨entry, hentry, heq⟩ := hlisted session hlive
    · exact Or.inl hregistered
    · refine Or.inr ⟨thread, entry, ?_, heq⟩
      rwa [Function.update_self]
  case single => exact hsingle

theorem erase (hsound : table.Sound views) {thread : Nat} {entry : RegistryEntry}
    (hheld : (views thread).holding = true)
    (hexpired : entry.session ∈ (views thread).expired) :
    { table with registry := table.registry.erase entry }.Sound
      (Function.update views thread ((views thread).after (.erase entry) ())) := by
  refine hsound.held hheld (hsound.clear thread) (fun _ => hsound.locked thread hheld)
    (fun _ hzero hlt => ⟨hzero, hlt⟩) rfl ?_ ?_ ?_ ?_ hsound.single
  · intro entries _ hentries
    obtain ⟨before, hbefore, rfl⟩ := Option.map_eq_some_iff.mp hentries
    dsimp only
    rw [hsound.known thread before hheld hbefore]
  · exact fun other hmem => hsound.placed other (List.mem_of_mem_erase hmem)
  · exact fun other hother => hsound.pending thread other hother
  · intro session hlive
    obtain ⟨other, hmem, heq⟩ | hpending := hsound.listed_of_holding hheld hlive
    · refine Or.inl ⟨other, ?_, heq⟩
      refine (List.mem_erase_of_ne ?_).mpr hmem
      rintro rfl
      exact absurd (hsound.expired thread _ hexpired).1 (heq ▸ Nat.ne_of_gt hlive)
    · exact Or.inr hpending

/-- A new session has a stream of its own. -/
theorem construct (hsound : table.Sound views) {thread : Nat} {grant : OrderedGrant}
    {first : UInt64} (hallows : (views thread).allows (.construct grant first)) :
    (table.construct grant first).Sound (Function.update views thread
      ((views thread).after (.construct grant first) table.sessions.length)) := by
  obtain ⟨hheld, hnone, entries, hentries, hother⟩ := hallows
  have hread : table.registry = entries := hsound.known thread entries hheld hentries
  have hold : ∀ entry, table.Placed entry → (table.construct grant first).Placed entry := by
    rintro entry ⟨session, hsession, hgrant⟩
    refine ⟨session, ?_, hgrant⟩
    rwa [table.session_construct_of_lt _ _ (List.getElem?_eq_some_iff.mp hsession).1]
  -- a live session is the new one, or it was live and has another stream
  have hcases : ∀ session a, 0 < (table.construct grant first).strong session →
      (table.construct grant first).sessions[session]? = some a →
      (session = table.sessions.length ∧ a.grant = grant) ∨
        (0 < table.strong session ∧ table.sessions[session]? = some a ∧
          sameOrderedStreamId a.grant grant = false) := by
    intro session a hlive hsession
    by_cases heq : session = table.sessions.length
    · subst heq
      obtain ⟨made, hmade, hgrant⟩ := table.session_construct_self grant first
      obtain rfl := Option.some.inj (hsession.symm.trans hmade)
      exact Or.inl ⟨rfl, hgrant⟩
    · rw [table.strong_construct_of_ne _ _ heq] at hlive
      obtain ⟨entry, hmem, rfl⟩ | ⟨entry, hentry, -⟩ :=
        hsound.listed_of_holding hheld hlive
      · obtain ⟨b, hb, hgrant⟩ := hsound.placed entry hmem
        rw [table.session_construct_of_lt _ _ (List.getElem?_eq_some_iff.mp hb).1]
          at hsession
        obtain rfl := Option.some.inj (hsession.symm.trans hb)
        refine Or.inr ⟨hlive, hb, ?_⟩
        rw [hgrant]
        exact hother entry (hread ▸ hmem)
      · cases hnone.symm.trans hentry
  refine hsound.held hheld (hsound.clear thread) (fun _ => hsound.locked thread hheld)
    ?_ rfl ?_ ?_ ?_ ?_ ?_
  · intro session hzero hlt
    rw [table.strong_construct_of_ne _ _ (Nat.ne_of_lt hlt)]
    refine ⟨hzero, ?_⟩
    simpa [SessionTable.construct] using Nat.lt_succ_of_lt hlt
  · exact fun others _ hothers => hsound.known thread others hheld hothers
  · exact fun entry hmem => hold entry (hsound.placed entry hmem)
  · rintro entry hentry
    obtain rfl := Option.some.inj hentry
    exact ⟨hheld, _, List.getElem?_concat_length, rfl⟩
  · intro session hlive
    by_cases heq : session = table.sessions.length
    · exact Or.inr ⟨_, rfl, heq.symm⟩
    · rw [table.strong_construct_of_ne _ _ heq] at hlive
      obtain hregistered | ⟨entry, hentry, -⟩ := hsound.listed_of_holding hheld hlive
      · exact Or.inl hregistered
      · cases hnone.symm.trans hentry
  · intro left right a b hleft hright ha hb hsame
    obtain ⟨hleftEq, haGrant⟩ | ⟨hleft, ha, haOther⟩ := hcases left a hleft ha
    · obtain ⟨hrightEq, -⟩ | ⟨-, -, hbOther⟩ := hcases right b hright hb
      · exact hleftEq.trans hrightEq.symm
      · rw [haGrant] at hsame
        rw [sameOrderedStreamId_comm, hsame] at hbOther
        cases hbOther
    · obtain ⟨-, hbGrant⟩ | ⟨hright, hb, -⟩ := hcases right b hright hb
      · rw [hbGrant, haOther] at hsame
        cases hsame
      · exact hsound.single left right a b hleft hright ha hb hsame

/-- The new session is registered. -/
theorem pushBack (hsound : table.Sound views) {thread : Nat} {entry : RegistryEntry}
    (hheld : (views thread).holding = true)
    (hentry : (views thread).unregistered = some entry) :
    { table with registry := table.registry ++ [entry] }.Sound
      (Function.update views thread ((views thread).after (.pushBack entry) ())) := by
  refine hsound.held hheld (hsound.clear thread) (fun _ => hsound.locked thread hheld)
    (fun _ hzero hlt => ⟨hzero, hlt⟩) rfl ?_ ?_ (fun _ => nofun) ?_ hsound.single
  · intro entries _ hentries
    obtain ⟨before, hbefore, rfl⟩ := Option.map_eq_some_iff.mp hentries
    dsimp only
    rw [hsound.known thread before hheld hbefore]
  · intro other hmem
    obtain hmem | hmem := List.mem_append.mp hmem
    · exact hsound.placed other hmem
    · rw [List.mem_singleton.mp hmem]
      exact (hsound.pending thread entry hentry).2
  · intro session hlive
    obtain ⟨other, hmem, heq⟩ | ⟨other, hother, heq⟩ := hsound.listed_of_holding hheld hlive
    · exact Or.inl ⟨other, List.mem_append_left _ hmem, heq⟩
    · obtain rfl := Option.some.inj (hentry.symm.trans hother)
      exact Or.inl ⟨entry, by simp, heq⟩

/-- The registry is read. -/
theorem entries (hsound : table.Sound views) {thread : Nat}
    (hheld : (views thread).holding = true) :
    table.Sound (Function.update views thread
      ((views thread).after .entries table.registry)) := by
  refine hsound.held hheld (hsound.clear thread) (fun _ => hsound.locked thread hheld)
    (fun _ hzero hlt => ⟨hzero, hlt⟩) rfl ?_ hsound.placed ?_ ?_ hsound.single
  · intro entries _ hentries
    exact Option.some.inj hentries
  · exact fun other hother => hsound.pending thread other hother
  · exact fun session hlive => hsound.listed_of_holding hheld hlive

/-- The mutex is given back. -/
theorem unlock (hsound : table.Sound views) {thread : Nat}
    (hheld : (views thread).holding = true)
    (hnone : (views thread).unregistered = none) :
    { table with locked := false }.Sound (Function.update views thread
      ((views thread).after .unlock ())) := by
  refine hsound.held hheld (hsound.clear thread) nofun
    (fun _ hzero hlt => ⟨hzero, hlt⟩) rfl (fun _ => nofun) hsound.placed ?_ ?_ hsound.single
  · intro other hother
    cases hnone.symm.trans hother
  · intro session hlive
    obtain hlisted | ⟨other, hother, -⟩ := hsound.listed_of_holding hheld hlive
    · exact Or.inl hlisted
    · cases hnone.symm.trans hother

end Sound

section

variable {session : SessionId}

/-- A session that gains an owner was live. -/
theorem strong_retain (hlive : 0 < table.strong session) {other : SessionId}
    (hother : 0 < (table.retain session).strong other) : 0 < table.strong other := by
  by_cases heq : other = session
  · exact heq ▸ hlive
  · simpa [retain, heq] using hother

theorem strong_letGo {other : SessionId}
    (hother : 0 < (table.letGo session).strong other) : 0 < table.strong other := by
  by_cases heq : other = session
  · subst heq
    simp only [letGo, Function.update_self] at hother
    exact Nat.lt_of_lt_of_le hother (Nat.sub_le _ _)
  · simpa [letGo, heq] using hother

end

/-- What is asked of a step: a scan gives up no last reference. -/
def Shared (table : SessionTable) (view : SessionView) : SessionAct → Prop
  | .release session => view.holding = true → 1 < table.strong session
  | _ => True

/-- Every action that is allowed keeps the invariant. -/
theorem Sound.perform (hsound : table.Sound views) {thread : Nat} {act : SessionAct}
    {answer : act.Answer} (hallows : (views thread).allows act)
    (hshared : table.Shared (views thread) act)
    (hperform : table.perform act = some (answer, later)) :
    later.Sound (Function.update views thread ((views thread).after act answer)) := by
  have hold : ∀ session ∈ (views thread).expired, session ∈ (views thread).expired ∨
      table.strong session = 0 ∧ session < table.sessions.length :=
    fun session hmem => Or.inl hmem
  have hknown : ∀ entry, (views thread).Knows entry → table.Placed entry := by
    rintro entry ⟨hheld, entries, hentries, hmem⟩
    exact hsound.placed entry (hsound.known thread entries hheld hentries ▸ hmem)
  cases act with
  | lock =>
      simp only [SessionTable.perform] at hperform
      split at hperform
      case isTrue => cases hperform
      case isFalse hfree =>
        cases hperform
        exact hsound.lock ((Bool.not_eq_true _).mp hfree)
  | unlock =>
      cases hperform
      exact hsound.unlock hallows.1 hallows.2
  | entries =>
      cases hperform
      exact hsound.entries hallows
  | promote entry =>
      simp only [SessionTable.perform] at hperform
      split at hperform
      case isTrue hlive =>
        cases hperform
        exact hsound.quiet rfl rfl rfl (fun _ => strong_retain hlive)
          (hsound.clear thread) rfl rfl rfl hold
      case isFalse hdead =>
        cases hperform
        refine hsound.quiet rfl rfl rfl (fun _ => id) (hsound.clear thread) rfl rfl rfl ?_
        intro session hmem
        obtain rfl | hmem := List.mem_cons.mp hmem
        · exact Or.inr ⟨Nat.eq_zero_of_not_pos hdead, (hknown entry hallows).lt⟩
        · exact Or.inl hmem
  | expired entry =>
      cases hperform
      by_cases hdead : table.strong entry.session = 0
      · simp only [SessionView.after, hdead, decide_true, if_true]
        refine hsound.quiet rfl rfl rfl (fun _ => id) (hsound.clear thread) rfl rfl rfl ?_
        intro session hmem
        obtain rfl | hmem := List.mem_cons.mp hmem
        · exact Or.inr ⟨hdead, (hknown entry hallows).lt⟩
        · exact Or.inl hmem
      · simp only [SessionView.after, hdead, decide_false, Bool.false_eq_true, if_false]
        exact hsound.quiet rfl rfl rfl (fun _ => id) (hsound.clear thread) rfl rfl rfl hold
  | erase entry =>
      cases hperform
      exact hsound.erase hallows.1 hallows.2
  | construct grant first =>
      cases hperform
      exact hsound.construct hallows
  | pushBack entry =>
      cases hperform
      exact hsound.pushBack hallows.1 hallows.2
  | copy session =>
      simp only [SessionTable.perform] at hperform
      split at hperform
      case isTrue hlive =>
        cases hperform
        exact hsound.quiet rfl rfl rfl (fun _ => strong_retain hlive)
          (hsound.clear thread) rfl rfl rfl hold
      case isFalse => cases hperform
  | release session =>
      simp only [SessionTable.perform] at hperform
      split at hperform
      case isTrue hlive =>
        cases hperform
        refine hsound.quiet rfl rfl rfl (fun _ => strong_letGo) ?_ rfl rfl rfl hold
        -- the guard is what keeps the last reference from being given up here
        by_cases hheld : (views thread).holding = true
        · have hmany : table.strong session ≠ 1 := Nat.ne_of_gt (hshared hheld)
          simp [SessionView.after, hmany, hsound.clear thread]
        · simp [SessionView.after, hheld, hsound.clear thread]
      case isFalse => cases hperform
  | destroy session =>
      cases hperform
      exact hsound.quiet rfl rfl rfl (fun _ => id) (hsound.clear thread) rfl rfl rfl hold
  | handOver session =>
      cases hperform
      exact hsound.quiet rfl rfl rfl (fun _ => id) (hsound.clear thread) rfl rfl rfl hold
  | dropHeld session =>
      simp only [SessionTable.perform] at hperform
      split at hperform
      case isTrue =>
        cases hperform
        exact hsound.quiet rfl rfl rfl (fun _ => strong_letGo) (hsound.clear thread)
          rfl rfl rfl hold
      case isFalse => cases hperform

instance (view : SessionView) (act : SessionAct) : Decidable (table.Shared view act) :=
  match act with
  | .release _ => inferInstanceAs (Decidable (_ → _))
  | .lock | .unlock | .entries | .promote _ | .expired _ | .erase _ | .construct _ _
  | .pushBack _ | .copy _ | .destroy _ | .handOver _ | .dropHeld _ => isTrue trivial

/-- No step takes a session away. -/
theorem session_perform {act : SessionAct} {answer : act.Answer}
    (hperform : table.perform act = some (answer, later)) {session : SessionId}
    {made : OrderedSession} (hmade : table.sessions[session]? = some made) :
    later.sessions[session]? = some made := by
  have hlt := (List.getElem?_eq_some_iff.mp hmade).1
  cases act with
  | construct grant first =>
      cases hperform
      rwa [table.session_construct_of_lt _ _ hlt]
  | lock | promote | copy | release | dropHeld =>
      simp only [SessionTable.perform] at hperform
      split at hperform <;> cases hperform <;> exact hmade
  | unlock | entries | expired | erase | pushBack | destroy | handOver =>
      cases hperform
      exact hmade

end SessionTable

end BbtFramework.Ordered
