import BbtFramework.Ordered.SessionReaders

/-!
# One sender for each stream

In every run a stream has at most one live session, and the registry is not locked twice
by one thread.
-/

namespace BbtFramework.Ordered

open BbtFramework.Library

abbrev SessionPool :=
  Pool SessionAct SessionAct.Answer OpenResult SessionTable SessionView

abbrev SessionStep :=
  PoolStep SessionEntry Unit SessionEvent

/-- When a scan ends a temporary owner, the session has another owner. -/
def OwnersRemain (pool : SessionPool) (label : SessionStep) : Prop :=
  ∀ thread ∈ label.actor, ∀ act ∈ pool.asked label,
    pool.shared.Shared (pool.views thread) act

instance (pool : SessionPool) (label : SessionStep) : Decidable (OwnersRemain pool label) :=
  inferInstanceAs (Decidable (∀ thread ∈ label.actor, ∀ act ∈ pool.asked label,
    pool.shared.Shared (pool.views thread) act))

section

variable [Infra]

theorem sound_of_reachable {pool : SessionPool}
    (hreach : sessionSystem.machine.ReachableWhere OwnersRemain pool) :
    pool.shared.Sound pool.views := by
  refine sessions_disciplined.invariant (motive := fun table views => table.Sound views)
    ?_ ?_ ?_ hreach
  · rintro table rfl
    constructor
    case clear => exact fun _ => rfl
    case locked | alone | expired | pending => exact fun _ => nofun
    case known => exact fun _ _ => nofun
    case placed => exact fun _ => nofun
    case listed => exact fun _ hlive => absurd hlive (Nat.lt_irrefl 0)
    case single => exact fun _ _ _ _ hlive => absurd hlive (Nat.lt_irrefl 0)
  · intro pool thread choice act answer table hacts hsound
    obtain ⟨rest, hrest⟩ := hacts.asked
    have hasked : pool.asked (.step thread choice : SessionStep) = some act := by
      simp [Pool.asked, hrest, Program.asks]
    refine hsound.perform ?_ (hacts.guarded thread rfl act hasked) hacts.performed
    exact hacts.allowed.resolve_left (by simp [hsound.clear thread])
  · rintro pool ⟨session⟩ table - - henv hsound
    simp only [sessionSystem] at henv
    split at henv
    case isTrue hlive =>
      cases henv
      refine Function.update_eq_self 0 pool.views ▸ hsound.quiet rfl rfl rfl ?_
        (hsound.clear 0) rfl rfl rfl (fun _ => Or.inl)
      exact fun _ => SessionTable.strong_retain hlive
    case isFalse => cases henv

/-- What an `Open` has found and built while a session was live: nothing else of
the stream of the session. -/
structure Spared (thread : Nat) (session : SessionId) (made : OrderedSession)
    (pool : SessionPool) : Prop where
  kept : pool.shared.sessions[session]? = some made
  found : ∀ entry ∈ (pool.views thread).found,
    sameOrderedStreamId entry.grant made.grant = true →
      entry.session = session ∧ entry.grant = made.grant
  built : ∀ entry ∈ (pool.views thread).built,
    sameOrderedStreamId entry.grant made.grant = false

theorem Spared.step {thread : Nat} {session : SessionId} {made : OrderedSession}
    {pool last : SessionPool} {label : SessionStep} (hspared : Spared thread session made pool)
    (hreach : sessionSystem.machine.ReachableWhere OwnersRemain pool)
    (hguard : OwnersRemain pool label) (hlive : 0 < pool.shared.strong session)
    (hnext : sessionSystem.next pool label = some last) :
    Spared thread session made last := by
  have hsound := sound_of_reachable hreach
  have hkept : last.shared.sessions[session]? = some made := by
    cases label with
    | spawn entry =>
        cases hnext
        exact hspared.kept
    | step actor choice =>
        obtain ⟨-, act, rest, answer, state, -, hperform, rfl⟩ := System.next_step hnext
        exact SessionTable.session_perform hperform hspared.kept
    | env event =>
        obtain ⟨shared, henv, rfl⟩ := Option.map_eq_some_iff.mp hnext
        obtain ⟨other⟩ := event
        simp only [sessionSystem] at henv
        split at henv
        case isTrue =>
          cases henv
          exact hspared.kept
        case isFalse => cases henv
  obtain hsame | ⟨choice, act, answer, hacts, hview⟩ :=
    sessions_disciplined.view_step hreach hguard hnext thread
  · refine ⟨hkept, ?_, ?_⟩
    · rw [hsame]
      exact hspared.found
    · rw [hsame]
      exact hspared.built
  have hallows : (pool.views thread).allows act :=
    hacts.allowed.resolve_left (by simp [hsound.clear thread])
  have hold : ∀ {view : SessionView}, last.views thread = view →
      view.found = (pool.views thread).found → view.built = (pool.views thread).built →
        Spared thread session made last := by
    intro view heq hfound hbuilt
    refine ⟨hkept, ?_, ?_⟩
    · rw [heq, hfound]
      exact hspared.found
    · rw [heq, hbuilt]
      exact hspared.built
  cases act with
  | promote entry =>
      obtain ⟨hheld, entries, hentries, hmem⟩ := hallows
      change Bool at answer
      cases answer with
      | false => exact hold hview rfl rfl
      | true =>
          refine ⟨hkept, ?_, ?_⟩
          · rw [hview]
            intro other hother hstream
            obtain rfl | hother := List.mem_cons.mp hother
            · obtain ⟨a, ha, hgrant⟩ := hsound.placed other
                (hsound.known thread entries hheld hentries ▸ hmem)
              have hpromoted : 0 < pool.shared.strong other.session := by
                have hperform := hacts.performed
                simp only [sessionSystem, SessionTable.perform] at hperform
                split at hperform
                case isTrue hpromoted => exact hpromoted
                case isFalse => cases hperform
              have heq : other.session = session :=
                hsound.single _ _ a made hpromoted hlive ha hspared.kept (hgrant ▸ hstream)
              refine ⟨heq, ?_⟩
              obtain rfl := Option.some.inj ((heq ▸ ha).symm.trans hspared.kept)
              exact hgrant.symm
            · exact hspared.found other hother hstream
          · rw [hview]
            exact hspared.built
  | construct grant first =>
      obtain ⟨hheld, hnone, entries, hentries, hother⟩ := hallows
      refine ⟨hkept, ?_, ?_⟩
      · rw [hview]
        exact hspared.found
      · rw [hview]
        intro entry hmem
        obtain rfl | hmem := List.mem_cons.mp hmem
        · obtain ⟨entry, hmem, rfl⟩ | ⟨entry, hentry, -⟩ :=
            hsound.listed_of_holding hheld hlive
          · obtain ⟨a, ha, hgrant⟩ := hsound.placed entry hmem
            obtain rfl := Option.some.inj (ha.symm.trans hspared.kept)
            rw [sameOrderedStreamId_comm, hgrant]
            exact hother entry (hsound.known thread entries hheld hentries ▸ hmem)
          · cases hnone.symm.trans hentry
        · exact hspared.built entry hmem
  | expired entry =>
      change Bool at answer
      cases answer with
      | false => exact hold hview rfl rfl
      | true => exact hold hview rfl rfl
  | _ => exact hold hview rfl rfl

/-- In every run whose scans end no last owner: a thread that has the mutex neither
takes it again nor enters the destructor; a stream has at most one live session;
and an `Open` during which a session of the stream stays live returns it for an
equal grant and is rejected for a conflicting one. -/
theorem one_sender {pool : SessionPool}
    (hreach : sessionSystem.machine.ReachableWhere OwnersRemain pool) :
    (∀ thread, (pool.views thread).holding = true →
      ∀ act ∈ (pool.threads thread).asks, act ≠ .lock ∧ ∀ session, act ≠ .destroy session) ∧
    pool.shared.SingleSender ∧
    ∀ entry first labels last session made grant result,
      sessionSystem.next pool (.spawn entry) = some first →
      sessionSystem.machine.Run
        (fun pool label => OwnersRemain pool label ∧ 0 < pool.shared.strong session)
        first labels last →
      first.shared.sessions[session]? = some made →
      sameOrderedStreamId grant made.grant = true →
      (last.threads pool.count).returned = some (.opened grant result) →
      result = if grant = made.grant then .ok session else .error streamRejectedError := by
  have hsound := sound_of_reachable hreach
  refine ⟨?_, hsound.single, ?_⟩
  · intro thread hheld act hact
    have hallows := (sessions_disciplined.allowed hreach hact).resolve_left
      (by simp [hsound.clear thread])
    constructor
    · rintro rfl
      exact nomatch hheld.symm.trans hallows
    · rintro session rfl
      exact nomatch hheld.symm.trans hallows
  · intro entry first labels last session made grant result hspawn hrun hmade hstream
    have hstart : Spared pool.count session made first := by
      cases hspawn
      have hfresh := System.views_of_ge hreach pool.count (Nat.le_refl _)
      refine ⟨hmade, ?_, ?_⟩
      · dsimp only
        rw [hfresh]
        exact fun _ => nofun
      · dsimp only
        rw [hfresh]
        exact fun _ => nofun
    have hguard : OwnersRemain pool (.spawn entry) := fun _ hactor => nomatch hactor
    have hfirst : sessionSystem.machine.ReachableWhere OwnersRemain first :=
      hreach.step hguard hspawn
    have hlast : sessionSystem.machine.ReachableWhere OwnersRemain last ∧
        Spared pool.count session made last := by
      induction hrun with
      | refl => exact ⟨hfirst, hstart⟩
      | tail _ hguard hnext ih =>
          obtain ⟨hmiddle, hspared⟩ := ih
          exact ⟨hmiddle.step hguard.1 hnext,
            hspared.step hmiddle hguard.1 hguard.2 hnext⟩
    obtain ⟨hlast, hspared⟩ := hlast
    intro hreturned
    have hexplained := (sessions_disciplined.returned hlast hreturned).resolve_left
      (by simp [(sound_of_reachable hlast).clear pool.count])
    cases result with
    | ok other =>
        obtain hfound | hbuilt := hexplained
        · obtain ⟨rfl, hequal⟩ := hspared.found _ hfound hstream
          exact (if_pos hequal).symm
        · cases (hspared.built _ hbuilt).symm.trans hstream
    | error error =>
        obtain ⟨rfl, entry, hfound, hsame, hdiffers⟩ := hexplained
        have hentry : sameOrderedStreamId entry.grant made.grant = true :=
          sameOrderedStreamId_trans hsame hstream
        obtain ⟨-, hequal⟩ := hspared.found _ hfound hentry
        refine (if_neg ?_).symm
        rintro rfl
        exact hdiffers hequal

end

def senderGrant (actorKey : String) : OrderedGrant :=
  ⟨"service", actorKey, "producer", "1", "1", "peer"⟩

/-- A client opens a session, which takes six steps when the registry is empty. -/
def firstOpen : List SessionStep :=
  .spawn (.open (senderGrant "a")) :: List.replicate 6 (.step 0 ())

/-- A second `Open` of the stream, seven steps, returns the session of the first. -/
theorem one_sender_shared :
    letI := permissiveInfra
    ∃ (pool first last : SessionPool) (made : OrderedSession),
      sessionSystem.machine.ReachableWhere OwnersRemain pool ∧
      sessionSystem.next pool (.spawn (.open (senderGrant "a"))) = some first ∧
      first.shared.sessions[0]? = some made ∧
      (last.threads pool.count).returned = some (.opened (senderGrant "a") (.ok 0)) ∧
      Except.ok 0 =
        if senderGrant "a" = made.grant then .ok 0 else .error streamRejectedError := by
  let _ := permissiveInfra
  have hboot : sessionSystem.machine.ReachableWhere OwnersRemain
      (sessionSystem.boot .fresh) := .start ⟨_, rfl, rfl⟩
  obtain ⟨pool, hreach, htest⟩ := hboot.exec_any
    (fun pool label => decide (OwnersRemain pool label)) (fun _ _ => of_decide_eq_true)
    firstOpen
    (fun pool => (sessionSystem.next pool (.spawn (.open (senderGrant "a")))).any
      (fun first => (sessionSystem.machine.exec (fun pool label =>
          decide (OwnersRemain pool label ∧ 0 < pool.shared.strong 0)) first
          (List.replicate 7 (.step 1 ()))).any (fun last =>
        (first.shared.sessions[0]?).any (fun made =>
          sameOrderedStreamId (senderGrant "a") made.grant = true ∧
            (last.threads pool.count).returned =
              some (.opened (senderGrant "a") (.ok 0)))))) (by decide)
  obtain ⟨first, hfirst, htest⟩ := (Option.any_eq_true _ _).mp htest
  obtain ⟨last, hexec, htest⟩ := (Option.any_eq_true _ _).mp htest
  obtain ⟨made, hmade, htest⟩ := (Option.any_eq_true _ _).mp htest
  obtain ⟨hstream, hreturned⟩ := of_decide_eq_true htest
  have hrun : sessionSystem.machine.Run
      (fun pool label => OwnersRemain pool label ∧ 0 < pool.shared.strong 0)
      first (List.replicate 7 (.step 1 ())) last :=
    .exec (fun _ _ => of_decide_eq_true) hexec
  exact ⟨pool, first, last, made, hreach, hfirst, hmade, hreturned,
    (one_sender hreach).2.2 _ first _ last 0 made _ _ hfirst hrun hmade hstream hreturned⟩

/-- The scan of another stream ends the last owner of a session. -/
theorem registry_locks_itself :
    letI := permissiveInfra
    ¬∀ pool, sessionSystem.machine.Reachable pool →
      ∀ thread, (pool.views thread).holding = true →
        ∀ session, (pool.threads thread).asks ≠ some (.destroy session) := by
  let _ := permissiveInfra
  intro hclaim
  have hboot : sessionSystem.machine.Reachable (sessionSystem.boot .fresh) :=
    .start ⟨_, rfl, rfl⟩
  obtain ⟨pool, hreach, htest⟩ := hboot.exec_any (fun _ _ => true) (fun _ _ _ => trivial)
    (firstOpen ++ .spawn (.open (senderGrant "b")) :: List.replicate 3 (.step 1 ()) ++
      [.spawn (.drop 0), .step 2 (), .step 1 ()])
    (fun pool => (pool.views 1).holding = true ∧
      (pool.threads 1).asks = some (.destroy 0)) (by decide)
  obtain ⟨hheld, hasks⟩ := of_decide_eq_true htest
  exact hclaim pool hreach 1 hheld 0 hasks

end BbtFramework.Ordered
