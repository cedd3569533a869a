import BbtFramework.Library.Program
import Mathlib.Data.Nat.Find
import Mathlib.Logic.Relation

/-!
# Programs under interference

One thread of a pool, and others that act on the same state between its actions.  A
contract says what the others may do, by the view of the thread, which answers the thread
may count on, and what has to hold of the state when it asks for an action.  What a
program secures under a contract it secures in every run in which the others keep to it; a
predicate they keep carries from one action to the next.  A thread that gets its turns
returns.
-/

namespace BbtFramework.Library

/-- `rely` is what the others may do to the state while the thread has a view, `grants`
the answers an action may get in a state, `asserts` what must hold when it is asked for. -/
structure Contract (Act : Type) (Ans : Act → Type) (State View : Type) where
  rely : View → State → State → Prop
  grants : (act : Act) → Ans act → View → State → Prop
  asserts : Act → View → State → Prop

section

variable {Act : Type} {Ans : Act → Type} {State View : Type}
variable {contract : Contract Act Ans State View}

/-- What the others cannot undo while the thread has a view. -/
def Contract.Stable (contract : Contract Act Ans State View) (view : View)
    (motive : State → Prop) : Prop :=
  ∀ state last, motive state → contract.rely view state last → motive last

theorem Contract.Stable.closure {view : View} {motive : State → Prop}
    (hstable : contract.Stable view motive) {state last : State}
    (hrely : Relation.ReflTransGen (contract.rely view) state last) (hmotive : motive state) :
    motive last := by
  induction hrely with
  | refl => exact hmotive
  | tail _ hlast ih => exact hstable _ _ ih hlast

end

namespace System

variable {Act : Type} {Ans : Act → Type}
variable {Value State View Entry Choice Event Inner Other : Type}
variable (sys : System Act Ans Value State View Entry Choice Event)
variable (contract : Contract Act Ans State View)

/-- From `view` and `state` on, whatever the others do, every action of the program finds
what it asserts, and the program returns in a view and a state that `post` accepts. -/
def Secures : Program Act Ans Inner → View → State → (Inner → View → State → Prop) → Prop
  | .done value, view, state, post =>
      ∀ last, Relation.ReflTransGen (contract.rely view) state last → post value view last
  | .call act next, view, state, post =>
      ∀ middle, Relation.ReflTransGen (contract.rely view) state middle →
        contract.asserts act view middle ∧
          ∀ choice answer last, sys.perform act choice middle = some (answer, last) →
            contract.grants act answer view middle →
            Secures (next answer) (sys.discipline.after act answer view) last post

variable {sys contract}

namespace Secures

variable {program : Program Act Ans Inner} {view : View} {state last : State}
variable {post : Inner → View → State → Prop}

theorem rely (hsecures : sys.Secures contract program view state post)
    (hrely : contract.rely view state last) : sys.Secures contract program view last post := by
  cases program with
  | done value => exact fun final hfinal => hsecures final (hfinal.head hrely)
  | call act next => exact fun middle hmiddle => hsecures middle (hmiddle.head hrely)

theorem returned {value : Inner} (hsecures : sys.Secures contract program view state post)
    (hreturned : program.returned = some value) : post value view state := by
  cases program with
  | done given =>
      cases hreturned
      exact hsecures state .refl
  | call act next => cases hreturned

theorem asked {act : Act} (hsecures : sys.Secures contract program view state post)
    (hasks : program.asks = some act) : contract.asserts act view state := by
  cases program with
  | done value => cases hasks
  | call given next =>
      cases hasks
      exact (hsecures state .refl).1

theorem done {value : Inner} {motive : State → Prop} (hstable : contract.Stable view motive)
    (hmotive : motive state) (hpost : ∀ last, motive last → post value view last) :
    sys.Secures contract (pure value) view state post :=
  fun last hlast => hpost last (hstable.closure hlast hmotive)

/-- One action and then the rest; `motive` is what the others leave as it is. -/
theorem step {act : Act} {next : Ans act → Program Act Ans Inner} {motive : State → Prop}
    (hstable : contract.Stable view motive) (hmotive : motive state)
    (hasserts : ∀ middle, motive middle → contract.asserts act view middle)
    (hnext : ∀ middle choice answer last, motive middle →
      sys.perform act choice middle = some (answer, last) →
      contract.grants act answer view middle →
      sys.Secures contract (next answer) (sys.discipline.after act answer view) last post) :
    sys.Secures contract (Program.ask act >>= next) view state post := by
  intro middle hmiddle
  have hkept := hstable.closure hmiddle hmotive
  exact ⟨hasserts middle hkept, fun choice answer last => hnext middle choice answer last hkept⟩

theorem mono {weak : Inner → View → State → Prop}
    (hsecures : sys.Secures contract program view state post)
    (himp : ∀ value view last, post value view last → weak value view last) :
    sys.Secures contract program view state weak := by
  induction program generalizing view state with
  | done value => exact fun last hlast => himp value view last (hsecures last hlast)
  | call act next ih =>
      intro middle hmiddle
      obtain ⟨hasserts, hnext⟩ := hsecures middle hmiddle
      exact ⟨hasserts, fun choice answer last hperform hgranted =>
        ih answer (hnext choice answer last hperform hgranted)⟩

/-- A program whose specification is known, and then the rest. -/
theorem andThen {next : Inner → Program Act Ans Other}
    {final : Other → View → State → Prop}
    (hsecures : sys.Secures contract program view state post)
    (hnext : ∀ value view last, post value view last →
      sys.Secures contract (next value) view last final) :
    sys.Secures contract (program >>= next) view state final := by
  induction program generalizing view state with
  | done value => exact hnext value view state (hsecures state .refl)
  | call act rest ih =>
      intro middle hmiddle
      obtain ⟨hasserts, hrest⟩ := hsecures middle hmiddle
      exact ⟨hasserts, fun choice answer last hperform hgranted =>
        ih answer (hrest choice answer last hperform hgranted)⟩

/-- A view that no answer changes and in which nothing is asked for. -/
theorem idle (hview : ∀ act answer, sys.discipline.after act answer view = view)
    (hasserts : ∀ act state, contract.asserts act view state)
    (hpost : ∀ value state, post value view state) :
    sys.Secures contract program view state post := by
  induction program generalizing state with
  | done value => exact fun last _ => hpost value last
  | call act next ih =>
      intro middle _
      refine ⟨hasserts act middle, fun choice answer last _ _ => ?_⟩
      rw [hview]
      exact ih answer

/-- What every step keeps, the program's own and the others', it secures anyway. -/
theorem keeps {motive : State → Prop} (hstable : ∀ view, contract.Stable view motive)
    (hasserts : ∀ act view state, contract.asserts act view state)
    (hperform : ∀ act choice state answer last, sys.perform act choice state =
      some (answer, last) → motive state → motive last)
    (hmotive : motive state) :
    sys.Secures contract program view state (fun _ _ last => motive last) := by
  induction program generalizing view state with
  | done value => exact fun last hlast => (hstable view).closure hlast hmotive
  | call act next ih =>
      intro middle hmiddle
      refine ⟨hasserts act view middle, fun choice answer last hlast _ => ?_⟩
      exact ih answer (hperform act choice middle answer last hlast
        ((hstable view).closure hmiddle hmotive))

end Secures

/-- The step of another thread is none of this one. -/
theorem next_others {pool last : Pool Act Ans Value State View}
    {label : PoolStep Entry Choice Event} {thread : Nat} (hlt : thread < pool.count)
    (hothers : label.actor ≠ some thread) (hnext : sys.next pool label = some last) :
    last.threads thread = pool.threads thread ∧ last.views thread = pool.views thread := by
  cases label with
  | spawn entry =>
      cases hnext
      exact ⟨Function.update_of_ne (Nat.ne_of_lt hlt) _ _, rfl⟩
  | step actor choice =>
      have hne : thread ≠ actor := fun heq => hothers (congrArg some heq.symm)
      obtain ⟨-, act, rest, answer, state, -, -, rfl⟩ := next_step hnext
      exact ⟨Function.update_of_ne hne _ _, Function.update_of_ne hne _ _⟩
  | env event =>
      obtain ⟨shared, -, rfl⟩ := Option.map_eq_some_iff.mp hnext
      exact ⟨rfl, rfl⟩

/-- A thread that was started stays so. -/
theorem next_count {pool last : Pool Act Ans Value State View}
    {label : PoolStep Entry Choice Event} (hnext : sys.next pool label = some last) :
    pool.count ≤ last.count := by
  cases label with
  | spawn entry =>
      cases hnext
      exact Nat.le_succ _
  | step actor choice =>
      obtain ⟨-, act, rest, answer, state, -, -, rfl⟩ := next_step hnext
      exact Nat.le_refl _
  | env event =>
      obtain ⟨shared, -, rfl⟩ := Option.map_eq_some_iff.mp hnext
      exact Nat.le_refl _

theorem next_returned {pool last : Pool Act Ans Value State View}
    {label : PoolStep Entry Choice Event} {thread : Nat} {value : Value}
    (hlt : thread < pool.count) (hnext : sys.next pool label = some last)
    (hreturned : (pool.threads thread).returned = some value) :
    (last.threads thread).returned = some value := by
  by_cases hactor : label.actor = some thread
  · cases label with
    | step actor choice =>
        obtain rfl := Option.some.inj hactor
        obtain ⟨-, act, rest, answer, state, hthread, -, -⟩ := next_step hnext
        rw [hthread] at hreturned
        cases hreturned
    | _ => cases hactor
  · rw [(next_others hlt hactor hnext).1]
    exact hreturned

theorem Secures.run {guard : Pool Act Ans Value State View → PoolStep Entry Choice Event → Prop}
    {first last : Pool Act Ans Value State View} {labels : List (PoolStep Entry Choice Event)}
    {thread : Nat} {post : Value → View → State → Prop} (hstarted : thread < first.count)
    (hfirst : sys.Secures contract (first.threads thread) (first.views thread) first.shared post)
    (hrely : ∀ performed middle label after, sys.machine.Run guard first performed middle →
      guard middle label → label.actor ≠ some thread → sys.next middle label = some after →
      contract.rely (middle.views thread) middle.shared after.shared)
    (hgrants : ∀ performed middle choice act answer state,
      sys.machine.Run guard first performed middle → guard middle (.step thread choice) →
      (middle.threads thread).asks = some act →
      sys.perform act choice middle.shared = some (answer, state) →
      contract.grants act answer (middle.views thread) middle.shared)
    (hrun : sys.machine.Run guard first labels last) :
    sys.Secures contract (last.threads thread) (last.views thread) last.shared post := by
  suffices thread < last.count ∧ sys.Secures contract (last.threads thread)
      (last.views thread) last.shared post from this.2
  induction hrun with
  | refl => exact ⟨hstarted, hfirst⟩
  | @tail performed middle after label hbefore hguard hnext ih =>
      obtain ⟨hlt, hsecures⟩ := ih
      refine ⟨Nat.lt_of_lt_of_le hlt (next_count hnext), ?_⟩
      by_cases hactor : label.actor = some thread
      · cases label with
        | step actor choice =>
            obtain rfl := Option.some.inj hactor
            obtain ⟨-, act, rest, answer, state, hthread, hperform, rfl⟩ := next_step hnext
            dsimp only
            rw [Function.update_self, Function.update_self]
            have hgranted := hgrants performed middle choice act answer state hbefore hguard
              (by rw [hthread, Program.asks]) hperform
            rw [hthread] at hsecures
            exact (hsecures middle.shared .refl).2 choice answer state hperform hgranted
        | _ => cases hactor
      · obtain ⟨hthread, hview⟩ := next_others hlt hactor hnext
        rw [hthread, hview]
        exact hsecures.rely (hrely performed middle label after hbefore hguard hactor hnext)

end System

/-- A run that does not end. -/
structure Machine.Endless {State Label : Type} (machine : Machine State Label)
    (guard : State → Label → Prop) (states : Nat → State) (labels : Nat → Label) : Prop where
  guarded : ∀ time, guard (states time) (labels time)
  next : ∀ time, machine.next (states time) (labels time) = some (states (time + 1))

theorem Machine.Endless.run {State Label : Type} {machine : Machine State Label}
    {guard : State → Label → Prop} {states : Nat → State} {labels : Nat → Label}
    (hendless : machine.Endless guard states labels) (time : Nat) :
    machine.Run guard (states 0) ((List.range time).map labels) (states time) := by
  induction time with
  | zero => exact .refl
  | succ time ih =>
      rw [List.range_succ, List.map_append]
      exact ih.tail (hendless.guarded time) (hendless.next time)

namespace System

variable {Act : Type} {Ans : Act → Type} {Value State View Entry Choice Event : Type}
variable {sys : System Act Ans Value State View Entry Choice Event}
variable {guard : Pool Act Ans Value State View → PoolStep Entry Choice Event → Prop}
variable {pools : Nat → Pool Act Ans Value State View}
variable {labels : Nat → PoolStep Entry Choice Event} {thread : Nat}

/-- The thread gets another turn as long as it has not returned. -/
def Serves (thread : Nat) (pools : Nat → Pool Act Ans Value State View)
    (labels : Nat → PoolStep Entry Choice Event) : Prop :=
  ∀ time, ((pools time).threads thread).returned = none →
    ∃ later, time ≤ later ∧ (labels later).actor = some thread

/-- Until its next turn a thread is left where it is. -/
theorem waits_of_endless (hendless : sys.machine.Endless guard pools labels) {start : Nat}
    (hstarted : thread < (pools start).count) (length : Nat)
    (hothers : ∀ offset < length, (labels (start + offset)).actor ≠ some thread) :
    thread < (pools (start + length)).count ∧
      (pools (start + length)).threads thread = (pools start).threads thread := by
  induction length with
  | zero => exact ⟨hstarted, rfl⟩
  | succ length ih =>
      obtain ⟨hlt, hsame⟩ :=
        ih (fun offset hoffset => hothers offset (Nat.lt_succ_of_lt hoffset))
      have hnext := hendless.next (start + length)
      obtain ⟨hthread, -⟩ := next_others hlt (hothers length (Nat.lt_succ_self _)) hnext
      exact ⟨Nat.lt_of_lt_of_le hlt (next_count hnext), hthread.trans hsame⟩

theorem count_of_endless (hendless : sys.machine.Endless guard pools labels)
    {start later : Nat} (hle : start ≤ later) : (pools start).count ≤ (pools later).count := by
  induction later, hle using Nat.le_induction with
  | base => exact Nat.le_refl _
  | succ later _ ih => exact Nat.le_trans ih (next_count (hendless.next later))

/-- A thread that gets its turns returns: with every turn less of its program is left. -/
theorem returns_of_endless (hendless : sys.machine.Endless guard pools labels)
    (hserves : Serves thread pools labels) {start : Nat}
    (hstarted : thread < (pools start).count) :
    ∃ time value, start ≤ time ∧
      ∀ later, time ≤ later → ((pools later).threads thread).returned = some value := by
  generalize hprogram : (pools start).threads thread = program
  induction program generalizing start with
  | done value =>
      refine ⟨start, value, Nat.le_refl _, ?_⟩
      intro later hle
      induction later, hle using Nat.le_induction with
      | base => rw [hprogram, Program.returned]
      | succ later hle ih =>
          have hlt := Nat.lt_of_lt_of_le hstarted (count_of_endless hendless hle)
          exact next_returned hlt (hendless.next later) ih
  | call act rest ih =>
      have hturn : ∃ offset, (labels (start + offset)).actor = some thread := by
        obtain ⟨later, hle, hactor⟩ := hserves start (by rw [hprogram, Program.returned])
        exact ⟨later - start, by rw [Nat.add_sub_cancel' hle]; exact hactor⟩
      classical
      obtain ⟨hlt, hsame⟩ := waits_of_endless hendless hstarted (Nat.find hturn)
        (fun offset hoffset => Nat.find_min hturn hoffset)
      have hactor := Nat.find_spec hturn
      have hnext : sys.next _ _ = _ := hendless.next (start + Nat.find hturn)
      generalize labels (start + Nat.find hturn) = label at hactor hnext
      cases label with
      | step actor choice =>
          obtain rfl := Option.some.inj hactor
          obtain ⟨-, given, left, answer, state, hthread, -, hlast⟩ := next_step hnext
          rw [hsame, hprogram] at hthread
          obtain ⟨rfl, hrest⟩ := Program.call.inj hthread
          obtain rfl := eq_of_heq hrest
          have hafter : (pools (start + Nat.find hturn + 1)).threads actor = rest answer := by
            rw [hlast]
            exact Function.update_self _ _ _
          obtain ⟨time, value, hle, hreturned⟩ :=
            ih answer (Nat.lt_of_lt_of_le hlt (next_count hnext)) hafter
          exact ⟨time, value, by omega, hreturned⟩
      | _ => cases hactor

end System

end BbtFramework.Library
