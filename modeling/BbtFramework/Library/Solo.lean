import BbtFramework.Library.Program

/-!
# A thread that runs by itself

What a program can do alone on the shared state, a thread of a pool can do while every
other thread rests.
-/

namespace BbtFramework.Library

namespace Program

variable {Act : Type} {Ans : Act → Type} {Value Other State : Type}
variable {serves : (act : Act) → State → Ans act → State → Prop}

theorem Served.trans {first middle last : Program Act Ans Value} {state between final : State}
    (hfirst : Served serves first state middle between)
    (hsecond : Served serves middle between last final) :
    Served serves first state last final := by
  induction hfirst with
  | refl => exact hsecond
  | call hserves _ ih => exact .call hserves (ih hsecond)

/-- A part of a program, under what comes after it. -/
theorem Served.under {program last : Program Act Ans Value} {state final : State}
    (next : Value → Program Act Ans Other) (hserved : Served serves program state last final) :
    Served serves (program >>= next) state (last >>= next) final := by
  induction hserved with
  | refl => exact .refl _ _
  | call hserves _ ih => exact .call hserves ih

/-- A part of a program that returns, and what comes after it. -/
theorem Served.andThen {program : Program Act Ans Value} {value : Value}
    {next : Value → Program Act Ans Other} {last : Program Act Ans Other}
    {state between final : State} (hserved : Served serves program state (.done value) between)
    (hnext : Served serves (next value) between last final) :
    Served serves (program >>= next) state last final :=
  (hserved.under next).trans hnext

/-- One action and then the rest. -/
theorem Served.step {act : Act} {answer : Ans act} {next : Ans act → Program Act Ans Value}
    {last : Program Act Ans Value} {state between final : State}
    (hserves : serves act state answer between)
    (hnext : Served serves (next answer) between last final) :
    Served serves (ask act >>= next) state last final :=
  .call hserves hnext

end Program

namespace System

variable {Act : Type} {Ans : Act → Type}
variable {Value State View Entry Choice Event : Type}
variable {sys : System Act Ans Value State View Entry Choice Event}

/-- Some choice of the environment answers the action so. -/
def MayAnswer (sys : System Act Ans Value State View Entry Choice Event) (act : Act)
    (state : State) (answer : Ans act) (last : State) : Prop :=
  ∃ choice, sys.perform act choice state = some (answer, last)

/-- The pool in which a thread goes on while the others rest. -/
theorem run_served {program last : Program Act Ans Value} {state final : State}
    (hserved : Program.Served sys.MayAnswer program state last final) :
    ∀ (pool : Pool Act Ans Value State View) (thread : Nat), thread < pool.count →
      pool.threads thread = program → pool.shared = state →
      ∃ labels after, sys.machine.Run (fun _ _ => True) pool labels after ∧
        after.shared = final ∧ after.count = pool.count ∧
        after.threads = Function.update pool.threads thread last := by
  induction hserved with
  | refl program state =>
      intro pool thread _ hthread hshared
      refine ⟨[], pool, .refl, hshared, rfl, ?_⟩
      rw [← hthread, Function.update_eq_self]
  | @call act rest answer last state middle final hserves _ ih =>
      rintro pool thread hlt hthread rfl
      obtain ⟨choice, hperform⟩ := hserves
      let between : Pool Act Ans Value State View := { pool with
        shared := middle
        threads := Function.update pool.threads thread (rest answer)
        views := Function.update pool.views thread
          (sys.discipline.after act answer (pool.views thread)) }
      have hnext : sys.next pool (.step thread choice) = some between := by
        simp only [next, if_pos hlt, hthread, hperform, Option.map_some]
        rfl
      obtain ⟨labels, after, hrun, hshared, hcount, hthreads⟩ :=
        ih between thread hlt (Function.update_self _ _ _) rfl
      refine ⟨[.step thread choice] ++ labels, after, ?_, hshared, hcount, ?_⟩
      · exact (Machine.Run.tail .refl trivial hnext).append hrun
      · rw [hthreads, Function.update_idem]

/-- A thread is started, and goes on while the others rest. -/
theorem run_spawned {pool : Pool Act Ans Value State View} {entry : Entry}
    {last : Program Act Ans Value} {final : State}
    (hserved : Program.Served sys.MayAnswer (sys.main entry) pool.shared last final) :
    ∃ labels after, sys.machine.Run (fun _ _ => True) pool (.spawn entry :: labels) after ∧
      after.shared = final ∧ after.count = pool.count + 1 ∧
      after.threads = Function.update pool.threads pool.count last := by
  let started : Pool Act Ans Value State View := { pool with
    count := pool.count + 1
    threads := Function.update pool.threads pool.count (sys.main entry) }
  have hspawn : sys.machine.Run (fun _ _ => True) pool [.spawn entry] started :=
    Machine.Run.tail .refl trivial rfl
  obtain ⟨labels, after, hrun, hshared, hcount, hthreads⟩ :=
    run_served hserved started pool.count (Nat.lt_succ_self _) (Function.update_self _ _ _) rfl
  refine ⟨labels, after, hspawn.append hrun, hshared, hcount, ?_⟩
  rw [hthreads, Function.update_idem]

end System

end BbtFramework.Library
