import BbtFramework.Library.Machine
import Mathlib.Logic.Function.Basic

/-!
# Pools of sequential programs

A program asks for atomic actions one after another and goes on with their
answers.  A pool runs any number of programs over one shared state, one action
at a time, in any order.  Each thread carries a ghost view, the record of what
its past answers have told it; a discipline says which view an action needs and
what the answer makes of it.  A program that follows the discipline on every
answer follows it in every interleaving, so an invariant over the shared state
and the views is proved action by action.
-/

namespace BbtFramework.Library

/-- A program over the actions `Act`, where `act` is answered by an `Ans act`. -/
inductive Program (Act : Type) (Ans : Act → Type) (Value : Type) where
  | done (value : Value)
  | call (act : Act) (next : Ans act → Program Act Ans Value)

namespace Program

variable {Act : Type} {Ans : Act → Type} {Value Other : Type}

def bind : Program Act Ans Value → (Value → Program Act Ans Other) →
    Program Act Ans Other
  | .done value, next => next value
  | .call act rest, next => .call act (fun answer => (rest answer).bind next)

instance : Monad (Program Act Ans) where
  pure := .done
  bind := bind

/-- The action a program asks for next. -/
def asks : Program Act Ans Value → Option Act
  | .done _ => none
  | .call act _ => some act

def returned : Program Act Ans Value → Option Value
  | .done value => some value
  | .call _ _ => none

/-- The program that performs one action and returns its answer. -/
def ask (act : Act) : Program Act Ans (Ans act) :=
  .call act .done

/-- The program with every action replaced by what a handler does for it. -/
def interpret {Low : Type} {LowAns : Low → Type}
    (handler : (act : Act) → Program Low LowAns (Ans act)) :
    Program Act Ans Value → Program Low LowAns Value
  | .done value => .done value
  | .call act next => (handler act).bind (fun answer => (next answer).interpret handler)

end Program

/-- Which view an action needs, the answers it can have, and the view an answer
leaves. -/
structure Discipline (Act : Type) (Ans : Act → Type) (View : Type) where
  allows : Act → View → Prop
  possible : (act : Act) → Ans act → Prop
  after : (act : Act) → Ans act → View → View

def Discipline.prod {Act : Type} {Ans : Act → Type} {View Ghost : Type}
    (first : Discipline Act Ans View) (second : Discipline Act Ans Ghost) :
    Discipline Act Ans (View × Ghost) where
  allows := fun act views => first.allows act views.1 ∧ second.allows act views.2
  possible := fun act answer => first.possible act answer ∧ second.possible act answer
  after := fun act answer views =>
    (first.after act answer views.1, second.after act answer views.2)

namespace Program

variable {Act : Type} {Ans : Act → Type} {View Value Other : Type}
variable (discipline : Discipline Act Ans View)

/-- From `view` on, the program asks only for actions its view allows, whatever
the possible answers are, and it returns in a view that `post` accepts. -/
def Follows : Program Act Ans Value → View → (Value → View → Prop) → Prop
  | .done value, view, post => post value view
  | .call act next, view, post =>
      discipline.allows act view ∧
        ∀ answer, discipline.possible act answer →
          Follows (next answer) (discipline.after act answer view) post

variable {discipline}

namespace Follows

theorem pure {value : Value} {view : View} {post : Value → View → Prop}
    (hpost : post value view) :
    Follows discipline (Pure.pure value : Program Act Ans Value) view post :=
  hpost

theorem bind {program : Program Act Ans Value}
    {next : Value → Program Act Ans Other} {view : View}
    {post : Other → View → Prop}
    (hprogram : Follows discipline program view
      (fun value middle => Follows discipline (next value) middle post)) :
    Follows discipline (program >>= next) view post := by
  induction program generalizing view with
  | done value => exact hprogram
  | call act rest ih =>
      exact ⟨hprogram.1, fun answer hanswer =>
        ih answer (hprogram.2 answer hanswer)⟩

theorem mono {program : Program Act Ans Value} {view : View}
    {strong weak : Value → View → Prop}
    (hprogram : Follows discipline program view strong)
    (himp : ∀ value last, strong value last → weak value last) :
    Follows discipline program view weak := by
  induction program generalizing view with
  | done value => exact himp value view hprogram
  | call act rest ih =>
      exact ⟨hprogram.1, fun answer hanswer =>
        ih answer (hprogram.2 answer hanswer)⟩

theorem relax {allows : Act → View → Prop}
    (hallows : ∀ act view, allows act view → discipline.allows act view)
    {program : Program Act Ans Value} {view : View} {post : Value → View → Prop}
    (hprogram : Follows { discipline with allows := allows } program view post) :
    Follows discipline program view post := by
  induction program generalizing view with
  | done value => exact hprogram
  | call act rest ih =>
      exact ⟨hallows act view hprogram.1, fun answer hanswer =>
        ih answer (hprogram.2 answer hanswer)⟩

/-- One action and then the rest. -/
theorem step {act : Act} {next : Ans act → Program Act Ans Value} {view : View}
    {post : Value → View → Prop} (hallows : discipline.allows act view)
    (hnext : ∀ answer, discipline.possible act answer →
      Follows discipline (next answer) (discipline.after act answer view) post) :
    Follows discipline (ask act >>= next) view post :=
  ⟨hallows, hnext⟩

/-- A program whose specification is known, and then the rest. -/
theorem andThen {program : Program Act Ans Value}
    {next : Value → Program Act Ans Other} {view : View}
    {middle : Value → View → Prop} {post : Other → View → Prop}
    (hprogram : Follows discipline program view middle)
    (hnext : ∀ value last, middle value last →
      Follows discipline (next value) last post) :
    Follows discipline (program >>= next) view post :=
  bind (hprogram.mono hnext)

theorem of_eq {program : Program Act Ans Value} {view other : View}
    {post : Value → View → Prop} (heq : view = other)
    (hprogram : Follows discipline program other post) :
    Follows discipline program view post :=
  heq ▸ hprogram

theorem ite {cond : Prop} [Decidable cond] {yes no : Program Act Ans Value}
    {view : View} {post : Value → View → Prop}
    (hyes : cond → Follows discipline yes view post)
    (hno : ¬cond → Follows discipline no view post) :
    Follows discipline (if cond then yes else no) view post := by
  split
  case isTrue h => exact hyes h
  case isFalse h => exact hno h

theorem prod {Ghost : Type} {other : Discipline Act Ans Ghost}
    {program : Program Act Ans Value} {view : View} {ghost : Ghost}
    {post : Value → View → Prop} {post' : Value → Ghost → Prop}
    (hfirst : Follows discipline program view post)
    (hsecond : Follows other program ghost post') :
    Follows (discipline.prod other) program (view, ghost)
      (fun value views => post value views.1 ∧ post' value views.2) := by
  induction program generalizing view ghost with
  | done value => exact ⟨hfirst, hsecond⟩
  | call act next ih =>
      refine ⟨⟨hfirst.1, hsecond.1⟩, ?_⟩
      intro answer hpossible
      exact ih answer (hfirst.2 answer hpossible.1) (hsecond.2 answer hpossible.2)

theorem interpret {Low LowView : Type} {LowAns : Low → Type}
    {low : Discipline Low LowAns LowView}
    {handler : (act : Act) → Program Low LowAns (Ans act)}
    {relates : View → LowView → Prop}
    (hhandler : ∀ act view lowView, discipline.allows act view → relates view lowView →
      Follows low (handler act) lowView (fun answer last =>
        discipline.possible act answer ∧ relates (discipline.after act answer view) last))
    {program : Program Act Ans Value} {view : View} {lowView : LowView}
    {post : Value → View → Prop} (hprogram : Follows discipline program view post)
    (hrelates : relates view lowView) :
    Follows low (program.interpret handler) lowView
      (fun value lowLast => ∃ last, relates last lowLast ∧ post value last) := by
  induction program generalizing view lowView with
  | done value => exact ⟨view, hrelates, hprogram⟩
  | call act next ih =>
      refine andThen (hhandler act view lowView hprogram.1 hrelates) ?_
      rintro answer last ⟨hpossible, hlast⟩
      exact ih answer (hprogram.2 answer hpossible) hlast

end Follows

/-- The actions a program performs with their answers, and what is left of it. -/
inductive Path : Program Act Ans Value → List ((act : Act) × Ans act) →
    Program Act Ans Value → Prop where
  | refl (program : Program Act Ans Value) : Path program [] program
  | call {act : Act} {rest : Ans act → Program Act Ans Value} {answer : Ans act}
      {performed : List ((act : Act) × Ans act)} {last : Program Act Ans Value}
      (hpath : Path (rest answer) performed last) :
      Path (.call act rest) (⟨act, answer⟩ :: performed) last

theorem Path.trans {program middle last : Program Act Ans Value}
    {performed more : List ((act : Act) × Ans act)} (hfirst : Path program performed middle)
    (hsecond : Path middle more last) : Path program (performed ++ more) last := by
  induction hfirst with
  | refl => exact hsecond
  | call _ ih => exact .call (ih hsecond)

def replay (discipline : Discipline Act Ans View) (view : View) :
    List ((act : Act) × Ans act) → View
  | [] => view
  | ⟨act, answer⟩ :: performed =>
      replay discipline (discipline.after act answer view) performed

theorem Follows.path {program last : Program Act Ans Value} {view : View}
    {post : Value → View → Prop} {performed : List ((act : Act) × Ans act)}
    (hfollows : Follows discipline program view post)
    (hpath : Path program performed last)
    (hpossible : ∀ act answer, discipline.possible act answer) :
    Follows discipline last (replay discipline view performed) post := by
  induction hpath generalizing view with
  | refl => exact hfollows
  | call _ ih => exact ih (hfollows.2 _ (hpossible _ _))

/-- A program run alone on a state: `serves` says how an action is answered there and what
it leaves. -/
inductive Served {State : Type} (serves : (act : Act) → State → Ans act → State → Prop) :
    Program Act Ans Value → State → Program Act Ans Value → State → Prop where
  | refl (program : Program Act Ans Value) (state : State) :
      Served serves program state program state
  | call {act : Act} {rest : Ans act → Program Act Ans Value} {answer : Ans act}
      {last : Program Act Ans Value} {state middle final : State}
      (hserves : serves act state answer middle)
      (hrest : Served serves (rest answer) middle last final) :
      Served serves (.call act rest) state last final

/-- The invariant rule of a program run alone: what every allowed action keeps, of the
state and the view, holds of the state that is reached and some view. -/
theorem Follows.served {State : Type}
    {serves : (act : Act) → State → Ans act → State → Prop}
    {motive : State → View → Prop} {program last : Program Act Ans Value} {view : View}
    {post : Value → View → Prop} {state final : State}
    (hfollows : Follows discipline program view post)
    (hpossible : ∀ act answer, discipline.possible act answer)
    (hact : ∀ act state answer after view, discipline.allows act view →
      serves act state answer after → motive state view →
      motive after (discipline.after act answer view))
    (hserved : Served serves program state last final) (hmotive : motive state view) :
    ∃ view, motive final view := by
  induction hserved generalizing view with
  | refl => exact ⟨view, hmotive⟩
  | call hserves _ ih =>
      exact ih (hfollows.2 _ (hpossible _ _)) (hact _ _ _ _ _ hfollows.1 hserves hmotive)

/-- The discipline that asks for nothing and records nothing. -/
def free : Discipline Act Ans Unit where
  allows := fun _ _ => True
  possible := fun _ _ => True
  after := fun _ _ view => view

end Program

/-! ## Pools -/

/-- Threads `0, …, count - 1` of a pool have been started; the views of the
others are fresh. -/
structure Pool (Act : Type) (Ans : Act → Type) (Value State View : Type) where
  shared : State
  count : Nat
  threads : Nat → Program Act Ans Value
  views : Nat → View

/-- One step of a pool: a thread is started, a thread performs its next action
under a choice of the environment, or the environment acts by itself. -/
inductive PoolStep (Entry Choice Event : Type) where
  | spawn (entry : Entry)
  | step (thread : Nat) (choice : Choice)
  | env (event : Event)

def PoolStep.actor {Entry Choice Event : Type} : PoolStep Entry Choice Event → Option Nat
  | .step thread _ => some thread
  | _ => none

def PoolStep.spawned {Entry Choice Event : Type} :
    PoolStep Entry Choice Event → Option Entry
  | .spawn entry => some entry
  | _ => none

/-- The action the next step of the pool performs. -/
def Pool.asked {Act : Type} {Ans : Act → Type} {Value State View Entry Choice Event : Type}
    (pool : Pool Act Ans Value State View) : PoolStep Entry Choice Event → Option Act
  | .step thread _ => (pool.threads thread).asks
  | _ => none

theorem Pool.asked_call {Act : Type} {Ans : Act → Type}
    {Value State View Entry Choice Event : Type} {pool : Pool Act Ans Value State View}
    {thread : Nat} {choice : Choice} {act : Act} {rest : Ans act → Program Act Ans Value}
    (hthread : pool.threads thread = .call act rest) :
    pool.asked (.step thread choice : PoolStep Entry Choice Event) = some act := by
  rw [asked, hthread, Program.asks]

/-- What a pool runs: the programs behind its entry points and the meaning of
the actions and of the events. -/
structure System (Act : Type) (Ans : Act → Type)
    (Value State View Entry Choice Event : Type) where
  start : State → Prop
  idle : Value
  main : Entry → Program Act Ans Value
  perform : (act : Act) → Choice → State → Option (Ans act × State)
  env : Event → State → Option State
  fresh : View
  discipline : Discipline Act Ans View

namespace System

variable {Act : Type} {Ans : Act → Type}
variable {Value State View Entry Choice Event : Type}
variable (sys : System Act Ans Value State View Entry Choice Event)

def boot (state : State) : Pool Act Ans Value State View where
  shared := state
  count := 0
  threads := fun _ => .done sys.idle
  views := fun _ => sys.fresh

def next (pool : Pool Act Ans Value State View) :
    PoolStep Entry Choice Event → Option (Pool Act Ans Value State View)
  | .spawn entry =>
      some { pool with
        count := pool.count + 1
        threads := Function.update pool.threads pool.count (sys.main entry) }
  | .step thread choice =>
      if thread < pool.count then
        match pool.threads thread with
        | .done _ => none
        | .call act rest =>
            (sys.perform act choice pool.shared).map (fun result =>
              { pool with
                shared := result.2
                threads := Function.update pool.threads thread (rest result.1)
                views := Function.update pool.views thread
                  (sys.discipline.after act result.1 (pool.views thread)) })
      else none
  | .env event =>
      (sys.env event pool.shared).map (fun shared => { pool with shared := shared })

def machine : Machine (Pool Act Ans Value State View)
    (PoolStep Entry Choice Event) where
  init := fun pool => ∃ state, sys.start state ∧ pool = sys.boot state
  next := sys.next

variable {sys}

/-- A thread's step performs the action its program asks for. -/
theorem next_step {pool last : Pool Act Ans Value State View} {thread : Nat}
    {choice : Choice} (hnext : sys.next pool (.step thread choice) = some last) :
    thread < pool.count ∧ ∃ act rest answer state,
      pool.threads thread = .call act rest ∧
      sys.perform act choice pool.shared = some (answer, state) ∧
      last = { pool with
        shared := state
        threads := Function.update pool.threads thread (rest answer)
        views := Function.update pool.views thread
          (sys.discipline.after act answer (pool.views thread)) } := by
  simp only [next] at hnext
  split at hnext
  case isFalse => cases hnext
  case isTrue hlt =>
    cases hthread : pool.threads thread with
    | done value => simp [hthread] at hnext
    | call act rest =>
        rw [hthread] at hnext
        obtain ⟨⟨answer, state⟩, hperform, hlast⟩ := Option.map_eq_some_iff.mp hnext
        exact ⟨hlt, act, rest, answer, state, rfl, hperform, hlast.symm⟩

variable {guard : Pool Act Ans Value State View →
  PoolStep Entry Choice Event → Prop}

theorem views_of_ge {pool : Pool Act Ans Value State View}
    (hreach : sys.machine.ReachableWhere guard pool) :
    ∀ thread, pool.count ≤ thread → pool.views thread = sys.fresh := by
  refine hreach.induct (motive := fun pool =>
    ∀ thread, pool.count ≤ thread → pool.views thread = sys.fresh) ?_ ?_
  · rintro pool ⟨state, -, rfl⟩ thread -
    rfl
  · intro pool label last _ ih _ hnext thread hle
    cases label with
    | spawn entry =>
        cases hnext
        exact ih thread (Nat.le_of_succ_le hle)
    | step actor choice =>
        obtain ⟨hlt, act, rest, answer, state, -, -, rfl⟩ := next_step hnext
        dsimp only at hle ⊢
        rw [Function.update_of_ne (Nat.ne_of_gt (Nat.lt_of_lt_of_le hlt hle))]
        exact ih thread hle
    | env event =>
        obtain ⟨shared, -, rfl⟩ := Option.map_eq_some_iff.mp hnext
        exact ih thread hle

/-- Every entry point follows the discipline from the fresh view on and returns
as `post` says, and the actions give no other answers than the discipline
expects. -/
structure Disciplined
    (sys : System Act Ans Value State View Entry Choice Event)
    (post : Value → View → Prop) : Prop where
  main : ∀ entry, Program.Follows sys.discipline (sys.main entry) sys.fresh post
  idle : post sys.idle sys.fresh
  answers : ∀ act choice state answer last,
    sys.perform act choice state = some (answer, last) →
      sys.discipline.possible act answer

variable {post : Value → View → Prop}

theorem Disciplined.follows (hsys : sys.Disciplined post)
    {pool : Pool Act Ans Value State View}
    (hreach : sys.machine.ReachableWhere guard pool) :
    ∀ thread, Program.Follows sys.discipline (pool.threads thread)
      (pool.views thread) post := by
  refine hreach.induct (motive := fun pool =>
    ∀ thread, Program.Follows sys.discipline (pool.threads thread)
      (pool.views thread) post) ?_ ?_
  · rintro pool ⟨state, -, rfl⟩ thread
    exact hsys.idle
  · intro pool label last hpool ih _ hnext thread
    cases label with
    | spawn entry =>
        cases hnext
        dsimp only
        by_cases heq : thread = pool.count
        · subst heq
          rw [Function.update_self, views_of_ge hpool _ (Nat.le_refl _)]
          exact hsys.main entry
        · rw [Function.update_of_ne heq]
          exact ih thread
    | step actor choice =>
        obtain ⟨-, act, rest, answer, state, hthread, hperform, rfl⟩ :=
          next_step hnext
        dsimp only
        by_cases heq : thread = actor
        · subst heq
          rw [Function.update_self, Function.update_self]
          have hfollows := ih thread
          rw [hthread] at hfollows
          exact hfollows.2 answer (hsys.answers _ _ _ _ _ hperform)
        · rw [Function.update_of_ne heq, Function.update_of_ne heq]
          exact ih thread
    | env event =>
        obtain ⟨shared, -, rfl⟩ := Option.map_eq_some_iff.mp hnext
        exact ih thread

/-- A thread that has returned did so as its entry point promises. -/
theorem Disciplined.returned (hsys : sys.Disciplined post)
    {pool : Pool Act Ans Value State View}
    (hreach : sys.machine.ReachableWhere guard pool) {thread : Nat} {value : Value}
    (hreturned : (pool.threads thread).returned = some value) :
    post value (pool.views thread) := by
  have hfollows := hsys.follows hreach thread
  cases hthread : pool.threads thread with
  | done given =>
      rw [hthread] at hfollows hreturned
      obtain rfl : given = value := Option.some.inj hreturned
      exact hfollows
  | call act rest =>
      rw [hthread] at hreturned
      cases hreturned

theorem Disciplined.allowed (hsys : sys.Disciplined post)
    {pool : Pool Act Ans Value State View}
    (hreach : sys.machine.ReachableWhere guard pool) {thread : Nat} {act : Act}
    (hasks : (pool.threads thread).asks = some act) :
    sys.discipline.allows act (pool.views thread) := by
  have hfollows := hsys.follows hreach thread
  cases hthread : pool.threads thread with
  | done value =>
      rw [hthread] at hasks
      cases hasks
  | call asked rest =>
      rw [hthread] at hasks hfollows
      obtain rfl : asked = act := Option.some.inj hasks
      exact hfollows.1

theorem Disciplined.asked_allowed (hsys : sys.Disciplined post)
    {pool : Pool Act Ans Value State View}
    (hreach : sys.machine.ReachableWhere guard pool)
    {label : PoolStep Entry Choice Event} {act : Act} (hasked : pool.asked label = some act) :
    ∃ thread, sys.discipline.allows act (pool.views thread) := by
  cases label with
  | spawn entry => cases hasked
  | env event => cases hasked
  | step thread choice => exact ⟨thread, hsys.allowed hreach hasked⟩

/-- One action of a run: the thread that performs it, the action with its
answer, and what the guard and the discipline say about it. -/
structure Acts (sys : System Act Ans Value State View Entry Choice Event)
    (guard : Pool Act Ans Value State View → PoolStep Entry Choice Event → Prop)
    (pool : Pool Act Ans Value State View) (thread : Nat) (choice : Choice)
    (act : Act) (answer : Ans act) (state : State) : Prop where
  reach : sys.machine.ReachableWhere guard pool
  guarded : guard pool (.step thread choice)
  started : thread < pool.count
  asked : ∃ rest, pool.threads thread = .call act rest
  allowed : sys.discipline.allows act (pool.views thread)
  performed : sys.perform act choice pool.shared = some (answer, state)

theorem Disciplined.view_step (hsys : sys.Disciplined post)
    {pool last : Pool Act Ans Value State View} {label : PoolStep Entry Choice Event}
    (hreach : sys.machine.ReachableWhere guard pool) (hguard : guard pool label)
    (hnext : sys.next pool label = some last) (thread : Nat) :
    last.views thread = pool.views thread ∨
      ∃ choice act answer, sys.Acts guard pool thread choice act answer last.shared ∧
        last.views thread = sys.discipline.after act answer (pool.views thread) := by
  cases label with
  | spawn entry =>
      cases hnext
      exact Or.inl rfl
  | step actor choice =>
      obtain ⟨hlt, act, rest, answer, state, hthread, hperform, rfl⟩ := next_step hnext
      by_cases heq : thread = actor
      · subst heq
        have hfollows := hsys.follows hreach thread
        rw [hthread] at hfollows
        exact Or.inr ⟨choice, act, answer,
          ⟨hreach, hguard, hlt, ⟨rest, hthread⟩, hfollows.1, hperform⟩,
          Function.update_self _ _ _⟩
      · exact Or.inl (Function.update_of_ne heq _ _)
  | env event =>
      obtain ⟨shared, -, rfl⟩ := Option.map_eq_some_iff.mp hnext
      exact Or.inl rfl

/-- The invariant rule of pools: what holds of the shared state and the views
at the start and is kept by every disciplined action and by every event holds
in every pool of the guarded runs. -/
theorem Disciplined.invariant (hsys : sys.Disciplined post)
    {motive : State → (Nat → View) → Prop}
    (hstart : ∀ state, sys.start state → motive state (fun _ => sys.fresh))
    (hact : ∀ pool thread choice act answer state,
      sys.Acts guard pool thread choice act answer state →
      motive pool.shared pool.views →
      motive state (Function.update pool.views thread
        (sys.discipline.after act answer (pool.views thread))))
    (henv : ∀ pool event state, sys.machine.ReachableWhere guard pool →
      guard pool (.env event) → sys.env event pool.shared = some state →
      motive pool.shared pool.views → motive state pool.views)
    {pool : Pool Act Ans Value State View}
    (hreach : sys.machine.ReachableWhere guard pool) :
    motive pool.shared pool.views := by
  refine hreach.induct (motive := fun pool => motive pool.shared pool.views) ?_ ?_
  · rintro pool ⟨state, hstate, rfl⟩
    exact hstart state hstate
  · intro pool label last hpool ih hguard hnext
    cases label with
    | spawn entry =>
        cases hnext
        exact ih
    | step thread choice =>
        obtain ⟨hlt, act, rest, answer, state, hthread, hperform, rfl⟩ :=
          next_step hnext
        have hfollows := hsys.follows hpool thread
        rw [hthread] at hfollows
        exact hact pool thread choice act answer state
          ⟨hpool, hguard, hlt, ⟨rest, hthread⟩, hfollows.1, hperform⟩ ih
    | env event =>
        obtain ⟨shared, henv', rfl⟩ := Option.map_eq_some_iff.mp hnext
        exact henv pool event shared hpool hguard henv' ih

/-- The same pool with other views. -/
def viewed {Ghost : Type} (pool : Pool Act Ans Value State View) (views : Nat → Ghost) :
    Pool Act Ans Value State Ghost where
  shared := pool.shared
  count := pool.count
  threads := pool.threads
  views := views

variable (sys)

/-- The same system under another discipline. -/
def under {Ghost : Type} (fresh : Ghost) (discipline : Discipline Act Ans Ghost) :
    System Act Ans Value State Ghost Entry Choice Event where
  start := sys.start
  idle := sys.idle
  main := sys.main
  perform := sys.perform
  env := sys.env
  fresh := fresh
  discipline := discipline

variable {sys} {Ghost : Type} (fresh : Ghost) (discipline : Discipline Act Ans Ghost)

theorem next_under {pool last : Pool Act Ans Value State View}
    {label : PoolStep Entry Choice Event} (views : Nat → Ghost)
    (hnext : sys.next pool label = some last) :
    ∃ after, (sys.under fresh discipline).next (viewed pool views) label =
      some (viewed last after) := by
  cases label with
  | spawn entry =>
      cases hnext
      exact ⟨views, rfl⟩
  | step thread choice =>
      obtain ⟨hlt, act, rest, answer, state, hthread, hperform, rfl⟩ := next_step hnext
      refine ⟨Function.update views thread
        (discipline.after act answer (views thread)), ?_⟩
      simp [next, viewed, under, hlt, hthread, hperform]
  | env event =>
      obtain ⟨shared, henv, rfl⟩ := Option.map_eq_some_iff.mp hnext
      refine ⟨views, ?_⟩
      simp [next, viewed, under, henv]

theorem reachable_under {pool : Pool Act Ans Value State View}
    (hreach : sys.machine.ReachableWhere guard pool) :
    ∃ views, (sys.under fresh discipline).machine.ReachableWhere
      (fun ghost label => ∃ views, guard (viewed ghost views) label)
      (viewed pool views) := by
  refine hreach.induct (motive := fun pool =>
    ∃ views, (sys.under fresh discipline).machine.ReachableWhere
      (fun ghost label => ∃ views, guard (viewed ghost views) label)
      (viewed pool views)) ?_ ?_
  · rintro pool ⟨state, hstate, rfl⟩
    exact ⟨fun _ => fresh, .start ⟨state, hstate, rfl⟩⟩
  · rintro pool label last _ ⟨views, hviews⟩ hguard hnext
    obtain ⟨after, hafter⟩ := next_under fresh discipline views hnext
    exact ⟨after, hviews.step ⟨pool.views, hguard⟩ hafter⟩

end System

end BbtFramework.Library
