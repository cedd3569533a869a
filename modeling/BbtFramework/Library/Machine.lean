import Mathlib.Order.Basic

/-!
# Labelled machines and guarded runs

A machine resolves all nondeterminism by its label: a step is a partial
function of the state and the label.  A guard selects the steps a run may take,
so that one statement covers "every run" (the trivial guard) and "every run
whose steps all meet a condition".
-/

namespace BbtFramework.Library

universe u v

/-- A transition system whose labels carry every choice of the environment. -/
structure Machine (State : Type u) (Label : Type v) where
  init : State → Prop
  next : State → Label → Option State

namespace Machine

variable {State : Type u} {Label : Type v} (machine : Machine State Label)

/-- The state after a list of labels, when every one of them is enabled and
passes `check`. -/
def exec (check : State → Label → Bool) (state : State) :
    List Label → Option State
  | [] => some state
  | label :: rest =>
      if check state label then
        match machine.next state label with
        | none => none
        | some middle => exec check middle rest
      else none

/-- Runs from one state to another whose steps all satisfy `guard`. -/
inductive Run (guard : State → Label → Prop) (first : State) :
    List Label → State → Prop where
  | refl : Run guard first [] first
  | tail {labels : List Label} {middle last : State} {label : Label} :
      Run guard first labels middle →
      guard middle label →
      machine.next middle label = some last →
      Run guard first (labels ++ [label]) last

/-- The states of the runs whose steps all satisfy `guard`. -/
def ReachableWhere (guard : State → Label → Prop) (state : State) : Prop :=
  ∃ first labels, machine.init first ∧ machine.Run guard first labels state

/-- The states of all runs. -/
def Reachable (state : State) : Prop :=
  machine.ReachableWhere (fun _ _ => True) state

variable {machine}

theorem ReachableWhere.start {guard : State → Label → Prop} {state : State}
    (hinit : machine.init state) : machine.ReachableWhere guard state :=
  ⟨state, [], hinit, .refl⟩

theorem ReachableWhere.step {guard : State → Label → Prop}
    {state next : State} {label : Label}
    (hreach : machine.ReachableWhere guard state) (hguard : guard state label)
    (hnext : machine.next state label = some next) :
    machine.ReachableWhere guard next := by
  obtain ⟨first, labels, hinit, hrun⟩ := hreach
  exact ⟨first, labels ++ [label], hinit, hrun.tail hguard hnext⟩

/-- The invariant rule: what holds initially and is kept by every guarded step
from a reachable state holds in every state of the guarded runs. -/
theorem ReachableWhere.induct {guard : State → Label → Prop}
    {motive : State → Prop}
    (hinit : ∀ state, machine.init state → motive state)
    (hstep : ∀ state label next, machine.ReachableWhere guard state →
      motive state → guard state label →
      machine.next state label = some next → motive next)
    {state : State} (hreach : machine.ReachableWhere guard state) :
    motive state := by
  obtain ⟨first, labels, hfirst, hrun⟩ := hreach
  induction hrun with
  | refl => exact hinit first hfirst
  | tail hprefix hguard hnext ih =>
      exact hstep _ _ _ ⟨first, _, hfirst, hprefix⟩ ih hguard hnext

/-- A run under a stronger guard is a run under a weaker one. -/
theorem ReachableWhere.mono {strong weak : State → Label → Prop}
    (himp : ∀ state label, strong state label → weak state label)
    {state : State} (hreach : machine.ReachableWhere strong state) :
    machine.ReachableWhere weak state := by
  refine hreach.induct (fun _ hinit => .start hinit) ?_
  intro state label next _ ih hguard hnext
  exact ih.step (himp state label hguard) hnext

theorem ReachableWhere.reachable {guard : State → Label → Prop} {state : State}
    (hreach : machine.ReachableWhere guard state) : machine.Reachable state :=
  hreach.mono (fun _ _ _ => trivial)

theorem Run.mono {strong weak : State → Label → Prop}
    (himp : ∀ state label, strong state label → weak state label)
    {first last : State} {labels : List Label}
    (hrun : machine.Run strong first labels last) : machine.Run weak first labels last := by
  induction hrun with
  | refl => exact .refl
  | tail _ hguard hnext ih => exact ih.tail (himp _ _ hguard) hnext

/-- A run that is followed by another one. -/
theorem Run.append {guard : State → Label → Prop} {first middle last : State}
    {labels rest : List Label} (hfirst : machine.Run guard first labels middle)
    (hsecond : machine.Run guard middle rest last) :
    machine.Run guard first (labels ++ rest) last := by
  induction hsecond with
  | refl => rwa [List.append_nil]
  | tail _ hguard hnext ih =>
      rw [← List.append_assoc]
      exact ih.tail hguard hnext

theorem Run.eq_of_nil {guard : State → Label → Prop} {first last : State}
    {labels : List Label} (hrun : machine.Run guard first labels last)
    (hnil : labels = []) : first = last := by
  cases hrun with
  | refl => rfl
  | tail => exact absurd hnil (by simp)

theorem Run.uncons {guard : State → Label → Prop} {first last : State} {label : Label}
    {rest : List Label} (hrun : machine.Run guard first (label :: rest) last) :
    ∃ middle, guard first label ∧ machine.next first label = some middle ∧
      machine.Run guard middle rest last := by
  generalize hlabels : label :: rest = labels at hrun
  induction hrun generalizing rest with
  | refl => cases hlabels
  | @tail before state final step hbefore hguard hnext ih =>
      cases before with
      | nil =>
          cases hlabels
          cases hbefore.eq_of_nil rfl
          exact ⟨final, hguard, hnext, .refl⟩
      | cons head others =>
          obtain ⟨rfl, rfl⟩ := List.cons.inj hlabels
          obtain ⟨middle, hfirst, hmiddle, hothers⟩ := ih rfl
          exact ⟨middle, hfirst, hmiddle, hothers.tail hguard hnext⟩

theorem ReachableWhere.run {guard : State → Label → Prop} {state last : State}
    {labels : List Label} (hreach : machine.ReachableWhere guard state)
    (hrun : machine.Run guard state labels last) :
    machine.ReachableWhere guard last := by
  obtain ⟨first, before, hinit, hbefore⟩ := hreach
  exact ⟨first, before ++ labels, hinit, hbefore.append hrun⟩

/-- Executed label lists are runs, so a computed trace witnesses reachability. -/
theorem Run.exec {guard : State → Label → Prop} {check : State → Label → Bool}
    (hcheck : ∀ state label, check state label = true → guard state label)
    {state last : State} {labels : List Label}
    (hexec : machine.exec check state labels = some last) :
    machine.Run guard state labels last := by
  induction labels generalizing state with
  | nil =>
      cases hexec
      exact .refl
  | cons label rest ih =>
      simp only [Machine.exec] at hexec
      split at hexec
      case isFalse => cases hexec
      case isTrue hpass =>
        cases hnext : machine.next state label with
        | none => simp [hnext] at hexec
        | some middle =>
            rw [hnext] at hexec
            have hone : machine.Run guard state [label] middle :=
              Run.tail .refl (hcheck state label hpass) hnext
            exact hone.append (ih hexec)

theorem ReachableWhere.exec {guard : State → Label → Prop}
    {check : State → Label → Bool}
    (hcheck : ∀ state label, check state label = true → guard state label)
    {state last : State} {labels : List Label}
    (hreach : machine.ReachableWhere guard state)
    (hexec : machine.exec check state labels = some last) :
    machine.ReachableWhere guard last :=
  hreach.run (.exec hcheck hexec)

/-- A computed trace whose last state passes `test` witnesses a reachable state
that does. -/
theorem ReachableWhere.exec_any {guard : State → Label → Prop} {state : State}
    (hreach : machine.ReachableWhere guard state)
    (check : State → Label → Bool)
    (hcheck : ∀ state label, check state label = true → guard state label)
    (labels : List Label) (test : State → Bool)
    (hany : (machine.exec check state labels).any test = true) :
    ∃ last, machine.ReachableWhere guard last ∧ test last = true := by
  obtain ⟨last, hexec, htest⟩ := (Option.any_eq_true _ _).mp hany
  exact ⟨last, hreach.exec hcheck hexec, htest⟩

/-- The same for a trace in two parts, the second under a guard of its own, with what the
test says of their ends. -/
theorem ReachableWhere.exec_then {guard later : State → Label → Prop} {state : State}
    (hreach : machine.ReachableWhere guard state)
    (check : State → Label → Bool)
    (hcheck : ∀ state label, check state label = true → guard state label)
    (checkLater : State → Label → Bool)
    (hlater : ∀ state label, checkLater state label = true → later state label)
    (labels rest : List Label) (test : State → State → Bool)
    (hany : (machine.exec check state labels).any (fun middle =>
      (machine.exec checkLater middle rest).any (test middle)) = true) :
    ∃ middle last, machine.ReachableWhere guard middle ∧
      machine.Run later middle rest last ∧ test middle last = true := by
  obtain ⟨middle, hmiddle, hrest⟩ := (Option.any_eq_true _ _).mp hany
  obtain ⟨last, hlast, htest⟩ := (Option.any_eq_true _ _).mp hrest
  exact ⟨middle, last, hreach.exec hcheck hmiddle, .exec hlater hlast, htest⟩

/-- Both parts under one guard. -/
theorem ReachableWhere.exec_both {guard : State → Label → Prop} {state : State}
    (hreach : machine.ReachableWhere guard state)
    (check : State → Label → Bool)
    (hcheck : ∀ state label, check state label = true → guard state label)
    (labels rest : List Label) (test : State → State → Bool)
    (hany : (machine.exec check state labels).any (fun middle =>
      (machine.exec check middle rest).any (test middle)) = true) :
    ∃ middle last, machine.ReachableWhere guard middle ∧
      machine.Run guard middle rest last ∧ test middle last = true :=
  hreach.exec_then check hcheck check hcheck labels rest test hany

/-- A view of the states and the labels under which the guarded steps are steps of another
machine.  The invariant `holds` is what a step needs of the states before it. -/
def Simulates {View : Type*} {ViewLabel : Type*} (machine : Machine State Label)
    (target : Machine View ViewLabel) (guard : State → Label → Prop)
    (viewGuard : View → ViewLabel → Prop) (holds : State → Prop) (view : State → View)
    (relabel : Label → ViewLabel) : Prop :=
  ∀ state label next, holds state → guard state label →
    machine.next state label = some next →
    holds next ∧ viewGuard (view state) (relabel label) ∧
      target.next (view state) (relabel label) = some (view next)

section

variable {View : Type*} {ViewLabel : Type*} {target : Machine View ViewLabel}
  {guard : State → Label → Prop} {viewGuard : View → ViewLabel → Prop}
  {holds : State → Prop} {view : State → View} {relabel : Label → ViewLabel}

theorem Simulates.run (hsim : machine.Simulates target guard viewGuard holds view relabel)
    {first last : State} {labels : List Label} (hfirst : holds first)
    (hrun : machine.Run guard first labels last) :
    holds last ∧ target.Run viewGuard (view first) (labels.map relabel) (view last) := by
  induction hrun with
  | refl => exact ⟨hfirst, .refl⟩
  | tail _ hguard hnext ih =>
      obtain ⟨hmiddle, hbefore⟩ := ih
      obtain ⟨hlast, hpass, hstep⟩ := hsim _ _ _ hmiddle hguard hnext
      rw [List.map_append]
      exact ⟨hlast, hbefore.tail hpass hstep⟩

theorem Simulates.reachable
    (hsim : machine.Simulates target guard viewGuard holds view relabel)
    (hinit : ∀ state, machine.init state →
      holds state ∧ target.ReachableWhere viewGuard (view state))
    {state : State} (hreach : machine.ReachableWhere guard state) :
    holds state ∧ target.ReachableWhere viewGuard (view state) := by
  obtain ⟨first, labels, hfirst, hrun⟩ := hreach
  obtain ⟨hholds, hview⟩ := hinit first hfirst
  obtain ⟨hlast, hlater⟩ := hsim.run hholds hrun
  exact ⟨hlast, hview.run hlater⟩

end

end Machine

end BbtFramework.Library
