import BbtFramework.Library.Machine
import Mathlib.Data.Finset.Card

/-!
# Optimistic gates

A gate without a lock: whoever arrives adds one to the counter and looks at what was
there before.  Below the limit it is inside; at the limit it is turned away and takes its
count back in a step of its own.  Between the two it is counted like those inside, so
that the gate may refuse while it has room, but it never lets in too many.
-/

namespace BbtFramework.Library

variable {Index : Type} [DecidableEq Index]

/-- `inside` are those the gate has let in and `turned` those it has turned away that have
not taken their count back. -/
structure Gate (Index : Type) where
  limit : Nat
  counter : Nat
  inside : Finset Index
  turned : Finset Index

inductive GateMove (Index : Type) where
  | arrive (who : Index)
  | takeBack (who : Index)
  | leave (who : Index)

namespace Gate

def Holds (gate : Gate Index) (who : Index) : Prop :=
  who ∈ gate.inside ∨ who ∈ gate.turned

instance (gate : Gate Index) (who : Index) : Decidable (gate.Holds who) :=
  inferInstanceAs (Decidable (_ ∨ _))

def next (gate : Gate Index) : GateMove Index → Option (Gate Index)
  | .arrive who =>
      if gate.Holds who then none
      else if gate.limit ≤ gate.counter then
        some { gate with counter := gate.counter + 1, turned := insert who gate.turned }
      else
        some { gate with counter := gate.counter + 1, inside := insert who gate.inside }
  | .takeBack who =>
      if who ∈ gate.turned then
        some { gate with counter := gate.counter - 1, turned := gate.turned.erase who }
      else none
  | .leave who =>
      if who ∈ gate.inside then
        some { gate with counter := gate.counter - 1, inside := gate.inside.erase who }
      else none

/-- A gate nobody has come to. -/
def machine : Machine (Gate Index) (GateMove Index) where
  init := fun gate => gate.counter = 0 ∧ gate.inside = ∅ ∧ gate.turned = ∅
  next := next

structure Sound (gate : Gate Index) : Prop where
  apart : Disjoint gate.inside gate.turned
  counted : gate.counter = gate.inside.card + gate.turned.card
  bounded : gate.inside.card ≤ gate.limit

variable {gate last : Gate Index} {who : Index}

/-- What an arrival finds decides where it goes. -/
theorem arrive_eq (hnext : gate.next (.arrive who) = some last) :
    ¬gate.Holds who ∧
      ((gate.limit ≤ gate.counter ∧ last = { gate with
          counter := gate.counter + 1, turned := insert who gate.turned }) ∨
        (gate.counter < gate.limit ∧ last = { gate with
          counter := gate.counter + 1, inside := insert who gate.inside })) := by
  simp only [next] at hnext
  split at hnext
  · cases hnext
  case isFalse hnew =>
    refine ⟨hnew, ?_⟩
    split at hnext
    case isTrue hfull =>
      cases hnext
      exact Or.inl ⟨hfull, rfl⟩
    case isFalse hroom =>
      cases hnext
      exact Or.inr ⟨Nat.lt_of_not_le hroom, rfl⟩

theorem Sound.next (hsound : gate.Sound) {move : GateMove Index}
    (hnext : gate.next move = some last) : last.Sound := by
  obtain ⟨hapart, hcounted, hbounded⟩ := hsound
  cases move with
  | arrive who =>
      obtain ⟨hnew, ⟨-, rfl⟩ | ⟨hroom, rfl⟩⟩ := arrive_eq hnext
      · obtain ⟨hinside, hturned⟩ := not_or.mp hnew
        refine ⟨Finset.disjoint_insert_right.mpr ⟨hinside, hapart⟩, ?_, hbounded⟩
        simp only [Finset.card_insert_of_notMem hturned, hcounted]
        omega
      · obtain ⟨hinside, hturned⟩ := not_or.mp hnew
        refine ⟨Finset.disjoint_insert_left.mpr ⟨hturned, hapart⟩, ?_, ?_⟩
        · simp only [Finset.card_insert_of_notMem hinside, hcounted]
          omega
        · simp only [Finset.card_insert_of_notMem hinside]
          omega
  | takeBack who =>
      simp only [Gate.next] at hnext
      split at hnext
      case isFalse => cases hnext
      case isTrue hmem =>
        cases hnext
        refine ⟨hapart.mono_right (Finset.erase_subset _ _), ?_, hbounded⟩
        have hpos := Finset.card_pos.mpr ⟨who, hmem⟩
        simp only [Finset.card_erase_of_mem hmem, hcounted]
        omega
  | leave who =>
      simp only [Gate.next] at hnext
      split at hnext
      case isFalse => cases hnext
      case isTrue hmem =>
        cases hnext
        have hpos := Finset.card_pos.mpr ⟨who, hmem⟩
        refine ⟨hapart.mono_left (Finset.erase_subset _ _), ?_, ?_⟩
        · simp only [Finset.card_erase_of_mem hmem, hcounted]
          omega
        · simp only [Finset.card_erase_of_mem hmem]
          omega

theorem sound_of_reachable (hreach : machine.Reachable gate) : gate.Sound := by
  refine hreach.induct (motive := Sound) ?_ (fun _ _ _ _ hsound _ hnext => hsound.next hnext)
  rintro gate ⟨hcounter, hinside, hturned⟩
  refine ⟨?_, ?_, ?_⟩
  · rw [hinside]
    exact Finset.disjoint_empty_left _
  · rw [hcounter, hinside, hturned]
    rfl
  · rw [hinside]
    exact Nat.zero_le _

omit [DecidableEq Index] in
/-- The counter is positive as long as somebody has to take a count back. -/
theorem Sound.pos (hsound : gate.Sound) (hholds : gate.Holds who) : 0 < gate.counter := by
  rw [hsound.counted]
  obtain hinside | hturned := hholds
  · exact Nat.add_pos_left (Finset.card_pos.mpr ⟨who, hinside⟩) _
  · exact Nat.add_pos_right _ (Finset.card_pos.mpr ⟨who, hturned⟩)

/-- An arrival is let in exactly if those counted are fewer than the limit. -/
theorem Sound.lets_in_iff (hsound : gate.Sound)
    (hnext : gate.next (.arrive who) = some last) :
    who ∈ last.inside ↔ gate.inside.card + gate.turned.card < gate.limit := by
  rw [← hsound.counted]
  obtain ⟨hnew, ⟨hfull, rfl⟩ | ⟨hroom, rfl⟩⟩ := arrive_eq hnext
  · refine ⟨fun hmem => absurd (Or.inl hmem) hnew, fun hroom => ?_⟩
    exact absurd hroom (Nat.not_lt.mpr hfull)
  · exact ⟨fun _ => hroom, fun _ => Finset.mem_insert_self who gate.inside⟩

end Gate

end BbtFramework.Library
