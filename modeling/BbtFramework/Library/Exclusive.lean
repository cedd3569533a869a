import Mathlib.Logic.Function.Basic

/-!
# What one thread has at a time

A thread's view says which key it has, if any, and the state says which keys are
taken.  A key that is taken only when it is free, and given back by the thread that has
it, is never with two threads.
-/

namespace BbtFramework.Library

variable {View Key : Type}

structure Exclusive (has : View → Option Key) (taken : Key → Bool) (views : Nat → View) :
    Prop where
  taken : ∀ thread key, has (views thread) = some key → taken key = true
  alone : ∀ left right key, has (views left) = some key → has (views right) = some key →
    left = right

namespace Exclusive

variable {has : View → Option Key} {before after : Key → Bool} {views : Nat → View}
variable {thread : Nat} {view : View} {key : Key}

theorem fresh {view : View} (hnone : has view = none) : Exclusive has before (fun _ => view) where
  taken := by
    intro thread key hhas
    cases hnone.symm.trans hhas
  alone := by
    intro left right key hhas
    cases hnone.symm.trans hhas

/-- A step after which the thread has what it had. -/
theorem keep (hexclusive : Exclusive has before views)
    (hview : has view = has (views thread)) (htaken : after = before) :
    Exclusive has after (Function.update views thread view) := by
  have hsame : ∀ other, has (Function.update views thread view other) = has (views other) := by
    intro other
    by_cases heq : other = thread
    · rw [heq, Function.update_self, hview]
    · rw [Function.update_of_ne heq]
  rw [htaken]
  constructor
  · intro other key hhas
    exact hexclusive.taken other key ((hsame other).symm.trans hhas)
  · intro left right key hleft hright
    exact hexclusive.alone left right key ((hsame left).symm.trans hleft)
      ((hsame right).symm.trans hright)

theorem take (hexclusive : Exclusive has before views) (hfree : before key = false)
    (hview : has view = some key) (htaken : after key = true)
    (hothers : ∀ other, other ≠ key → after other = before other) :
    Exclusive has after (Function.update views thread view) := by
  have hnone : ∀ other, has (views other) ≠ some key := by
    intro other hhas
    rw [hexclusive.taken other key hhas] at hfree
    cases hfree
  constructor
  · intro other found hhas
    by_cases hkey : found = key
    · rw [hkey]
      exact htaken
    · rw [hothers found hkey]
      by_cases heq : other = thread
      · rw [heq, Function.update_self, hview] at hhas
        exact absurd (Option.some.inj hhas).symm hkey
      · rw [Function.update_of_ne heq] at hhas
        exact hexclusive.taken other found hhas
  · intro left right found hleft hright
    by_cases hl : left = thread <;> by_cases hr : right = thread
    · rw [hl, hr]
    · rw [hl, Function.update_self, hview] at hleft
      rw [Function.update_of_ne hr, ← hleft] at hright
      exact absurd hright (hnone right)
    · rw [hr, Function.update_self, hview] at hright
      rw [Function.update_of_ne hl, ← hright] at hleft
      exact absurd hleft (hnone left)
    · rw [Function.update_of_ne hl] at hleft
      rw [Function.update_of_ne hr] at hright
      exact hexclusive.alone left right found hleft hright

theorem give (hexclusive : Exclusive has before views) (hhad : has (views thread) = some key)
    (hview : has view = none) (hothers : ∀ other, other ≠ key → after other = before other) :
    Exclusive has after (Function.update views thread view) := by
  have hold : ∀ other found, has (Function.update views thread view other) = some found →
      other ≠ thread ∧ has (views other) = some found := by
    intro other found hhas
    by_cases heq : other = thread
    · rw [heq, Function.update_self, hview] at hhas
      cases hhas
    · rw [Function.update_of_ne heq] at hhas
      exact ⟨heq, hhas⟩
  constructor
  · intro other found hhas
    obtain ⟨hne, hhas⟩ := hold other found hhas
    have hkey : found ≠ key := by
      rintro rfl
      exact hne (hexclusive.alone other thread found hhas hhad)
    rw [hothers found hkey]
    exact hexclusive.taken other found hhas
  · intro left right found hleft hright
    exact hexclusive.alone left right found (hold left found hleft).2 (hold right found hright).2

end Exclusive

end BbtFramework.Library
