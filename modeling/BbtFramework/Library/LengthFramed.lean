import BbtFramework.Library.FieldText
import Mathlib.Logic.Function.Basic

/-!
# Parts framed by their lengths

Each part of a text stands behind its own length, so that the marks may stand inside
the parts: the figures of the length end at the first mark, the length says where the
part ends, and what follows is the next frame.
-/

namespace BbtFramework.Library.LengthFramed

variable {Letter : Type} {figures : Nat → List Letter} {mark stop : Letter}

/-- The figures tell the numbers, and the mark is none of them. -/
structure Figures (figures : Nat → List Letter) (mark : Letter) : Prop where
  injective : Function.Injective figures
  unmarked : ∀ number, mark ∉ figures number

section

variable (figures : Nat → List Letter) (mark stop : Letter)

def frame (part : List Letter) : List Letter :=
  figures part.length ++ mark :: (part ++ [stop])

def frames (parts : List (List Letter)) : List Letter :=
  parts.flatMap (frame figures mark stop)

end

/-- A frame is read off the front of a text in one way. -/
theorem frame_append_inj (hfigures : Figures figures mark) {part other rest tail : List Letter}
    (htext : frame figures mark stop part ++ rest = frame figures mark stop other ++ tail) :
    part = other ∧ rest = tail := by
  simp only [frame, List.append_assoc, List.cons_append] at htext
  obtain ⟨hlength, hrest⟩ := FieldText.cut_first (hfigures.unmarked _) (hfigures.unmarked _) htext
  obtain ⟨hpart, hstopped⟩ := List.append_inj hrest (hfigures.injective hlength)
  exact ⟨hpart, (List.cons.inj hstopped).2⟩

/-- The frames tell the parts, and how many there are. -/
theorem frames_injective (hfigures : Figures figures mark) :
    Function.Injective (frames figures mark stop) := by
  intro parts others htext
  induction parts generalizing others with
  | nil =>
      cases others with
      | nil => rfl
      | cons other rest => simp [frames, frame] at htext
  | cons part parts ih =>
      cases others with
      | nil => simp [frames, frame] at htext
      | cons other others =>
          obtain ⟨rfl, hrest⟩ := frame_append_inj hfigures htext
          rw [ih hrest]

end BbtFramework.Library.LengthFramed
