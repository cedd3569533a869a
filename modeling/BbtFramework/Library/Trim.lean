import Mathlib.Data.List.Infix

/-!
# Dropping from the front until the rest fits

A first-in first-out store over its limits gives up its oldest elements, one after the
other, until the rest fits.  What it keeps is the longest suffix that does.
-/

namespace BbtFramework.Library

universe u

variable {Element : Type u}

def trim (fits : List Element → Bool) : List Element → List Element
  | [] => []
  | oldest :: rest => if fits (oldest :: rest) then oldest :: rest else trim fits rest

/-- The elements given up, oldest first. -/
def dropped (fits : List Element → Bool) : List Element → List Element
  | [] => []
  | oldest :: rest => if fits (oldest :: rest) then [] else oldest :: dropped fits rest

variable {fits : List Element → Bool} {elements : List Element}

theorem dropped_of_fits (hfits : fits elements = true) : dropped fits elements = [] := by
  cases elements with
  | nil => rfl
  | cons oldest rest => exact if_pos hfits

theorem dropped_cons {oldest : Element} {rest : List Element}
    (hover : fits (oldest :: rest) = false) :
    dropped fits (oldest :: rest) = oldest :: dropped fits rest :=
  if_neg (by rw [hover]; exact Bool.false_ne_true)

theorem trim_of_fits (hfits : fits elements = true) : trim fits elements = elements := by
  cases elements with
  | nil => rfl
  | cons oldest rest => exact if_pos hfits

theorem trim_cons {oldest : Element} {rest : List Element}
    (hover : fits (oldest :: rest) = false) : trim fits (oldest :: rest) = trim fits rest :=
  if_neg (by rw [hover]; exact Bool.false_ne_true)

theorem trim_suffix (fits : List Element → Bool) (elements : List Element) :
    trim fits elements <:+ elements := by
  induction elements with
  | nil => exact List.suffix_refl _
  | cons oldest rest ih =>
      unfold trim
      split
      · exact List.suffix_refl _
      · exact ih.trans (List.suffix_cons oldest rest)

theorem trim_fits (hnil : fits [] = true) : fits (trim fits elements) = true := by
  induction elements with
  | nil => exact hnil
  | cons oldest rest ih =>
      unfold trim
      split
      case isTrue hfits => exact hfits
      case isFalse => exact ih

/-- No more is dropped than has to be. -/
theorem trim_longest {kept : List Element} (hkept : kept <:+ elements)
    (hfits : fits kept = true) : kept <:+ trim fits elements := by
  induction elements with
  | nil => exact hkept
  | cons oldest rest ih =>
      unfold trim
      split
      · exact hkept
      case isFalse hover =>
        obtain hall | hrest := List.suffix_cons_iff.mp hkept
        · exact absurd (hall ▸ hfits) hover
        · exact ih hrest

end BbtFramework.Library
