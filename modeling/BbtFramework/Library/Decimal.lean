import Mathlib.Data.List.Induction
import Mathlib.Data.Nat.Basic
import Mathlib.Logic.Function.Basic

/-!
# Reading back decimal text

A left-to-right reader of decimal digits that stops when the value would pass a
bound: it reads exactly the numbers up to the bound, and the decimal text of such
a number back.
-/

namespace BbtFramework.Library.Decimal

def digitValue (c : Char) : Nat := c.toNat - '0'.toNat

/-- Append one digit to a value, unless the result would exceed `limit`. -/
def pushDigit (limit value : Nat) (c : Char) : Option Nat :=
  if (limit - digitValue c) / 10 < value then none
  else some (value * 10 + digitValue c)

def readDigits (limit : Nat) (text : List Char) : Option Nat :=
  text.foldlM (pushDigit limit) 0

/-- The number that a digit text names. -/
def value (text : List Char) : Nat :=
  Nat.ofDigitChars 10 text 0

theorem toNat_of_isDigit {c : Char} (hdigit : c.isDigit = true) :
    '0'.toNat ≤ c.toNat ∧ c.toNat ≤ '9'.toNat := by
  simpa [Char.isDigit, Char.le_def, UInt32.le_iff_toNat_le] using hdigit

theorem digitValue_lt {c : Char} (hdigit : c.isDigit = true) : digitValue c < 10 := by
  obtain ⟨-, hle⟩ := toNat_of_isDigit hdigit
  have hnine : '9'.toNat = 57 := rfl
  have hzero : '0'.toNat = 48 := rfl
  unfold digitValue
  omega

theorem value_concat (front : List Char) (c : Char) :
    value (front ++ [c]) = value front * 10 + digitValue c := by
  simp [value, Nat.ofDigitChars_append, Nat.ofDigitChars_cons, digitValue, Nat.mul_comm]

/-- The last character is read behind the others. -/
theorem foldlM_concat {State : Type} (push : State → Char → Option State) (state : State)
    (front : List Char) (c : Char) :
    (front ++ [c]).foldlM push state = (front.foldlM push state).bind (push · c) := by
  simp [List.foldlM_append]

/-- The division tells whether the next value is past the limit, for every digit. -/
theorem lt_iff_limit_lt {limit digit : Nat} (value : Nat) (hdigit : digit ≤ limit) :
    (limit - digit) / 10 < value ↔ limit < value * 10 + digit := by
  rw [Nat.div_lt_iff_lt_mul (by decide)]
  omega

theorem pushDigit_eq {limit : Nat} (value : Nat) {c : Char} (hdigit : digitValue c ≤ limit) :
    pushDigit limit value c =
      if value * 10 + digitValue c ≤ limit then some (value * 10 + digitValue c) else none := by
  unfold pushDigit
  split
  case isTrue hpast =>
    rw [lt_iff_limit_lt value hdigit] at hpast
    rw [if_neg (Nat.not_le.mpr hpast)]
  case isFalse hfits =>
    rw [lt_iff_limit_lt value hdigit] at hfits
    rw [if_pos (Nat.not_lt.mp hfits)]

theorem readDigits_eq {limit : Nat} (hlimit : 9 ≤ limit) {text : List Char}
    (hdigits : ∀ c ∈ text, c.isDigit = true) :
    readDigits limit text = if value text ≤ limit then some (value text) else none := by
  induction text using List.reverseRecOn with
  | nil => rfl
  | append_singleton front c ih =>
      have hdigit := digitValue_lt (hdigits c (List.mem_append_right _ List.mem_cons_self))
      have hfront := ih (fun c hmem => hdigits c (List.mem_append_left _ hmem))
      unfold readDigits at hfront ⊢
      rw [foldlM_concat, hfront, value_concat]
      by_cases hfits : value front ≤ limit
      · rw [if_pos hfits]
        exact pushDigit_eq (value front) (by omega)
      · rw [if_neg hfits, if_neg (by omega)]
        rfl

theorem toDigits_injective : Function.Injective (Nat.toDigits 10) :=
  Function.LeftInverse.injective (fun _ => Nat.ofDigitChars_ten_toDigits)

/-- A number is written in digits alone. -/
theorem notMem_toDigits {c : Char} (hother : c.isDigit = false) (number : Nat) :
    c ∉ Nat.toDigits 10 number := by
  intro hmem
  have hdigit := Nat.isDigit_of_mem_toDigits (by decide) (by decide) hmem
  rw [hother] at hdigit
  cases hdigit

theorem readDigits_toDigits {limit : Nat} (hlimit : 9 ≤ limit) (number : Nat)
    (hle : number ≤ limit) : readDigits limit (Nat.toDigits 10 number) = some number := by
  have hvalue : value (Nat.toDigits 10 number) = number := Nat.ofDigitChars_ten_toDigits
  rw [readDigits_eq hlimit (fun c hc => Nat.isDigit_of_mem_toDigits (by decide) (by decide) hc),
    hvalue, if_pos hle]

end BbtFramework.Library.Decimal
