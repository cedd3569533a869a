import Mathlib.Algebra.Order.Ring.Int
import Mathlib.Data.List.TakeWhile

/-!
# Integers in texts

The conversion of the standard library from a text to an `int`: white space, a
sign and digits are read from the front, what follows is ignored, and a text
without digits or with too large a value is refused.  A numeral is a text that
consists of sign and digits only.
-/

namespace BbtFramework.Library.IntegerText

inductive Sign where
  | none
  | plus
  | minus
  deriving DecidableEq, Repr

def Sign.text : Sign → List Char
  | .none => []
  | .plus => ['+']
  | .minus => ['-']

def Sign.apply : Sign → Nat → Int
  | .minus, value => -value
  | _, value => value

structure Numeral where
  sign : Sign
  digits : List Char
  nonempty : digits ≠ []
  decimal : ∀ c ∈ digits, c.isDigit = true

def Numeral.text (numeral : Numeral) : List Char :=
  numeral.sign.text ++ numeral.digits

def Numeral.value (numeral : Numeral) : Int :=
  numeral.sign.apply (Nat.ofDigitChars 10 numeral.digits 0)

def IsDecimal (text : List Char) (value : Int) : Prop :=
  ∃ numeral : Numeral, numeral.text = text ∧ numeral.value = value

/-- The white space of the C locale: blank, tab, line feed, vertical tab, form feed and carriage
return. -/
def isSpace (c : Char) : Bool :=
  c.toNat == 32 || (9 ≤ c.toNat && c.toNat ≤ 13)

def Leads (text : List Char) (value : Int) : Prop :=
  ∃ (white rest : List Char) (numeral : Numeral), text = white ++ (numeral.text ++ rest) ∧
    (∀ c ∈ white, isSpace c = true) ∧ (∀ c ∈ rest.head?, c.isDigit = false) ∧
    numeral.value = value

def takeSign : List Char → Sign × List Char
  | [] => (.none, [])
  | c :: rest =>
      if c = '-' then (.minus, rest)
      else if c = '+' then (.plus, rest)
      else (.none, c :: rest)

def leadingValue (text : List Char) : Option Int :=
  let (sign, rest) := takeSign (text.dropWhile isSpace)
  let digits := rest.takeWhile Char.isDigit
  if digits = [] then none else some (sign.apply (Nat.ofDigitChars 10 digits 0))

inductive Failure where
  | invalidArgument
  | outOfRange
  deriving DecidableEq, Repr

/-- The values of `int`. -/
def InRange (value : Int) : Prop :=
  -2 ^ 31 ≤ value ∧ value < 2 ^ 31

instance (value : Int) : Decidable (InRange value) :=
  inferInstanceAs (Decidable (_ ∧ _))

/-- `std::stoi`; a failure is an exception. -/
def stoi (text : List Char) : Except Failure Int :=
  match leadingValue text with
  | none => .error .invalidArgument
  | some value => if InRange value then .ok value else .error .outOfRange

theorem takeSign_text (text : List Char) : (takeSign text).1.text ++ (takeSign text).2 = text := by
  cases text with
  | nil => rfl
  | cons c rest =>
      by_cases hminus : c = '-'
      · rw [hminus]
        rfl
      · by_cases hplus : c = '+'
        · rw [hplus]
          rfl
        · simp only [takeSign, if_neg hminus, if_neg hplus, Sign.text, List.nil_append]

theorem not_isSpace_of_isDigit {c : Char} (hdigit : c.isDigit = true) : isSpace c = false := by
  have hrange : 48 ≤ c.toNat ∧ c.toNat ≤ 57 := by
    simpa [Char.isDigit, Char.le_def, UInt32.le_iff_toNat_le] using hdigit
  simp only [isSpace, Bool.or_eq_false_iff, Bool.and_eq_false_iff, beq_eq_false_iff_ne,
    decide_eq_false_iff_not]
  omega

theorem takeSign_numeral (numeral : Numeral) (rest : List Char) :
    takeSign (numeral.text ++ rest) = (numeral.sign, numeral.digits ++ rest) := by
  obtain ⟨sign, digits, hnonempty, hdecimal⟩ := numeral
  cases sign with
  | plus => rfl
  | minus => rfl
  | none =>
      cases digits with
      | nil => exact absurd rfl hnonempty
      | cons c others =>
          have hdigit := hdecimal c List.mem_cons_self
          have hminus : c ≠ '-' := by
            rintro rfl
            exact absurd hdigit (by decide)
          have hplus : c ≠ '+' := by
            rintro rfl
            exact absurd hdigit (by decide)
          simp only [Numeral.text, Sign.text, List.nil_append, List.cons_append, takeSign,
            if_neg hminus, if_neg hplus]

/-- A numeral does not start with white space. -/
theorem dropWhile_numeral (numeral : Numeral) (rest : List Char) :
    (numeral.text ++ rest).dropWhile isSpace = numeral.text ++ rest := by
  obtain ⟨sign, digits, hnonempty, hdecimal⟩ := numeral
  cases sign with
  | plus => rfl
  | minus => rfl
  | none =>
      cases digits with
      | nil => exact absurd rfl hnonempty
      | cons c others =>
          have hspace := not_isSpace_of_isDigit (hdecimal c List.mem_cons_self)
          exact List.dropWhile_cons_of_neg (by rw [hspace]; decide)

theorem takeWhile_digits {digits rest : List Char} (hdigits : ∀ c ∈ digits, c.isDigit = true)
    (hrest : ∀ c ∈ rest.head?, c.isDigit = false) :
    (digits ++ rest).takeWhile Char.isDigit = digits := by
  rw [List.takeWhile_append_of_pos hdigits]
  cases rest with
  | nil => exact List.append_nil digits
  | cons c others =>
      have hstop := hrest c rfl
      rw [List.takeWhile_cons_of_neg (by rw [hstop]; decide), List.append_nil]

theorem leadingValue_eq_some_iff {text : List Char} {value : Int} :
    leadingValue text = some value ↔ Leads text value := by
  constructor
  · intro hvalue
    unfold leadingValue at hvalue
    dsimp only at hvalue
    split at hvalue
    case isTrue => cases hvalue
    case isFalse hdigits =>
      let signed := takeSign (text.dropWhile isSpace)
      refine ⟨text.takeWhile isSpace, signed.2.dropWhile Char.isDigit,
        ⟨signed.1, signed.2.takeWhile Char.isDigit, hdigits,
          fun c hc => List.mem_takeWhile_imp hc⟩, ?_, fun c hc => List.mem_takeWhile_imp hc, ?_,
        Option.some.inj hvalue⟩
      · rw [Numeral.text, List.append_assoc, List.takeWhile_append_dropWhile, takeSign_text,
          List.takeWhile_append_dropWhile]
      · intro c hc
        have hstop := List.head?_dropWhile_not Char.isDigit signed.2
        rw [Option.mem_def.mp hc] at hstop
        simpa using hstop
  · rintro ⟨white, rest, numeral, rfl, hwhite, hrest, rfl⟩
    unfold leadingValue
    rw [List.dropWhile_append_of_pos hwhite, dropWhile_numeral, takeSign_numeral]
    dsimp only
    rw [takeWhile_digits numeral.decimal hrest, if_neg numeral.nonempty]
    rfl

theorem Leads.value_eq {text : List Char} {value other : Int} (hvalue : Leads text value)
    (hother : Leads text other) : value = other := by
  rw [← leadingValue_eq_some_iff] at hvalue hother
  exact Option.some.inj (hvalue.symm.trans hother)

theorem IsDecimal.leads {text : List Char} {value : Int} (hdecimal : IsDecimal text value) :
    Leads text value := by
  obtain ⟨numeral, rfl, hvalue⟩ := hdecimal
  exact ⟨[], [], numeral, by rw [List.nil_append, List.append_nil], nofun, nofun, hvalue⟩

theorem stoi_eq_ok_iff {text : List Char} {value : Int} :
    stoi text = .ok value ↔ Leads text value ∧ InRange value := by
  unfold stoi
  rw [← leadingValue_eq_some_iff]
  cases leadingValue text with
  | none => exact ⟨nofun, fun h => nomatch h.1⟩
  | some found =>
      dsimp only
      split
      case isTrue hrange =>
        constructor
        · rintro hok
          cases hok
          exact ⟨rfl, hrange⟩
        · rintro ⟨hsome, -⟩
          rw [Option.some.inj hsome]
      case isFalse hrange =>
        constructor
        · exact nofun
        · rintro ⟨hsome, hin⟩
          rw [Option.some.inj hsome] at hrange
          exact absurd hin hrange

def Numeral.ofNat (sign : Sign) (value : Nat) : Numeral where
  sign := sign
  digits := Nat.toDigits 10 value
  nonempty := Nat.toDigits_ne_nil
  decimal _ hc := Nat.isDigit_of_mem_toDigits (by decide) (by decide) hc

theorem Numeral.value_ofNat (sign : Sign) (value : Nat) :
    (Numeral.ofNat sign value).value = sign.apply value :=
  congrArg sign.apply Nat.ofDigitChars_ten_toDigits

/-- An integer is read back from its own text. -/
theorem isDecimal_toString (value : Int) : IsDecimal (toString value).toList value := by
  cases value with
  | ofNat value =>
      refine ⟨.ofNat .none value, ?_, Numeral.value_ofNat .none value⟩
      change Nat.toDigits 10 value = (Nat.repr value).toList
      rw [Nat.toList_repr]
  | negSucc value =>
      refine ⟨.ofNat .minus (value + 1), ?_, Numeral.value_ofNat .minus (value + 1)⟩
      change ['-'] ++ Nat.toDigits 10 (value + 1) = ("-" ++ Nat.repr (value + 1)).toList
      rw [String.toList_append, Nat.toList_repr]
      rfl

end BbtFramework.Library.IntegerText
