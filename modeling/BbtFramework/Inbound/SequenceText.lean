import BbtFramework.Inbound.Request
import BbtFramework.Rpc.CallSend

/-!
# The text of a sequence

`ParseUnsignedDecimal` in the 64-bit numbers it computes with.  The division before each
round refuses a text exactly when the value with the next digit would not fit, so no
operation of the loop wraps, and the loop reads exactly the texts of 64-bit numbers.
-/

namespace BbtFramework.Inbound

open BbtFramework.Library
open BbtFramework.Ordered
open BbtFramework.Rpc

/-- `numeric_limits<uint64_t>::max()`. -/
def maxUint64 : UInt64 := UInt64.ofNat (2 ^ 64 - 1)

def digitOf (c : Char) : UInt64 := UInt64.ofNat c.toNat - UInt64.ofNat '0'.toNat

/-- One round of the loop. -/
def pushUint64 (value : UInt64) (c : Char) : Option UInt64 :=
  let digit := digitOf c
  if (maxUint64 - digit) / 10 < value then none
  else some (value * 10 + digit)

def readUint64 (text : List Char) : Option UInt64 :=
  text.foldlM pushUint64 0

/-- `ParseUnsignedDecimal`. -/
def parseUint64 (text : String) : Option UInt64 :=
  if isUnsignedDecimal text then readUint64 text.toList else none

/-- No operation of the round wraps, and it refuses exactly the values that do not fit. -/
structure RoundsExactly (value : UInt64) (c : Char) : Prop where
  digit : '0'.toNat ≤ c.toNat ∧ (digitOf c).toNat = c.toNat - '0'.toNat
  room : (maxUint64 - digitOf c).toNat = 2 ^ 64 - 1 - (digitOf c).toNat
  refused : (maxUint64 - digitOf c) / 10 < value ↔
    2 ^ 64 ≤ value.toNat * 10 + (digitOf c).toNat
  scaled : ¬(maxUint64 - digitOf c) / 10 < value → (value * 10).toNat = value.toNat * 10
  pushed : ¬(maxUint64 - digitOf c) / 10 < value →
    (value * 10 + digitOf c).toNat = value.toNat * 10 + (digitOf c).toNat

theorem digitOf_toNat {c : Char} (hdigit : c.isDigit = true) :
    (digitOf c).toNat = Decimal.digitValue c := by
  obtain ⟨hle, hlt⟩ := Decimal.toNat_of_isDigit hdigit
  have hnine : '9'.toNat = 57 := rfl
  have hzero : '0'.toNat = 48 := rfl
  have hsize : UInt64.size = 2 ^ 64 := rfl
  have hsmall : (UInt64.ofNat c.toNat).toNat = c.toNat :=
    UInt64.toNat_ofNat_of_lt' (by omega)
  have hbase : (UInt64.ofNat '0'.toNat).toNat = '0'.toNat := rfl
  rw [digitOf, UInt64.toNat_sub_of_le _ _ (UInt64.le_iff_toNat_le.mpr (by omega)), hsmall, hbase]
  rfl

theorem roundsExactly {c : Char} (hdigit : c.isDigit = true) (value : UInt64) :
    RoundsExactly value c := by
  have hten := Decimal.digitValue_lt hdigit
  have hdigitOf := digitOf_toNat hdigit
  have hmax : maxUint64.toNat = 2 ^ 64 - 1 := rfl
  have hroom : (maxUint64 - digitOf c).toNat = 2 ^ 64 - 1 - (digitOf c).toNat := by
    rw [UInt64.toNat_sub_of_le _ _ (UInt64.le_iff_toNat_le.mpr (by omega)), hmax]
  have hrefused : (maxUint64 - digitOf c) / 10 < value ↔
      2 ^ 64 ≤ value.toNat * 10 + (digitOf c).toNat := by
    rw [UInt64.lt_iff_toNat_lt, UInt64.toNat_div, hroom]
    change (2 ^ 64 - 1 - (digitOf c).toNat) / 10 < value.toNat ↔ _
    rw [Decimal.lt_iff_limit_lt _ (by omega)]
    omega
  have hscaled : ¬(maxUint64 - digitOf c) / 10 < value →
      (value * 10).toNat = value.toNat * 10 := by
    rw [hrefused]
    intro hfits
    have hlt : value.toNat * 10 < 2 ^ 64 := by omega
    exact (UInt64.toNat_mul value 10).trans (Nat.mod_eq_of_lt hlt)
  refine ⟨⟨(Decimal.toNat_of_isDigit hdigit).1, hdigitOf⟩, hroom, hrefused, hscaled, ?_⟩
  intro hfits
  rw [UInt64.toNat_add, hscaled hfits]
  rw [hrefused] at hfits
  exact Nat.mod_eq_of_lt (Nat.not_le.mp hfits)

theorem mem_of_isUnsignedDecimal {text : String} :
    isUnsignedDecimal text = true ↔ text ≠ "" ∧ ∀ c ∈ text.toList, c.isDigit = true := by
  simp [isUnsignedDecimal, Char.isDigit, Char.le_def]

/-- A round does in 64 bits what the reader of numbers does. -/
theorem pushUint64_toNat {c : Char} (hdigit : c.isDigit = true) (value : UInt64) :
    (pushUint64 value c).map UInt64.toNat = Decimal.pushDigit (2 ^ 64 - 1) value.toNat c := by
  have hround := roundsExactly hdigit value
  have hten := Decimal.digitValue_lt hdigit
  have hdigitOf := digitOf_toNat hdigit
  rw [Decimal.pushDigit_eq _ (by omega), pushUint64]
  split
  case isTrue hrefused =>
    rw [hround.refused] at hrefused
    rw [if_neg (by omega)]
    rfl
  case isFalse hfits =>
    have hpushed := hround.pushed hfits
    rw [hround.refused] at hfits
    rw [if_pos (by omega), Option.map_some, hpushed, hdigitOf]

theorem readUint64_toNat {text : List Char} (hdigits : ∀ c ∈ text, c.isDigit = true) :
    (readUint64 text).map UInt64.toNat = Decimal.readDigits (2 ^ 64 - 1) text := by
  induction text using List.reverseRecOn with
  | nil => rfl
  | append_singleton front c ih =>
      have hfront := ih (fun c hmem => hdigits c (List.mem_append_left _ hmem))
      have hdigit := hdigits c (List.mem_append_right _ List.mem_cons_self)
      unfold readUint64 Decimal.readDigits at hfront ⊢
      rw [Decimal.foldlM_concat, Decimal.foldlM_concat, ← hfront]
      cases List.foldlM pushUint64 0 front with
      | none => rfl
      | some value =>
          rw [Option.bind_some, Option.map_some, Option.bind_some]
          exact pushUint64_toNat hdigit value

/-- The loop reads exactly the digits of 64-bit numbers. -/
theorem readUint64_eq_some_iff {text : List Char} (hdigits : ∀ c ∈ text, c.isDigit = true)
    (number : UInt64) : readUint64 text = some number ↔ Decimal.value text = number.toNat := by
  have hread := readUint64_toNat hdigits
  rw [Decimal.readDigits_eq (by decide) hdigits] at hread
  constructor
  · intro hsome
    rw [hsome, Option.map_some] at hread
    split at hread
    · exact (Option.some.inj hread).symm
    · cases hread
  · intro hvalue
    have hlt := number.toNat_lt
    rw [hvalue, if_pos (by omega)] at hread
    obtain ⟨found, hfound, hsame⟩ := Option.map_eq_some_iff.mp hread
    rw [hfound, UInt64.toNat_inj.mp hsame]

theorem parseUint64_eq_some_iff {text : String} {number : UInt64} :
    parseUint64 text = some number ↔
      text ≠ "" ∧ (∀ c ∈ text.toList, c.isDigit = true) ∧
        Decimal.value text.toList = number.toNat := by
  unfold parseUint64
  split
  case isTrue hdecimal =>
    obtain ⟨hnonempty, hdigits⟩ := mem_of_isUnsignedDecimal.mp hdecimal
    rw [readUint64_eq_some_iff hdigits]
    exact ⟨fun hvalue => ⟨hnonempty, hdigits, hvalue⟩, fun hall => hall.2.2⟩
  case isFalse hother =>
    rw [mem_of_isUnsignedDecimal] at hother
    constructor
    · intro hnever
      cases hnever
    · rintro ⟨hnonempty, hdigits, -⟩
      exact absurd ⟨hnonempty, hdigits⟩ hother

/-- Dispatch reads a sequence with this loop. -/
theorem parseUnsignedDecimal_eq (text : String) :
    parseUnsignedDecimal text = parseUint64 text := by
  unfold parseUnsignedDecimal parseUint64
  split
  case isTrue hdecimal =>
    rw [← readUint64_toNat (mem_of_isUnsignedDecimal.mp hdecimal).2, Option.map_map]
    cases readUint64 text.toList with
    | none => rfl
    | some number => simp
  case isFalse => rfl

/-- `ParseUnsignedDecimal` reads exactly the non-empty texts of digits whose value is below
`2^64`, and reads their value; up to every digit it has read the value of the digits before,
and nothing it computes there wraps; and it reads back every sequence a sender writes. -/
theorem reads_sequence_exactly :
    (∀ text number, parseUint64 text = some number ↔
      text ≠ "" ∧ (∀ c ∈ text.toList, c.isDigit = true) ∧
        Decimal.value text.toList = number.toNat) ∧
      (∀ text, (parseUint64 text).isSome = true ↔
        text ≠ "" ∧ (∀ c ∈ text.toList, c.isDigit = true) ∧
          Decimal.value text.toList < 2 ^ 64) ∧
      (∀ text, isUnsignedDecimal text = true → ∀ front c rest value,
        text.toList = front ++ c :: rest → readUint64 front = some value →
          value.toNat = Decimal.value front ∧ RoundsExactly value c) ∧
      (∀ text, parseUnsignedDecimal text = parseUint64 text) ∧
      ∀ grant sequence text, (fwSequence, text) ∈ orderedMetadata grant sequence →
        parseUint64 text = some sequence := by
  refine ⟨fun _ _ => parseUint64_eq_some_iff, ?_, ?_, parseUnsignedDecimal_eq, ?_⟩
  · intro text
    rw [Option.isSome_iff_exists]
    constructor
    · rintro ⟨number, hnumber⟩
      obtain ⟨hnonempty, hdigits, hvalue⟩ := parseUint64_eq_some_iff.mp hnumber
      exact ⟨hnonempty, hdigits, hvalue ▸ number.toNat_lt⟩
    · rintro ⟨hnonempty, hdigits, hlt⟩
      refine ⟨UInt64.ofNat (Decimal.value text.toList), ?_⟩
      rw [parseUint64_eq_some_iff, UInt64.toNat_ofNat_of_lt' hlt]
      exact ⟨hnonempty, hdigits, rfl⟩
  · intro text hdecimal front c rest value htext hread
    have hdigits := (mem_of_isUnsignedDecimal.mp hdecimal).2
    rw [htext] at hdigits
    have hfront : ∀ c ∈ front, c.isDigit = true :=
      fun c hmem => hdigits c (List.mem_append_left _ hmem)
    exact ⟨((readUint64_eq_some_iff hfront value).mp hread).symm,
      roundsExactly (hdigits c (List.mem_append_right _ List.mem_cons_self)) value⟩
  · intro grant sequence text hmem
    obtain rfl : text = toString sequence.toNat := by
      simpa [orderedMetadata, fwSequence, fwProducerId, fwProducerEpoch, fwReceiverEpoch]
        using hmem
    rw [← parseUnsignedDecimal_eq, parseUnsignedDecimal_toString]

example : parseUint64 "0018446744073709551615" = some maxUint64 := by decide

example : parseUint64 "18446744073709551616" = none := by decide

end BbtFramework.Inbound
