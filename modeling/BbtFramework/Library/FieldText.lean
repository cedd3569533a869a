import Mathlib.Data.List.Basic
import Mathlib.Logic.Relation

/-!
# Texts made of separated parts

Cutting a text at the first or the last occurrence of a mark, and the text of a
list of named fields.  The text of a field list does not tell the fields when
the marks may stand inside them: two lists have one text exactly when the one
becomes the other by moving the mark between a name and its value to another
mark of the field, and by joining neighbouring fields into one or parting them.
-/

namespace BbtFramework.Library.FieldText

variable {Letter : Type}

theorem cut_first {mark : Letter} {left right left' right' : List Letter}
    (hleft : mark ∉ left) (hleft' : mark ∉ left')
    (htext : left ++ mark :: right = left' ++ mark :: right') :
    left = left' ∧ right = right' := by
  induction left generalizing left' with
  | nil =>
      cases left' with
      | nil => exact ⟨rfl, (List.cons.inj htext).2⟩
      | cons letter rest =>
          exact absurd (List.mem_cons.mpr (.inl (List.cons.inj htext).1)) hleft'
  | cons letter rest ih =>
      cases left' with
      | nil => exact absurd (List.mem_cons.mpr (.inl (List.cons.inj htext).1.symm)) hleft
      | cons letter' rest' =>
          obtain ⟨hletter, hrest⟩ := List.cons.inj htext
          obtain ⟨hsame, hright⟩ := ih (fun hmem => hleft (List.mem_cons_of_mem _ hmem))
            (fun hmem => hleft' (List.mem_cons_of_mem _ hmem)) hrest
          exact ⟨by rw [hletter, hsame], hright⟩

theorem cut_last {mark : Letter} {left right left' right' : List Letter}
    (hright : mark ∉ right) (hright' : mark ∉ right')
    (htext : left ++ mark :: right = left' ++ mark :: right') :
    left = left' ∧ right = right' := by
  have hreverse := congrArg List.reverse htext
  simp only [List.reverse_append, List.reverse_cons, List.append_assoc,
    List.singleton_append] at hreverse
  obtain ⟨hsame, hrest⟩ := cut_first (mt List.mem_reverse.mp hright)
    (mt List.mem_reverse.mp hright') hreverse
  exact ⟨List.reverse_injective hrest, List.reverse_injective hsame⟩

abbrev Field (Letter : Type) := List Letter × List Letter

section

variable (opening : List Letter) (binder closing : Letter)

def fieldText (field : Field Letter) : List Letter :=
  opening ++ field.1 ++ binder :: field.2 ++ [closing]

def text (fields : List (Field Letter)) : List Letter :=
  fields.flatMap (fieldText opening binder closing)

/-- One change of the fields that their text does not show. -/
inductive Move : List (Field Letter) → List (Field Letter) → Prop where
  | shift (front back : List (Field Letter)) (name middle value : List Letter) :
      Move (front ++ (name, middle ++ binder :: value) :: back)
        (front ++ (name ++ binder :: middle, value) :: back)
  | merge (front back : List (Field Letter)) (name value name' value' : List Letter) :
      Move (front ++ (name, value) :: (name', value') :: back)
        (front ++ (name, value ++ closing :: (opening ++ name' ++ binder :: value')) :: back)

/-- The fields of the one list are those of the other, split at other marks. -/
def Resplits : List (Field Letter) → List (Field Letter) → Prop :=
  Relation.EqvGen (Move opening binder closing)

variable {opening binder closing}

theorem text_of_move {fields other : List (Field Letter)}
    (hmove : Move opening binder closing fields other) :
    text opening binder closing fields = text opening binder closing other := by
  cases hmove with
  | shift front back name middle value => simp [text, fieldText]
  | merge front back name value name' value' => simp [text, fieldText]

theorem text_of_resplits {fields other : List (Field Letter)}
    (hresplits : Resplits opening binder closing fields other) :
    text opening binder closing fields = text opening binder closing other := by
  induction hresplits with
  | rel fields other hmove => exact text_of_move hmove
  | refl fields => rfl
  | symm fields other _ ih => exact ih.symm
  | trans fields middle other _ _ hfirst hsecond => exact hfirst.trans hsecond

theorem Move.cons {fields other : List (Field Letter)} (field : Field Letter)
    (hmove : Move opening binder closing fields other) :
    Move opening binder closing (field :: fields) (field :: other) := by
  cases hmove with
  | shift front back name middle value =>
      exact .shift (field :: front) back name middle value
  | merge front back name value name' value' =>
      exact .merge (field :: front) back name value name' value'

theorem Resplits.cons {fields other : List (Field Letter)} (field : Field Letter)
    (hresplits : Resplits opening binder closing fields other) :
    Resplits opening binder closing (field :: fields) (field :: other) := by
  induction hresplits with
  | rel fields other hmove => exact .rel _ _ (hmove.cons field)
  | refl fields => exact .refl _
  | symm fields other _ ih => exact .symm _ _ ih
  | trans fields middle other _ _ hfirst hsecond => exact .trans _ _ _ hfirst hsecond

variable (opening binder closing)

/-- A single field has a form whose name holds no binder. -/
theorem resplits_tight (field : Field Letter) :
    ∃ name value, binder ∉ name ∧
      Resplits opening binder closing [field] [(name, value)] := by
  obtain ⟨name, value⟩ := field
  by_cases hmem : binder ∈ name
  · obtain ⟨left, right, rfl, hleft⟩ := List.eq_append_cons_of_mem hmem
    exact ⟨left, right ++ binder :: value, hleft,
      .symm _ _ (.rel _ _ (.shift [] [] left right value))⟩
  · exact ⟨name, value, hmem, .refl _⟩

theorem resplits_single (field : Field Letter) (rest : List (Field Letter)) :
    ∃ name value, binder ∉ name ∧
      Resplits opening binder closing (field :: rest) [(name, value)] := by
  induction rest generalizing field with
  | nil => exact resplits_tight opening binder closing field
  | cons second rest ih =>
      obtain ⟨name, value, -, hrest⟩ := ih second
      obtain ⟨tightName, tightValue, htight, hfinal⟩ := resplits_tight opening binder closing
        (field.1, field.2 ++ closing :: (opening ++ name ++ binder :: value))
      refine ⟨tightName, tightValue, htight, ?_⟩
      refine .trans _ _ _ (hrest.cons field) (.trans _ _ _ ?_ hfinal)
      exact .rel _ _ (.merge [] [] field.1 field.2 name value)

variable {opening binder closing}

/-- Single fields whose names hold no binder differ in their text when they differ. -/
theorem single_of_text_eq {name value name' value' : List Letter}
    (hname : binder ∉ name) (hname' : binder ∉ name')
    (htext : text opening binder closing [(name, value)] =
      text opening binder closing [(name', value')]) :
    name = name' ∧ value = value' := by
  have hcut : name ++ binder :: (value ++ [closing]) =
      name' ++ binder :: (value' ++ [closing]) := by
    simpa [text, fieldText] using htext
  obtain ⟨hsame, hvalue⟩ := cut_first hname hname' hcut
  exact ⟨hsame, List.append_cancel_right hvalue⟩

theorem text_eq_iff {fields other : List (Field Letter)} :
    text opening binder closing fields = text opening binder closing other ↔
      Resplits opening binder closing fields other := by
  constructor
  · intro htext
    cases fields with
    | nil =>
        cases other with
        | nil => exact .refl _
        | cons field rest => simp [text, fieldText] at htext
    | cons field rest =>
        cases other with
        | nil => simp [text, fieldText] at htext
        | cons field' rest' =>
            obtain ⟨name, value, hname, hleft⟩ :=
              resplits_single opening binder closing field rest
            obtain ⟨name', value', hname', hright⟩ :=
              resplits_single opening binder closing field' rest'
            rw [text_of_resplits hleft, text_of_resplits hright] at htext
            obtain ⟨rfl, rfl⟩ := single_of_text_eq hname hname' htext
            exact .trans _ _ _ hleft (.symm _ _ hright)
  · exact text_of_resplits

/-- A field whose marks stand only between its parts. -/
def Plain (binder closing : Letter) (field : Field Letter) : Prop :=
  binder ∉ field.1 ∧ closing ∉ field.1 ∧ closing ∉ field.2

theorem eq_of_text_plain (hopening : closing ∉ opening) (hmarks : closing ≠ binder)
    {fields other : List (Field Letter)} (hfields : ∀ field ∈ fields, Plain binder closing field)
    (hother : ∀ field ∈ other, Plain binder closing field)
    (htext : text opening binder closing fields = text opening binder closing other) :
    fields = other := by
  induction fields generalizing other with
  | nil =>
      cases other with
      | nil => rfl
      | cons field rest => simp [text, fieldText] at htext
  | cons field rest ih =>
      cases other with
      | nil => simp [text, fieldText] at htext
      | cons field' rest' =>
          have hplain := List.forall_mem_cons.mp hfields
          have hplain' := List.forall_mem_cons.mp hother
          have hbody : ∀ field : Field Letter, Plain binder closing field →
              closing ∉ opening ++ field.1 ++ binder :: field.2 := by
            rintro field ⟨-, hname, hvalue⟩
            simp [hopening, hname, hvalue, hmarks]
          have hcut : (opening ++ field.1 ++ binder :: field.2) ++
                closing :: text opening binder closing rest =
              (opening ++ field'.1 ++ binder :: field'.2) ++
                closing :: text opening binder closing rest' := by
            simpa [text, fieldText] using htext
          obtain ⟨hfield, hrest⟩ := cut_first (hbody field hplain.1) (hbody field' hplain'.1) hcut
          rw [List.append_assoc, List.append_assoc, List.append_cancel_left_eq] at hfield
          obtain ⟨hname, hvalue⟩ := cut_first hplain.1.1 hplain'.1.1 hfield
          rw [ih hplain.2 hplain'.2 hrest, show field = field' from Prod.ext hname hvalue]

end

end BbtFramework.Library.FieldText
