import StockRegister.Assessment.Validity
import Mathlib.Data.List.DropRight

/-!
# Valid operands

What the check of every stage asks of an operand, said without the check. A text is stripped by
dropping the blank code points at both of its ends (`Text.stripped`), and an optional text is
filled if it is there and something is left of it (`IsFilled`). An operand is valid
(`Operand.IsValid`) if its id is there and positive, its symbol is filled, or its request is
there and names a filled symbol and a filled company; the whole collection is always valid.

`validityFault?_eq_none_iff` : the check finds no fault exactly in valid operands.
`map_message_validityFault?` : every other operand is objected to in the words of
`Operand.complaint`.
-/

namespace StockRegister

namespace Text

/-- A text without the blank code points at its ends. -/
def stripped (t : Text) : Text :=
  ⟨(t.points.dropWhile isBlankPoint).rdropWhile isBlankPoint⟩

/-- A text is blank exactly if stripping leaves nothing of it. -/
theorem isBlank_iff_stripped (t : Text) : t.isBlank = true ↔ t.stripped.points = [] := by
  unfold isBlank stripped
  rw [List.all_eq_true, List.rdropWhile_eq_nil_iff]
  constructor
  · intro h n hn
    exact h n (List.dropWhile_subset _ hn)
  · intro h
    -- The first code point that is left over at the head is not blank, so none is left over.
    have hnil : t.points.dropWhile isBlankPoint = [] := by
      by_contra hne
      have hhead := List.head_dropWhile_not isBlankPoint hne
      rw [h _ (List.head_mem hne)] at hhead
      cases hhead
    exact List.dropWhile_eq_nil_iff.mp hnil

end Text

/-- An optional text is there and not blank. -/
def IsFilled (value : Option Text) : Prop := ∃ t, value = some t ∧ t.stripped.points ≠ []

theorem isBlankText_eq_false_iff (value : Option Text) :
    isBlankText value = false ↔ IsFilled value := by
  cases value with
  | none => simp [isBlankText, IsFilled]
  | some t =>
    rw [isBlankText, Bool.eq_false_iff, ne_eq, Text.isBlank_iff_stripped]
    simp [IsFilled]

namespace Operand

/-- What every stage asks of an operand. -/
def IsValid : Operand → Prop
  | entity value _ => ∃ n, value = some n ∧ 0 < n
  | symbol value => IsFilled value
  | creation details => ∃ d, details = some d ∧ IsFilled d.symbol ∧ IsFilled d.companyName
  | bulk => True

/-- The check finds no fault exactly in valid operands. -/
theorem validityFault?_eq_none_iff (o : Operand) : o.validityFault? = none ↔ o.IsValid := by
  cases o with
  | entity value purpose => cases value <;> simp [validityFault?, IsValid]
  | symbol value =>
    rw [IsValid, ← isBlankText_eq_false_iff]
    cases h : isBlankText value <;> simp [validityFault?, h]
  | creation details =>
    cases details with
    | none => simp [validityFault?, IsValid]
    | some d =>
      simp only [IsValid, Option.some.injEq, exists_eq_left', ← isBlankText_eq_false_iff]
      cases hs : isBlankText d.symbol <;> cases hc : isBlankText d.companyName <;>
        simp [validityFault?, hs, hc]
  | bulk => simp [validityFault?, IsValid]

instance (o : Operand) : Decidable o.IsValid :=
  decidable_of_iff (o.validityFault? = none) o.validityFault?_eq_none_iff

/-- The words in which a stage with a given subject objects to an operand. -/
def complaint (subject : String) : Operand → String
  | entity _ _ => "invalid id for " ++ subject
  | symbol _ => "invalid symbol for " ++ subject
  | creation none => "missing create request for " ++ subject
  | creation (some _) => "invalid create request for " ++ subject
  | bulk => ""

/-- The check words its fault as the complaint, and has none to word in a valid operand. -/
theorem map_message_validityFault? (subject : String) (o : Operand) :
    o.validityFault?.map (ValidityFault.message subject) =
      if o.IsValid then none else some (o.complaint subject) := by
  split_ifs with hv
  · rw [(validityFault?_eq_none_iff o).mpr hv, Option.map_none]
  · obtain ⟨fault, hf⟩ := Option.ne_none_iff_exists'.mp fun h =>
      hv ((validityFault?_eq_none_iff o).mp h)
    rw [hf, Option.map_some, Option.some.injEq]
    cases o with
    | entity value purpose =>
      cases value with
      | none => cases hf; rfl
      | some n =>
        simp only [validityFault?] at hf
        split at hf <;> cases hf
        rfl
    | symbol value =>
      simp only [validityFault?] at hf
      split at hf <;> cases hf
      rfl
    | creation details =>
      cases details with
      | none => cases hf; rfl
      | some d =>
        simp only [validityFault?] at hf
        split at hf <;> cases hf
        rfl
    | bulk => cases hf

end Operand

end StockRegister
