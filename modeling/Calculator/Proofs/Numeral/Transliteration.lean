import Calculator.Proofs.Numeral.Literal
import Mathlib.Data.List.Forall2

/-!
# Digits of other scripts

A text transliterates another one if it differs from it in nothing but the scripts of its digits:
where one has a digit, the other has a digit of the same value, and any other character is the same
in both (`Transliterates`).  The parser of numbers sees no difference.  Runs that transliterate each
other have the same digits, places and points, so both are malformed or have the same value
(`isMalformed_eq`, `literalValue_eq`).
-/

namespace Calculator

/-- The same character, or two digits of the same value. -/
def SameValue (c c' : Char) : Prop :=
  c = c' ∨ isDecimalDigit c = true ∧ decimalDigit? c = decimalDigit? c'

instance (c c' : Char) : Decidable (SameValue c c') := inferInstanceAs (Decidable (_ ∨ _ ∧ _))

/-- The texts differ in nothing but the scripts of their digits. -/
abbrev Transliterates : Text → Text → Prop := List.Forall₂ SameValue

namespace SameValue

variable {c c' : Char}

theorem decimalDigit?_eq (h : SameValue c c') : decimalDigit? c = decimalDigit? c' := by
  rcases h with rfl | ⟨-, h⟩
  · rfl
  · exact h

theorem isDecimalDigit_eq (h : SameValue c c') : isDecimalDigit c = isDecimalDigit c' := by
  rw [isDecimalDigit, isDecimalDigit, h.decimalDigit?_eq]

/-- A character that is no digit is not replaced by another one. -/
theorem eq_of_not_isDecimalDigit (h : SameValue c c') (hc : isDecimalDigit c = false) : c' = c := by
  rcases h with rfl | ⟨hdigit, -⟩
  · rfl
  · rw [hc] at hdigit
    exact absurd hdigit Bool.false_ne_true

/-- Nor is a digit replaced by a character that is none. -/
theorem eq_iff (h : SameValue c c') {x : Char} (hx : isDecimalDigit x = false) :
    c = x ↔ c' = x := by
  constructor
  · rintro rfl
    exact h.eq_of_not_isDecimalDigit hx
  · rintro rfl
    rw [← h.isDecimalDigit_eq] at hx
    exact (h.eq_of_not_isDecimalDigit hx).symm

theorem isNumberChar_eq (h : SameValue c c') : isNumberChar c = isNumberChar c' := by
  have hpoint : (c == '.') = (c' == '.') :=
    Bool.eq_iff_iff.mpr (by simpa using h.eq_iff (x := '.') (by decide))
  rw [isNumberChar, isNumberChar, h.isDecimalDigit_eq, hpoint]

theorem isBlank_eq (h : SameValue c c') : isBlank c = isBlank c' := by
  cases hc : isDecimalDigit c with
  | false => rw [h.eq_of_not_isDecimalDigit hc]
  | true =>
    have hc' : isDecimalDigit c' = true := h.isDecimalDigit_eq ▸ hc
    rw [isBlank_of_isNumberChar (by simp [isNumberChar, hc]),
      isBlank_of_isNumberChar (by simp [isNumberChar, hc'])]

end SameValue

/-! ### Runs of digits and points -/

namespace Transliterates

variable {text text' run run' : Text}

theorem refl (text : Text) : Transliterates text text :=
  List.forall₂_same.mpr fun _ _ => .inl rfl

/-- What stands in place of two parts are two parts again. -/
theorem exists_append {front back : Text} (h : Transliterates (front ++ back) text') :
    ∃ front' back', text' = front' ++ back' ∧ Transliterates front front' ∧
      Transliterates back back' := by
  refine ⟨text'.take front.length, text'.drop front.length, ?_, ?_, ?_⟩
  · exact (List.take_append_drop front.length text').symm
  · simpa using List.forall₂_take front.length h
  · simpa using List.forall₂_drop front.length h

theorem forall_isNumberChar (h : Transliterates run run')
    (hrun : ∀ c ∈ run, isNumberChar c = true) : ∀ c ∈ run', isNumberChar c = true := by
  induction h with
  | nil => exact hrun
  | cons hc _ ih =>
    obtain ⟨hfirst, hrest⟩ := List.forall_mem_cons.mp hrun
    exact List.forall_mem_cons.mpr ⟨hc.isNumberChar_eq ▸ hfirst, ih hrest⟩

theorem ne_nil (h : Transliterates run run') (hne : run ≠ []) : run' ≠ [] := by
  rintro rfl
  exact hne (List.forall₂_nil_right_iff.mp h)

theorem digitsOf_eq (h : Transliterates run run') : digitsOf run = digitsOf run' := by
  induction h with
  | nil => rfl
  | cons hc _ ih =>
    rw [digitsOf, digitsOf, List.filterMap_cons, List.filterMap_cons, hc.decimalDigit?_eq,
      ← digitsOf, ← digitsOf, ih]

theorem dropWhile_ne_point (h : Transliterates run run') :
    Transliterates (run.dropWhile (· ≠ '.')) (run'.dropWhile (· ≠ '.')) := by
  induction h with
  | nil => exact .nil
  | @cons c c' _ _ hc hrest ih =>
    have hpoint := hc.eq_iff (x := '.') (by decide)
    by_cases h : c = '.'
    · obtain rfl := h
      obtain rfl := hpoint.mp rfl
      exact .cons hc hrest
    · rw [List.dropWhile_cons_of_pos (by simpa using h),
        List.dropWhile_cons_of_pos (by simpa using hpoint.not.mp h)]
      exact ih

theorem placesOf_eq (h : Transliterates run run') : placesOf run = placesOf run' := by
  rw [placesOf, placesOf, h.dropWhile_ne_point.digitsOf_eq]

theorem count_point_eq (h : Transliterates run run') : run.count '.' = run'.count '.' := by
  induction h with
  | nil => rfl
  | cons hc _ ih =>
    have hpoint := hc.eq_iff (x := '.') (by decide)
    simp only [List.count_cons, beq_iff_eq, hpoint, ih]

theorem isMalformed_eq (h : Transliterates run run') : isMalformed run = isMalformed run' := by
  rw [isMalformed, isMalformed, any_isDecimalDigit, any_isDecimalDigit, h.digitsOf_eq,
    h.count_point_eq]

theorem literalValue_eq (h : Transliterates run run') : literalValue run = literalValue run' := by
  rw [literalValue, literalValue, h.digitsOf_eq, h.placesOf_eq]

end Transliterates

end Calculator
