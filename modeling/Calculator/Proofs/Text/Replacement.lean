import Calculator.Expression.Basic

/-!
# Replacing single characters

Replacing a pattern of one character is a single pass over the text (`replaceAll_singleton`).  Under
the usual table of glyphs, `sanitize` is therefore a single pass too: every character gives the
operator it stands for, or itself, and blanks give nothing (`sanitize_cons`).

`Displays text spelling` says that a text is a spelling with blanks put in anywhere and with glyphs
in place of some operators; sanitizing takes it back to the spelling (`sanitize_of_displays`).
-/

namespace Calculator

namespace Text

theorem replaceFrom_singleton (c : Char) (replacement s : Text) :
    replaceFrom [c] replacement 0 s = s.flatMap fun x => if x = c then replacement else [x] := by
  induction s with
  | nil => rfl
  | cons x rest ih =>
    by_cases hx : x = c
    · subst hx
      simp [replaceFrom, ih]
    · simp [replaceFrom, ih, hx, Ne.symm hx]

/-- A pattern of one character is replaced in one pass. -/
theorem replaceAll_singleton (s : Text) (c : Char) (replacement : Text) :
    s.replaceAll [c] replacement = s.flatMap fun x => if x = c then replacement else [x] := by
  rw [replaceAll, if_neg (by simp), replaceFrom_singleton]

end Text

/-- What a character stands for under the usual table of glyphs. -/
def plain (c : Char) : Char :=
  if c = '×' then '*' else if c = '÷' then '/' else if c = '−' then '-' else c

theorem replaceGlyphs_eq_map (t : Text) :
    Settings.standard.glyphs.foldl (fun t (glyph, symbol) => Text.replaceAll t glyph symbol) t =
      t.map plain := by
  simp only [Settings.standard, List.foldl_cons, List.foldl_nil, Text.replaceAll_singleton]
  induction t with
  | nil => rfl
  | cons c rest ih =>
    simp only [List.flatMap_cons, List.flatMap_append, List.map_cons, ih]
    by_cases h₁ : c = '×'
    · simp [h₁, plain]
    by_cases h₂ : c = '÷'
    · simp [h₂, plain]
    by_cases h₃ : c = '−'
    · simp [h₃, plain]
    simp [h₁, h₂, h₃, plain]

section

variable {s : Settings} (hs : s.glyphs = Settings.standard.glyphs)
include hs

theorem sanitize_eq (t : Text) : sanitize s t = Text.squeeze (t.map plain) := by
  rw [sanitize, hs, replaceGlyphs_eq_map]

theorem sanitize_nil : sanitize s [] = [] := by
  rw [sanitize_eq hs]
  rfl

theorem sanitize_cons (c : Char) (t : Text) :
    sanitize s (c :: t) =
      if isBlank (plain c) then sanitize s t else plain c :: sanitize s t := by
  rw [sanitize_eq hs, sanitize_eq hs, List.map_cons, Text.squeeze, List.filter_cons]
  cases h : isBlank (plain c) <;> simp [Text.squeeze]

/-- Sanitizing goes through a text part by part. -/
theorem sanitize_append (t u : Text) : sanitize s (t ++ u) = sanitize s t ++ sanitize s u := by
  simp only [sanitize_eq hs, Text.squeeze, List.map_append, List.filter_append]

end

/-! ### Displayed texts -/

/-- The text is the spelling with blanks put in anywhere, also within numbers, and with any of its
operators shown as the glyph that stands for it. -/
inductive Displays : Text → Text → Prop where
  | nil : Displays [] []
  | blank {c : Char} (hc : isBlank c = true) {text spelling : Text} (h : Displays text spelling) :
      Displays (c :: text) spelling
  | char (c : Char) {text spelling : Text} (h : Displays text spelling) :
      Displays (c :: text) (c :: spelling)
  | timesSign {text spelling : Text} (h : Displays text spelling) :
      Displays ('×' :: text) ('*' :: spelling)
  | divisionSign {text spelling : Text} (h : Displays text spelling) :
      Displays ('÷' :: text) ('/' :: spelling)
  | minusSign {text spelling : Text} (h : Displays text spelling) :
      Displays ('−' :: text) ('-' :: spelling)

/-- A character that sanitizing leaves as it is. -/
def IsPlain (c : Char) : Prop := plain c = c ∧ isBlank c = false

instance (c : Char) : Decidable (IsPlain c) := inferInstanceAs (Decidable (_ ∧ _))

/-- A text shows itself. -/
theorem Displays.refl (text : Text) : Displays text text := by
  induction text with
  | nil => exact .nil
  | cons c rest ih => exact .char c ih

theorem plain_of_isBlank {c : Char} (hc : isBlank c = true) : plain c = c := by
  have h₁ : c ≠ '×' := by rintro rfl; simp [isBlank] at hc
  have h₂ : c ≠ '÷' := by rintro rfl; simp [isBlank] at hc
  have h₃ : c ≠ '−' := by rintro rfl; simp [isBlank] at hc
  simp [plain, h₁, h₂, h₃]

/-- Sanitizing a displayed text gives its spelling. -/
theorem sanitize_of_displays {s : Settings} (hs : s.glyphs = Settings.standard.glyphs)
    {text spelling : Text} (h : Displays text spelling) (hplain : ∀ c ∈ spelling, IsPlain c) :
    sanitize s text = spelling := by
  induction h with
  | nil => exact sanitize_nil hs
  | blank hc _ ih => rw [sanitize_cons hs, plain_of_isBlank hc, if_pos hc, ih hplain]
  | char c _ ih =>
    obtain ⟨⟨hc, hblank⟩, hrest⟩ := List.forall_mem_cons.mp hplain
    rw [sanitize_cons hs, hc, if_neg (by simp [hblank]), ih hrest]
  | timesSign _ ih | divisionSign _ ih | minusSign _ ih =>
    rw [sanitize_cons hs, ih (List.forall_mem_cons.mp hplain).2]
    rfl

/-- Sanitizing leaves a text of plain characters as it is. -/
theorem sanitize_of_isPlain {s : Settings} (hs : s.glyphs = Settings.standard.glyphs) {text : Text}
    (hplain : ∀ c ∈ text, IsPlain c) : sanitize s text = text :=
  sanitize_of_displays hs (.refl text) hplain

end Calculator
