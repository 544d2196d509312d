import Calculator.Text.Lines

/-!
# Lines of a text with more behind it

Whatever is written behind the end of a line leaves the lines before it as they are
(`lines_prefix_append`).  This holds behind a carriage return as well, although the line feed that
may follow it belongs to the same end of a line.  What such a line feed takes away from the lines
behind is an empty line at most (`LineEnd.exists_lines_append`).
-/

namespace Calculator.Text

/-- The text ends with the end of a line. -/
def EndsLine (s : Text) : Prop := s.getLast? = some '\n' ∨ s.getLast? = some '\r'

instance (s : Text) : Decidable s.EndsLine := inferInstanceAs (Decidable (_ ∨ _))

theorem unifyNewlines_cons {c : Char} {rest : Text} (h : ∀ s, c = '\r' → rest ≠ '\n' :: s) :
    unifyNewlines (c :: rest) = (if c = '\r' then '\n' else c) :: unifyNewlines rest := by
  rw [unifyNewlines]
  intro s hc hrest
  exact h s hc hrest

theorem unifyNewlines_prefix_append (s t : Text) :
    unifyNewlines s <+: unifyNewlines (s ++ t) := by
  fun_induction unifyNewlines s with
  | case1 => exact List.nil_prefix
  | case2 rest ih =>
    show '\n' :: unifyNewlines rest <+: '\n' :: unifyNewlines (rest ++ t)
    exact (List.prefix_cons_inj _).mpr ih
  | case3 c rest hpair ih =>
    by_cases hsplit : c = '\r' ∧ rest = [] ∧ ∃ u, t = '\n' :: u
    · -- the two halves of one line end
      obtain ⟨rfl, rfl, u, rfl⟩ := hsplit
      exact ⟨unifyNewlines u, rfl⟩
    · rw [List.cons_append, unifyNewlines_cons]
      · exact (List.prefix_cons_inj _).mpr ih
      · intro u hc hrest
        cases rest with
        | nil => exact hsplit ⟨hc, rfl, u, hrest⟩
        | cons d rest =>
          rw [List.cons_append, List.cons.injEq] at hrest
          exact hpair rest hc (by rw [hrest.1])

theorem getLast?_unifyNewlines {s : Text} (h : s.EndsLine) :
    (unifyNewlines s).getLast? = some '\n' := by
  fun_induction unifyNewlines s with
  | case1 => simp [EndsLine] at h
  | case2 rest ih =>
    cases rest with
    | nil => rfl
    | cons c rest =>
      have hrest := ih h
      rw [List.getLast?_cons, hrest]
      rfl
  | case3 c rest _ ih =>
    cases rest with
    | nil =>
      rcases h with h | h
      · obtain rfl : c = '\n' := by simpa using h
        rfl
      · obtain rfl : c = '\r' := by simpa using h
        rfl
    | cons d rest =>
      have hrest := ih h
      rw [List.getLast?_cons, hrest]
      rfl

theorem splitLines_ne_nil {s : Text} (h : s ≠ []) : splitLines s ≠ [] := by
  cases s with
  | nil => exact absurd rfl h
  | cons c rest =>
    rw [splitLines]
    split
    · simp
    · split <;> simp

theorem splitLines_append {s : Text} (h : s.getLast? = some '\n') (t : Text) :
    splitLines (s ++ t) = splitLines s ++ splitLines t := by
  induction s with
  | nil => simp at h
  | cons c rest ih =>
    by_cases hrest : rest = []
    · obtain rfl : c = '\n' := by simpa [hrest] using h
      rw [hrest]
      rfl
    · have hlast : rest.getLast? = some '\n' := by
        rw [List.getLast?_cons] at h
        cases hlast : rest.getLast? with
        | none => exact absurd (List.getLast?_eq_none_iff.mp hlast) hrest
        | some d => simpa [hlast] using h
      rw [List.cons_append, splitLines, splitLines, ih hlast]
      split
      · rfl
      · obtain ⟨line, more, hlines⟩ := List.exists_cons_of_ne_nil (splitLines_ne_nil hrest)
        rw [hlines]
        rfl

/-- What is written behind the end of a line changes no line before it. -/
theorem lines_prefix_append {s : Text} (h : s.EndsLine) (t : Text) :
    s.lines <+: (s ++ t).lines := by
  obtain ⟨u, hu⟩ := unifyNewlines_prefix_append s t
  unfold lines
  rw [← hu, splitLines_append (getLast?_unifyNewlines h)]
  exact List.prefix_append _ _

/-! ### Lines one by one -/

/-- How a line ends. -/
inductive LineEnd
  | lineFeed
  | carriageReturn
  | both
deriving DecidableEq, Repr

/-- The end of a line as it is written. -/
def LineEnd.text : LineEnd → Text
  | lineFeed => ['\n']
  | carriageReturn => ['\r']
  | both => ['\r', '\n']

/-- The text does not reach beyond a line. -/
def IsInLine (s : Text) : Prop := '\n' ∉ s ∧ '\r' ∉ s

instance (s : Text) : Decidable s.IsInLine := inferInstanceAs (Decidable (_ ∧ _))

theorem IsInLine.append {s t : Text} (hs : s.IsInLine) (ht : t.IsInLine) : (s ++ t).IsInLine := by
  constructor
  · rw [List.mem_append]
    exact not_or.mpr ⟨hs.1, ht.1⟩
  · rw [List.mem_append]
    exact not_or.mpr ⟨hs.2, ht.2⟩

theorem unifyNewlines_append {s : Text} (h : '\r' ∉ s) (t : Text) :
    unifyNewlines (s ++ t) = s ++ unifyNewlines t := by
  induction s with
  | nil => rfl
  | cons c rest ih =>
    rw [List.mem_cons, not_or] at h
    have hc : c ≠ '\r' := Ne.symm h.1
    rw [List.cons_append, unifyNewlines_cons fun _ hreturn => absurd hreturn hc, if_neg hc, ih h.2,
      List.cons_append]

theorem splitLines_append_cons {s : Text} (h : '\n' ∉ s) (t : Text) :
    splitLines (s ++ '\n' :: t) = s :: splitLines t := by
  induction s with
  | nil => rfl
  | cons c rest ih =>
    rw [List.mem_cons, not_or] at h
    rw [List.cons_append, splitLines, if_neg (Ne.symm h.1), ih h.2]

theorem splitLines_eq_singleton {s : Text} (h : '\n' ∉ s) (hne : s ≠ []) : splitLines s = [s] := by
  induction s with
  | nil => exact absurd rfl hne
  | cons c rest ih =>
    rw [List.mem_cons, not_or] at h
    rw [splitLines, if_neg (Ne.symm h.1)]
    by_cases hrest : rest = []
    · rw [hrest, splitLines]
    · rw [ih h.2 hrest]

section

variable {s : Text} (h : s.IsInLine)

include h

/-- A last line without an end. -/
theorem lines_eq_singleton (hne : s ≠ []) : s.lines = [s] := by
  have hunify := unifyNewlines_append h.2 []
  rw [List.append_nil] at hunify
  rw [lines, hunify, unifyNewlines, List.append_nil, splitLines_eq_singleton h.1 hne]

theorem lines_append_lineFeed (t : Text) : (s ++ '\n' :: t).lines = s :: t.lines := by
  have hunify : unifyNewlines ('\n' :: t) = '\n' :: unifyNewlines t :=
    unifyNewlines_cons fun _ hreturn => absurd hreturn (by decide)
  rw [lines, unifyNewlines_append h.2, hunify, splitLines_append_cons h.1]
  rfl

theorem lines_append_both (t : Text) : (s ++ '\r' :: '\n' :: t).lines = s :: t.lines := by
  rw [lines, unifyNewlines_append h.2, unifyNewlines, splitLines_append_cons h.1]
  rfl

theorem lines_append_carriageReturn {t : Text} (ht : ∀ u, t ≠ '\n' :: u) :
    (s ++ '\r' :: t).lines = s :: t.lines := by
  have hunify : unifyNewlines ('\r' :: t) = '\n' :: unifyNewlines t :=
    unifyNewlines_cons fun u _ => ht u
  rw [lines, unifyNewlines_append h.2, hunify, splitLines_append_cons h.1]
  rfl

/-- The end of a line takes nothing away from the lines behind it but an empty one. -/
theorem LineEnd.exists_lines_append (e : LineEnd) (t : Text) :
    ∃ more, (s ++ (e.text ++ t)).lines = s :: more ∧ (t.lines = more ∨ t.lines = [] :: more) := by
  cases e with
  | lineFeed => exact ⟨t.lines, lines_append_lineFeed h t, .inl rfl⟩
  | both => exact ⟨t.lines, lines_append_both h t, .inl rfl⟩
  | carriageReturn =>
    by_cases ht : ∃ u, t = '\n' :: u
    · -- the line feed that would end an empty line is read as part of this end
      obtain ⟨u, rfl⟩ := ht
      have hempty : IsInLine [] := by decide
      exact ⟨lines u, lines_append_both h u, .inr (lines_append_lineFeed hempty u)⟩
    · refine ⟨t.lines, lines_append_carriageReturn h ?_, .inl rfl⟩
      intro u hu
      exact ht ⟨u, hu⟩

end

end Calculator.Text
