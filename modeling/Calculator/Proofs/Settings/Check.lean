import Calculator.Proofs.Text.Glyphs

/-!
# Settings that pass the check

The settings that pass the check are described by `IsSound` (`check_eq_ok_iff`).  A replacement of a
glyph passes as soon as it is a piece of the row of operators, and besides the four operators that
row has seven more pieces, the empty one included (`isValidGlyph_iff`).

So the check does not keep sanitizing from dropping a glyph or from making several characters of it.
A text keeps one character for each of its glyphs exactly under those tables in which every
replacement is a single operator (`length_sanitize_iff`).
-/

namespace Calculator

/-- A pattern occurs in a text if the text is the pattern between two others. -/
theorem Text.occursIn_iff {pattern t : Text} : pattern.occursIn t = true ↔ pattern <:+: t := by
  induction t with
  | nil => simp [occursIn]
  | cons c t ih =>
    rw [occursIn, Bool.or_eq_true, ih, List.isPrefixOf_iff_prefix, List.infix_cons_iff]

namespace Settings

/-! ### What the check accepts -/

/-- The pieces of the row of operators. -/
def glyphPieces : List Text :=
  [[], ['+'], ['-'], ['*'], ['/'], ['+', '-'], ['-', '*'], ['*', '/'], ['+', '-', '*'],
    ['-', '*', '/'], ['+', '-', '*', '/']]

theorem infix_glyphOperators_iff {t : Text} : t <:+: glyphOperators ↔ t ∈ glyphPieces := by
  have hsub : glyphOperators.tails.flatMap List.inits ⊆ glyphPieces := by decide
  have hsuper : glyphPieces ⊆ glyphOperators.tails.flatMap List.inits := by decide
  rw [List.infix_iff_prefix_suffix]
  constructor
  · rintro ⟨u, hbeginning, hend⟩
    apply hsub
    exact List.mem_flatMap.mpr
      ⟨u, (List.mem_tails _ _).mpr hend, (List.mem_inits _ _).mpr hbeginning⟩
  · intro h
    obtain ⟨u, hend, hbeginning⟩ := List.mem_flatMap.mp (hsuper h)
    exact ⟨u, (List.mem_inits _ _).mp hbeginning, (List.mem_tails _ _).mp hend⟩

theorem isValidGlyph_iff {entry : Text × Text} :
    isValidGlyph entry = true ↔ entry.1.length = 1 ∧ entry.2 ∈ glyphPieces := by
  rw [isValidGlyph, Bool.and_eq_true, beq_iff_eq, Text.occursIn_iff, infix_glyphOperators_iff]

/-- Settings that make sense together. -/
structure IsSound (s : Settings) : Prop where
  /-- The operator `%` counts in hundredths. -/
  percentDivisor : s.percentDivisor = .hundred
  /-- An operand that is missing is zero. -/
  missingOperand : isZero s.missingOperand = true
  /-- Some decimal places are shown. -/
  places : 0 < s.places
  /-- A limit leaves room for some history. -/
  historyLimit : ∀ limit ∈ s.historyLimit, 0 < limit
  /-- A glyph is one character and stands for a piece of the row of operators. -/
  glyphs : ∀ entry ∈ s.glyphs, entry.1.length = 1 ∧ entry.2 ∈ glyphPieces

/-- The check accepts the settings that make sense together, and no others. -/
theorem check_eq_ok_iff {s : Settings} : s.check = .ok () ↔ s.IsSound := by
  have hlimit : s.historyLimit.any (· ≤ 0) = true ↔ ¬∀ limit ∈ s.historyLimit, 0 < limit := by
    cases s.historyLimit <;> simp
  have hglyphs : (s.glyphs.find? fun entry => !isValidGlyph entry) = none ↔
      ∀ entry ∈ s.glyphs, entry.1.length = 1 ∧ entry.2 ∈ glyphPieces := by
    simp [List.find?_eq_none, isValidGlyph_iff]
  unfold check
  constructor
  · intro h
    split_ifs at h with h₁ h₂ h₃ h₄
    cases hfind : s.glyphs.find? fun entry => !isValidGlyph entry with
    | some entry => simp [hfind] at h
    | none =>
      exact ⟨not_not.mp h₁, by simpa using h₂, Int.not_le.mp h₃, not_not.mp (hlimit.not.mp h₄),
        hglyphs.mp hfind⟩
  · intro h
    rw [if_neg (not_not.mpr h.percentDivisor), if_neg (by simp [h.missingOperand]),
      if_neg (Int.not_le.mpr h.places), if_neg (hlimit.not.mpr (not_not.mpr h.historyLimit)),
      hglyphs.mpr h.glyphs]

end Settings

/-! ### Replacing glyphs by operators -/

section

variable {table : List (Text × Text)} (hsingle : SingleGlyphs table)

include hsingle

section

variable (hoperators : ∀ entry ∈ table, ∀ c ∈ entry.2, c ∈ Settings.glyphOperators)

include hoperators

theorem mem_replaceGlyphs {t : Text} {c : Char} (hc : c ∈ replaceGlyphs table t) :
    c ∈ Settings.glyphOperators ∨ c ∈ t := by
  induction hsingle generalizing t with
  | nil => exact .inr hc
  | cons g symbol _ ih =>
    obtain ⟨hsymbol, htable⟩ := List.forall_mem_cons.mp hoperators
    rw [replaceGlyphs_cons] at hc
    rcases ih htable hc with hoperator | hmem
    · exact .inl hoperator
    · obtain ⟨d, hd, hmem⟩ := List.mem_flatMap.mp hmem
      split at hmem
      · exact .inl (hsymbol c hmem)
      · exact .inr (by rwa [List.mem_singleton.mp hmem])

/-- A glyph leaves nothing but operators. -/
theorem mem_replaceGlyphs_glyph {g c : Char} (hg : [g] ∈ table.map Prod.fst)
    (hc : c ∈ replaceGlyphs table [g]) : c ∈ Settings.glyphOperators := by
  induction hsingle with
  | nil => exact absurd hg List.not_mem_nil
  | cons g' symbol h ih =>
    obtain ⟨hsymbol, htable⟩ := List.forall_mem_cons.mp hoperators
    rw [replaceGlyphs_cons, List.flatMap_singleton] at hc
    by_cases heq : g = g'
    · rw [if_pos heq] at hc
      exact (mem_replaceGlyphs h htable hc).elim id (hsymbol c)
    · rw [if_neg heq] at hc
      exact ih htable (by simpa [heq] using hg) hc

theorem squeeze_replaceGlyphs_glyph {g : Char} (hg : [g] ∈ table.map Prod.fst) :
    (replaceGlyphs table [g]).squeeze = replaceGlyphs table [g] := by
  have hblank : Settings.glyphOperators.all (fun c => !isBlank c) = true := by decide
  rw [Text.squeeze, List.filter_eq_self]
  intro c hc
  exact List.all_eq_true.mp hblank c (mem_replaceGlyphs_glyph hsingle hoperators hg hc)

end

theorem length_replaceGlyphs (hone : ∀ entry ∈ table, entry.2.length = 1) (t : Text) :
    (replaceGlyphs table t).length = t.length := by
  induction hsingle generalizing t with
  | nil => rfl
  | cons g symbol _ ih =>
    obtain ⟨hsymbol, htable⟩ := List.forall_mem_cons.mp hone
    have hpart (c : Char) : (if c = g then symbol else [c]).length = 1 := by
      split
      · exact hsymbol
      · rfl
    rw [replaceGlyphs_cons, ih htable, List.length_flatMap]
    simp [hpart]

/-- If every glyph leaves one character, then every replacement is one character. -/
theorem length_eq_one_of_replaceGlyphs (hnodup : (table.map Prod.fst).Nodup)
    (h : ∀ g : Char, [g] ∈ table.map Prod.fst → (replaceGlyphs table [g]).length = 1) :
    ∀ entry ∈ table, entry.2.length = 1 := by
  induction hsingle with
  | nil => simp
  | @cons g symbol table hs ih =>
    obtain ⟨hg, hnodup⟩ := List.nodup_cons.mp hnodup
    have htable : ∀ entry ∈ table, entry.2.length = 1 := by
      refine ih hnodup fun g' hg' => ?_
      have hne : g' ≠ g := by
        rintro rfl
        exact hg hg'
      have hone := h g' (List.mem_cons_of_mem _ hg')
      rwa [replaceGlyphs_cons, List.flatMap_singleton, if_neg hne] at hone
    -- the later entries keep the length of what the first one puts in
    have hone := h g List.mem_cons_self
    rw [replaceGlyphs_cons, List.flatMap_singleton, if_pos rfl,
      length_replaceGlyphs hs htable] at hone
    exact List.forall_mem_cons.mpr ⟨hone, htable⟩

end

/-! ### How many characters sanitizing keeps -/

/-- The character is a glyph of the table or no blank. -/
def isKept (table : List (Text × Text)) (c : Char) : Bool :=
  (table.map Prod.fst).contains [c] || !isBlank c

section

variable {s : Settings} (h : s.IsSound)

include h

theorem Settings.IsSound.singleGlyphs : SingleGlyphs s.glyphs :=
  singleGlyphs_of_length fun entry hentry => (h.glyphs entry hentry).1

theorem Settings.IsSound.mem_glyphOperators :
    ∀ entry ∈ s.glyphs, ∀ c ∈ entry.2, c ∈ Settings.glyphOperators := by
  have hpieces : ∀ piece ∈ Settings.glyphPieces, piece ⊆ Settings.glyphOperators := by decide
  intro entry hentry c hc
  exact hpieces entry.2 (h.glyphs entry hentry).2 hc

theorem sanitize_glyph {g : Char} (hg : [g] ∈ s.glyphs.map Prod.fst) :
    sanitize s [g] = replaceGlyphs s.glyphs [g] :=
  squeeze_replaceGlyphs_glyph h.singleGlyphs h.mem_glyphOperators hg

theorem length_sanitize_singleton (hone : ∀ entry ∈ s.glyphs, entry.2.length = 1) (c : Char) :
    (sanitize s [c]).length = if isKept s.glyphs c then 1 else 0 := by
  by_cases hc : [c] ∈ s.glyphs.map Prod.fst
  · rw [sanitize_glyph h hc, length_replaceGlyphs h.singleGlyphs hone]
    simp [isKept, hc]
  · rw [sanitize_eq_squeeze, replaceGlyphs_singleton_of_notMem h.singleGlyphs hc]
    cases hblank : isBlank c <;> simp [isKept, hc, hblank, Text.squeeze]

theorem length_sanitize (hone : ∀ entry ∈ s.glyphs, entry.2.length = 1) (t : Text) :
    (sanitize s t).length = t.countP (isKept s.glyphs) := by
  induction t with
  | nil => rw [sanitize_eq_squeeze, replaceGlyphs_empty h.singleGlyphs]; rfl
  | cons c t ih =>
    have happend : sanitize s (c :: t) = sanitize s [c] ++ sanitize s t := by
      rw [← List.singleton_append, sanitize_eq_squeeze, replaceGlyphs_append h.singleGlyphs]
      exact List.filter_append ..
    rw [happend, List.length_append, length_sanitize_singleton h hone, ih, List.countP_cons,
      Nat.add_comm]

end

/-- **When sanitizing keeps one character for each glyph**: under settings that pass the check, it
does so in every text exactly if every replacement is a single operator.  The check itself asks for
no more than a piece of the row of operators. -/
theorem length_sanitize_iff {s : Settings} (h : s.check = .ok ())
    (hnodup : (s.glyphs.map Prod.fst).Nodup) :
    (∀ entry ∈ s.glyphs, entry.1.length = 1 ∧ entry.2 ∈ Settings.glyphPieces) ∧
      ((∀ t, (sanitize s t).length = t.countP (isKept s.glyphs)) ↔
        ∀ entry ∈ s.glyphs, ∃ c ∈ Settings.glyphOperators, entry.2 = [c]) := by
  have hsound : s.IsSound := Settings.check_eq_ok_iff.mp h
  refine ⟨hsound.glyphs, ?_, ?_⟩
  · intro hlength entry hentry
    have hglyph (g : Char) (hg : [g] ∈ s.glyphs.map Prod.fst) :
        (replaceGlyphs s.glyphs [g]).length = 1 := by
      rw [← sanitize_glyph hsound hg, hlength]
      simp [isKept, hg]
    have hone := length_eq_one_of_replaceGlyphs hsound.singleGlyphs hnodup hglyph entry hentry
    obtain ⟨c, hc⟩ := List.length_eq_one_iff.mp hone
    exact ⟨c, hsound.mem_glyphOperators entry hentry c (by simp [hc]), hc⟩
  · intro hoperator
    refine length_sanitize hsound fun entry hentry => ?_
    obtain ⟨c, -, hc⟩ := hoperator entry hentry
    rw [hc, List.length_singleton]

/-- The replacement of one glyph is the next one, and a blank is a glyph too. -/
def chainedSettings : Settings :=
  { Settings.standard with glyphs := [(['×'], ['*']), (['*'], ['/']), ([' '], ['+'])] }

/-- Five of the six characters are kept, all but the tabulator. -/
theorem length_sanitize_iff_chained :
    chainedSettings.check = .ok () ∧ (chainedSettings.glyphs.map Prod.fst).Nodup ∧
      (∀ entry ∈ chainedSettings.glyphs, ∃ c ∈ Settings.glyphOperators, entry.2 = [c]) ∧
      sanitize chainedSettings "6 ×\t*2".toList = "6+//2".toList ∧
      (sanitize chainedSettings "6 ×\t*2".toList).length = 5 := by
  have hcheck : chainedSettings.check = .ok () := by rfl
  have hnodup : (chainedSettings.glyphs.map Prod.fst).Nodup := by decide
  have hoperator :
      ∀ entry ∈ chainedSettings.glyphs, ∃ c ∈ Settings.glyphOperators, entry.2 = [c] := by
    simp [chainedSettings, Settings.glyphOperators]
  obtain ⟨-, hlength⟩ := length_sanitize_iff hcheck hnodup
  refine ⟨hcheck, hnodup, hoperator, by decide, ?_⟩
  rw [hlength.mpr hoperator]
  decide

/-- The usual settings, but with the times sign as the only glyph. -/
def timesSettings (symbol : Text) : Settings :=
  { Settings.standard with glyphs := [(['×'], symbol)] }

/-- A replacement of two operators passes the check and makes a text longer than what it keeps, and
an empty one passes and takes an operator out of it. -/
theorem check_of_two_operators_or_none :
    ((timesSettings ['+', '-']).check = .ok () ∧
      (sanitize (timesSettings ['+', '-']) "2×3".toList).length = 4 ∧
      "2×3".toList.countP (isKept (timesSettings ['+', '-']).glyphs) = 3) ∧
    (timesSettings []).check = .ok () ∧
      (sanitize (timesSettings []) "2×3".toList).length = 2 ∧
      "2×3".toList.countP (isKept (timesSettings []).glyphs) = 3 :=
  ⟨⟨rfl, by decide, by decide⟩, rfl, by decide, by decide⟩

end Calculator
