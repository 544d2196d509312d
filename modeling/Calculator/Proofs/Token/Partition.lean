import Calculator.Expression.Basic
import Calculator.Proofs.Token.Spelling

/-!
# How a text is cut up

Reading a text gives tokens and a note on each character that is skipped.  Together they leave out
no character and none of them occurs twice (`Lexeme.flatMap_indexed_scan`), and no lexeme mixes
characters that are skipped with others (`Lexeme.isProper_of_mem_scan`).  So the characters that are
skipped are those that belong to no number and are no symbol, and all others, each at its index, are
the spellings of the tokens (`Lexeme.filterMap_skipped_scan`, `Lexeme.flatMap_placed_scan`).  The
numbers are the maximal runs of digits and points (`Lexeme.number_mem_lexemes_iff`).  What a minus
sign stands for depends on the tokens before it, however many characters were skipped in between.

A text can be cut at any place that is not within a run, and both parts have the lexemes that they
have in the whole (`Lexeme.scan_append`).  So the lexeme of a character is found by cutting the text
in front of it.  All of this together is `cutsUp_readTokens`.
-/

namespace Calculator

/-- A character that is skipped: it is no digit of any script, no point and no symbol. -/
def isSkipped (c : Char) : Bool := !(isDecimalDigit c || c == '.' || symbols.contains c)

theorem isSkipped_of_isNumberChar {c : Char} (hc : isNumberChar c = true) :
    isSkipped c = false := by
  have hc : (isDecimalDigit c || c == '.') = true := hc
  rw [isSkipped, hc, Bool.true_or, Bool.not_true]

theorem isSkipped_iff_symbolToken? {c : Char} (hc : isNumberChar c = false) :
    isSkipped c = true ↔ symbolToken? c = none := by
  have hc : (isDecimalDigit c || c == '.') = false := hc
  rw [isSkipped, hc, Bool.false_or, Bool.not_eq_true', symbolToken?_eq_none_iff]
  simp

/-- Only what a minus sign stands for depends on the tokens before it. -/
theorem charToken?_eq_none_iff (operandDue : Bool) (c : Char) :
    charToken? operandDue c = none ↔ symbolToken? c = none := by
  unfold charToken?
  split_ifs with hminus
  · rw [hminus.1]
    simp [symbolToken?]
  · rfl

theorem isSkipped_iff {c : Char} (hc : isNumberChar c = false) (operandDue : Bool) :
    isSkipped c = true ↔ charToken? operandDue c = none := by
  rw [isSkipped_iff_symbolToken? hc, charToken?_eq_none_iff]

theorem isSkipped_of_charToken? {operandDue : Bool} {c : Char} {t : Token}
    (hc : isNumberChar c = false) (ht : charToken? operandDue c = some t) :
    isSkipped c = false := by
  rw [← Bool.not_eq_true, isSkipped_iff hc operandDue, ht]
  exact Option.some_ne_none t

namespace Lexeme

/-- The token of a lexeme that is one, with the index where it starts. -/
def placed? : Lexeme → Option (Token × ℕ)
  | number index literal => some (.ofLiteral literal, index)
  | symbol index t => some (t, index)
  | skipped _ _ => none

/-- The character of a lexeme that is skipped, with its index. -/
def skipped? : Lexeme → Option (Char × ℕ)
  | number _ _ | symbol _ _ => none
  | skipped index c => some (c, index)

/-- The characters of a lexeme, each with its index. -/
def indexed : Lexeme → List (Char × ℕ)
  | number index literal => literal.zipIdx index
  | symbol index t => t.spelling.zipIdx index
  | skipped index c => [(c, index)]

theorem token?_eq (l : Lexeme) : l.token? = l.placed?.map Prod.fst := by
  cases l <;> rfl

theorem note?_eq (l : Lexeme) :
    l.note? = l.skipped?.map fun entry => .skippedCharacter entry.1 entry.2 := by
  cases l <;> rfl

variable {operandDue : Bool} {c : Char}

theorem scan_symbol (hc : isNumberChar c = false) {t : Token}
    (ht : charToken? operandDue c = some t) (index : Nat) (rest : Text) :
    scan operandDue index (c :: rest) =
      .symbol index t :: scan t.awaitsOperand (index + 1) rest := by
  simp [scan, hc, ht]

theorem scan_skipped (hc : isNumberChar c = false) (ht : charToken? operandDue c = none)
    (index : Nat) (rest : Text) :
    scan operandDue index (c :: rest) =
      .skipped index c :: scan operandDue (index + 1) rest := by
  simp [scan, hc, ht]

end Lexeme

/-- A character that stands for a token is the spelling of that token. -/
theorem spelling_of_charToken? {operandDue : Bool} {c : Char} {t : Token}
    (h : charToken? operandDue c = some t) : t.spelling = [c] := by
  unfold charToken? at h
  split_ifs at h with hminus
  · obtain rfl := Option.some.inj h
    rw [hminus.1]
    rfl
  · unfold symbolToken? at h
    split at h <;> cases h <;> rfl

theorem forall_mem_getLast?_of_append {α : Type} {p : α → Prop} (front : List α) {rest : List α}
    (h : ∀ c ∈ (front ++ rest).getLast?, p c) : ∀ c ∈ rest.getLast?, p c := by
  intro c hc
  apply h
  rw [List.getLast?_append, Option.mem_def.mp hc]
  rfl

namespace Lexeme

/-- What the lexemes of a text are made of. -/
inductive IsProper : Lexeme → Prop
  | number {literal : Text} (h : ∀ c ∈ literal, isNumberChar c = true) (index : ℕ) :
      IsProper (.number index literal)
  | symbol {operandDue : Bool} {c : Char} {t : Token} (hc : isNumberChar c = false)
      (ht : charToken? operandDue c = some t) (index : ℕ) : IsProper (.symbol index t)
  | skipped {c : Char} (h : isSkipped c = true) (index : ℕ) : IsProper (.skipped index c)

theorem isProper_of_mem_scan {operandDue : Bool} {index : ℕ} {s : Text} {l : Lexeme}
    (h : l ∈ scan operandDue index s) : l.IsProper := by
  induction s using runInduction generalizing operandDue index with
  | nil => cases h
  | run run rest hne hrun hrest ih =>
    rw [scan_run hne hrun hrest] at h
    rcases List.mem_cons.mp h with rfl | h
    · exact .number hrun index
    · exact ih h
  | other c rest hc ih =>
    cases ht : charToken? operandDue c with
    | none =>
      rw [scan_skipped hc ht] at h
      rcases List.mem_cons.mp h with rfl | h
      · exact .skipped ((isSkipped_iff hc operandDue).mpr ht) index
      · exact ih h
    | some t =>
      rw [scan_symbol hc ht] at h
      rcases List.mem_cons.mp h with rfl | h
      · exact .symbol hc ht index
      · exact ih h

theorem IsProper.filter_isSkipped {l : Lexeme} (h : l.IsProper) :
    l.indexed.filter (fun entry => isSkipped entry.1) = l.skipped?.toList := by
  cases h with
  | @number literal h index =>
    refine List.filter_eq_nil_iff.mpr fun entry hentry => ?_
    rw [isSkipped_of_isNumberChar (h _ (List.fst_mem_of_mem_zipIdx hentry))]
    exact Bool.false_ne_true
  | symbol hc ht index =>
    rw [indexed, spelling_of_charToken? ht]
    exact List.filter_cons_of_neg (by simp [isSkipped_of_charToken? hc ht])
  | skipped h index => exact List.filter_cons_of_pos h

theorem IsProper.filter_not_isSkipped {l : Lexeme} (h : l.IsProper) :
    l.indexed.filter (fun entry => !isSkipped entry.1) =
      l.placed?.toList.flatMap fun entry => entry.1.spelling.zipIdx entry.2 := by
  cases h with
  | @number literal h index =>
    show _ = literal.zipIdx index ++ []
    rw [List.append_nil]
    refine List.filter_eq_self.mpr fun entry hentry => ?_
    rw [isSkipped_of_isNumberChar (h _ (List.fst_mem_of_mem_zipIdx hentry)), Bool.not_false]
  | @symbol operandDue c t hc ht index =>
    show _ = t.spelling.zipIdx index ++ []
    rw [indexed, spelling_of_charToken? ht]
    exact List.filter_cons_of_pos (by simp [isSkipped_of_charToken? hc ht])
  | skipped h index => exact List.filter_cons_of_neg (by simp [h])

/-- Every character of a text belongs to one lexeme, and they come in order. -/
theorem flatMap_indexed_scan (operandDue : Bool) (index : ℕ) (s : Text) :
    (scan operandDue index s).flatMap indexed = s.zipIdx index := by
  induction s using runInduction generalizing operandDue index with
  | nil => rfl
  | run run rest hne hrun hrest ih =>
    rw [scan_run hne hrun hrest, List.flatMap_cons, ih, List.zipIdx_append]
    rfl
  | other c rest hc ih =>
    cases ht : charToken? operandDue c with
    | none =>
      rw [scan_skipped hc ht, List.flatMap_cons, ih]
      rfl
    | some t =>
      rw [scan_symbol hc ht, List.flatMap_cons, ih, indexed, spelling_of_charToken? ht]
      rfl

/-- The tokens of a text are spelled by the characters that are not skipped, each at its index. -/
theorem flatMap_placed_scan (operandDue : Bool) (index : ℕ) (s : Text) :
    ((scan operandDue index s).filterMap placed?).flatMap
        (fun entry => entry.1.spelling.zipIdx entry.2) =
      (s.zipIdx index).filter fun entry => !isSkipped entry.1 := by
  rw [← flatMap_indexed_scan operandDue, List.filter_flatMap, List.filterMap_eq_flatMap_toList,
    List.flatMap_assoc]
  exact List.flatMap_congr fun l hl => (isProper_of_mem_scan hl).filter_not_isSkipped.symm

/-- What is skipped is skipped in order, each character at its index. -/
theorem filterMap_skipped_scan (operandDue : Bool) (index : ℕ) (s : Text) :
    (scan operandDue index s).filterMap skipped? =
      (s.zipIdx index).filter fun entry => isSkipped entry.1 := by
  rw [← flatMap_indexed_scan operandDue, List.filter_flatMap, List.filterMap_eq_flatMap_toList]
  exact List.flatMap_congr fun l hl => (isProper_of_mem_scan hl).filter_isSkipped.symm

/-- The lexemes of two texts, one behind the other, are those of both, unless the first ends with a
run that the second goes on with. -/
theorem scan_append (s : Text) {behind : Text} (operandDue : Bool) (index : Nat)
    (h : EndsRun behind ∨ ∀ c ∈ s.getLast?, isNumberChar c = false) :
    scan operandDue index (s ++ behind) = scan operandDue index s ++
      scan (dueBehind operandDue (tokensFrom operandDue s)) (index + s.length) behind := by
  induction s using runInduction generalizing operandDue index with
  | nil => rfl
  | run run rest hne hrun hrest ih =>
    have hends : EndsRun (rest ++ behind) := by
      cases rest with
      | nil =>
        refine h.resolve_right fun hlast => ?_
        have hmem : run.getLast hne ∈ (run ++ []).getLast? := by
          rw [List.append_nil]
          exact List.getLast?_eq_some_getLast hne
        simpa [hrun _ (List.getLast_mem hne)] using hlast _ hmem
      | cons c rest => exact endsRun_cons (hrest c rfl) _
    have h := h.imp_right (forall_mem_getLast?_of_append run)
    rw [List.append_assoc, scan_run hne hrun hends, ih false _ h, scan_run hne hrun hrest,
      tokensFrom_run hne hrun hrest, dueBehind_cons, List.length_append, ← Nat.add_assoc]
    rfl
  | other c rest hc ih =>
    have h := h.imp_right (forall_mem_getLast?_of_append [c])
    rw [List.cons_append, List.length_cons, Nat.add_comm rest.length 1, ← Nat.add_assoc]
    cases ht : charToken? operandDue c with
    | none =>
      rw [scan_skipped hc ht, scan_skipped hc ht, tokensFrom_skipped hc ht, ih operandDue _ h]
      rfl
    | some t =>
      rw [scan_symbol hc ht, scan_symbol hc ht, tokensFrom_symbol hc ht, dueBehind_cons,
        ih t.awaitsOperand _ h]
      rfl

/-- A character that is no digit and no point is a lexeme of its own. -/
theorem lexemes_append_cons {c : Char} (hc : isNumberChar c = false) (before behind : Text) :
    lexemes (before ++ c :: behind) = lexemes before ++
      scan (dueBehind true (tokenize before)) before.length (c :: behind) := by
  have h := scan_append before true 0 (.inl (endsRun_cons hc behind))
  rwa [Nat.zero_add] at h

end Lexeme

/-! ### Numbers -/

/-- A run of digits and points stands at an index of a text, and no other digit or point stands next
to it. -/
def IsMaximalRun (s : Text) (index : Nat) (run : Text) : Prop :=
  run ≠ [] ∧ (∀ c ∈ run, isNumberChar c = true) ∧
    ∃ before behind, s = before ++ (run ++ behind) ∧ before.length = index ∧
      (∀ c ∈ before.getLast?, isNumberChar c = false) ∧ EndsRun behind

/-- A maximal run stays one behind a text that no run connects it with. -/
theorem IsMaximalRun.append_left {rest run : Text} {index : Nat} (h : IsMaximalRun rest index run)
    (front : Text) (hfront : EndsRun rest ∨ ∀ c ∈ front.getLast?, isNumberChar c = false) :
    IsMaximalRun (front ++ rest) (front.length + index) run := by
  obtain ⟨hne, hrun, before, behind, rfl, rfl, hbefore, hbehind⟩ := h
  refine ⟨hne, hrun, front ++ before, behind, (List.append_assoc ..).symm, List.length_append, ?_,
    hbehind⟩
  cases before with
  | nil =>
    rw [List.append_nil]
    refine hfront.resolve_left fun hends => ?_
    obtain ⟨c, others, rfl⟩ := List.exists_cons_of_ne_nil hne
    have hc : isNumberChar c = false := hends c rfl
    simp [hrun c List.mem_cons_self] at hc
  | cons b before => rwa [List.getLast?_append_cons]

namespace Lexeme

variable {operandDue : Bool}

theorem exists_isMaximalRun_of_mem_scan {s : Text} {start index : Nat} {run : Text}
    (h : .number index run ∈ scan operandDue start s) :
    ∃ distance, index = start + distance ∧ IsMaximalRun s distance run := by
  induction s using runInduction generalizing operandDue start with
  | nil => cases h
  | run first rest hne hfirst hrest ih =>
    rw [scan_run hne hfirst hrest] at h
    rcases List.mem_cons.mp h with heq | h
    · obtain ⟨rfl, rfl⟩ := Lexeme.number.inj heq
      exact ⟨0, rfl, hne, hfirst, [], rest, rfl, rfl, by simp, hrest⟩
    · obtain ⟨distance, rfl, hmaximal⟩ := ih h
      exact ⟨first.length + distance, Nat.add_assoc .., hmaximal.append_left first (.inl hrest)⟩
  | other c rest hc ih =>
    have hlast : ∀ x ∈ [c].getLast?, isNumberChar x = false := by
      rintro x hx
      obtain rfl := Option.some.inj hx
      exact hc
    have hrest {due : Bool} (h : .number index run ∈ scan due (start + 1) rest) :
        ∃ distance, index = start + distance ∧ IsMaximalRun (c :: rest) distance run := by
      obtain ⟨distance, rfl, hmaximal⟩ := ih h
      exact ⟨1 + distance, Nat.add_assoc .., hmaximal.append_left [c] (.inr hlast)⟩
    cases ht : charToken? operandDue c with
    | none =>
      rw [scan_skipped hc ht] at h
      exact hrest ((List.mem_cons.mp h).resolve_left (by simp))
    | some t =>
      rw [scan_symbol hc ht] at h
      exact hrest ((List.mem_cons.mp h).resolve_left (by simp))

/-- No symbol stands for a number. -/
theorem IsProper.role_ne_number {index : ℕ} {t : Token} (h : IsProper (.symbol index t)) :
    t.role ≠ .number := by
  cases h with
  | symbol hc ht _ =>
    obtain ⟨kind, rfl⟩ | rfl | rfl := charToken?_eq_some ht <;> exact Role.noConfusion

/-- The numbers of a text are its maximal runs of digits and points. -/
theorem number_mem_lexemes_iff (s : Text) (index : Nat) (run : Text) :
    .number index run ∈ lexemes s ↔ IsMaximalRun s index run := by
  constructor
  · intro h
    obtain ⟨distance, rfl, hmaximal⟩ := exists_isMaximalRun_of_mem_scan h
    rwa [Nat.zero_add]
  · rintro ⟨hne, hrun, before, behind, rfl, rfl, hbefore, hbehind⟩
    unfold lexemes
    rw [scan_append before true 0 (.inr hbefore), Nat.zero_add, scan_run hne hrun hbehind]
    exact List.mem_append_right _ List.mem_cons_self

end Lexeme

/-! ### Minus signs -/

theorem exists_append_of_getElem? {α : Type} {s : List α} {index : Nat} {c : α}
    (h : s[index]? = some c) :
    ∃ before behind, s = before ++ c :: behind ∧ before.length = index := by
  obtain ⟨hindex, rfl⟩ := List.getElem?_eq_some_iff.mp h
  refine ⟨s.take index, s.drop (index + 1), ?_, List.length_take_of_le hindex.le⟩
  rw [← List.drop_eq_getElem_cons hindex, List.take_append_drop]

/-- A minus sign is a token behind those of what stands before it. -/
theorem Lexeme.exists_lexemes_eq {s : Text} {index : Nat} (hindex : s[index]? = some '-') :
    ∃ before t behind, charToken? (dueBehind true (tokenize before)) '-' = some t ∧
      lexemes s = lexemes before ++ .symbol index t :: behind := by
  obtain ⟨before, behind, rfl, rfl⟩ := exists_append_of_getElem? hindex
  have hc : isNumberChar '-' = false := by decide
  obtain ⟨t, ht⟩ : ∃ t, charToken? (dueBehind true (tokenize before)) '-' = some t := by
    unfold charToken?
    split_ifs
    · exact ⟨_, rfl⟩
    · exact ⟨_, rfl⟩
  rw [lexemes_append_cons hc, scan_symbol hc ht]
  exact ⟨before, t, _, ht, rfl⟩

/-! ### The whole text -/

/-- Tokens and characters that are skipped, each with the index where it starts, make up a text. -/
structure CutsUp (s : Text) (placed : List (Token × ℕ)) (skipped : List (Char × ℕ)) : Prop where
  /-- The characters that are skipped are those that belong to no number and are no symbol. -/
  skipped_eq : skipped = s.zipIdx.filter fun entry => isSkipped entry.1
  /-- All other characters, each at its index, are those with which the tokens are spelled, so that
  every index is either skipped or within one token. -/
  flatMap_spelling : placed.flatMap (fun entry => entry.1.spelling.zipIdx entry.2) =
    s.zipIdx.filter fun entry => !isSkipped entry.1
  /-- Operators and parentheses are the usual ones. -/
  isUsual : ∀ entry ∈ placed, entry.1.IsUsual
  /-- The numbers are the maximal runs of digits and points. -/
  number_mem_iff : ∀ n index, (.number n, index) ∈ placed ↔
    ∃ run, n = ⟨some run, none⟩ ∧ IsMaximalRun s index run
  /-- A minus sign negates where an operand is due and subtracts elsewhere. -/
  exists_minus : ∀ index, s[index]? = some '-' →
    ∃ before t behind, placed = before ++ (t, index) :: behind ∧
      (t = .ofKind .neg ↔ IsOperandDue (before.map Prod.fst)) ∧
      (t = .ofKind .sub ↔ ¬IsOperandDue (before.map Prod.fst))

/-- The tokens of a text, each with the index where it starts. -/
def placedTokens (s : Text) : List (Token × ℕ) := (lexemes s).filterMap Lexeme.placed?

theorem map_fst_placedTokens (s : Text) : (placedTokens s).map Prod.fst = tokenize s := by
  rw [placedTokens, List.map_filterMap, tokenize]
  exact congrArg (fun f => (lexemes s).filterMap f) (funext fun l => (Lexeme.token?_eq l).symm)

theorem number_mem_placedTokens_iff (s : Text) (n : Number) (index : ℕ) :
    (.number n, index) ∈ placedTokens s ↔
      ∃ run, n = ⟨some run, none⟩ ∧ IsMaximalRun s index run := by
  rw [placedTokens, List.mem_filterMap]
  constructor
  · rintro ⟨l, hl, hplaced⟩
    cases l with
    | number index' run =>
      obtain ⟨hn, rfl⟩ := Prod.mk.inj (Option.some.inj hplaced)
      exact ⟨run, (Token.number.inj hn).symm, (Lexeme.number_mem_lexemes_iff s _ run).mp hl⟩
    | symbol index' t =>
      obtain ⟨rfl, rfl⟩ := Prod.mk.inj (Option.some.inj hplaced)
      exact absurd rfl (Lexeme.isProper_of_mem_scan hl).role_ne_number
    | skipped index' c => cases hplaced
  · rintro ⟨run, rfl, hrun⟩
    exact ⟨.number index run, (Lexeme.number_mem_lexemes_iff s index run).mpr hrun, rfl⟩

/-- What a minus sign stands for is told by what is due there. -/
theorem charToken?_minus {operandDue : Bool} {t : Token} (h : charToken? operandDue '-' = some t) :
    (t = .ofKind .neg ↔ operandDue = true) ∧ (t = .ofKind .sub ↔ operandDue = false) := by
  cases operandDue <;> obtain rfl := Option.some.inj h <;> decide

theorem exists_placedTokens_eq {s : Text} {index : ℕ} (h : s[index]? = some '-') :
    ∃ before t behind, placedTokens s = before ++ (t, index) :: behind ∧
      (t = .ofKind .neg ↔ IsOperandDue (before.map Prod.fst)) ∧
      (t = .ofKind .sub ↔ ¬IsOperandDue (before.map Prod.fst)) := by
  obtain ⟨before, t, behind, ht, hlexemes⟩ := Lexeme.exists_lexemes_eq h
  refine ⟨placedTokens before, t, behind.filterMap Lexeme.placed?, ?_, ?_⟩
  · rw [placedTokens, hlexemes, List.filterMap_append]
    rfl
  · rw [map_fst_placedTokens, isOperandDue_iff, Bool.not_eq_true]
    exact charToken?_minus ht

theorem cutsUp_placedTokens (s : Text) :
    CutsUp s (placedTokens s) ((lexemes s).filterMap Lexeme.skipped?) where
  skipped_eq := Lexeme.filterMap_skipped_scan true 0 s
  flatMap_spelling := Lexeme.flatMap_placed_scan true 0 s
  isUsual := by
    intro entry hentry
    have hmem : entry.1 ∈ tokenize s := map_fst_placedTokens s ▸ List.mem_map_of_mem hentry
    exact isUsual_of_mem_tokenize hmem
  number_mem_iff := number_mem_placedTokens_iff s
  exists_minus _ := exists_placedTokens_eq

theorem readTokens_eq (s : Text) :
    readTokens s = ⟨((lexemes s).filterMap Lexeme.skipped?).map fun entry =>
      .skippedCharacter entry.1 entry.2, .ok (tokenize s)⟩ := by
  have hnotes : (lexemes s).filterMap Lexeme.note? =
      ((lexemes s).filterMap Lexeme.skipped?).map fun entry =>
        .skippedCharacter entry.1 entry.2 := by
    rw [List.map_filterMap]
    exact congrArg (fun f => (lexemes s).filterMap f) (funext Lexeme.note?_eq)
  unfold readTokens
  rw [Traced.bind_of_ok rfl, Traced.trace_pure, List.append_nil, ← hnotes]
  rfl

/-- **Reading a text cuts it up** into the tokens that it gives, spelled as they stand, and the
characters that it notes as skipped, each with its index. -/
theorem cutsUp_readTokens (s : Text) :
    ∃ placed skipped, CutsUp s placed skipped ∧ tokenize s = placed.map Prod.fst ∧
      readTokens s = ⟨skipped.map fun entry => .skippedCharacter entry.1 entry.2,
        .ok (placed.map Prod.fst)⟩ ∧
      (readTokens s).trace.map Note.message = skipped.map fun entry =>
        "Skipping unrecognized character ".toList ++ Text.quoted [entry.1] ++ " at ".toList ++
          Text.ofNat entry.2 := by
  refine ⟨placedTokens s, _, cutsUp_placedTokens s, (map_fst_placedTokens s).symm, ?_, ?_⟩
  · rw [map_fst_placedTokens, readTokens_eq]
  · rw [readTokens_eq, List.map_map]
    rfl

/-- The characters that are skipped do not join two runs, and a minus sign behind one of them still
subtracts behind a number and negates behind an operator. -/
theorem cutsUp_readTokens_three_skipped :
    readTokens "-2$-٣.a5√?-1".toList =
      ⟨[.skippedCharacter '$' 2, .skippedCharacter 'a' 6, .skippedCharacter '?' 9],
        .ok [.ofKind .neg, .ofLiteral ['2'], .ofKind .sub, .ofLiteral "٣.".toList, .ofLiteral ['5'],
          .ofKind .sqrt, .ofKind .neg, .ofLiteral ['1']]⟩ ∧
      (readTokens "-2$-٣.a5√?-1".toList).trace.map Note.message =
        ["Skipping unrecognized character '$' at 2".toList,
          "Skipping unrecognized character 'a' at 6".toList,
          "Skipping unrecognized character '?' at 9".toList] := by
  obtain ⟨placed, skipped, hcuts, htokens, hread, hmessages⟩ :=
    cutsUp_readTokens "-2$-٣.a5√?-1".toList
  have hskipped : skipped = [('$', 2), ('a', 6), ('?', 9)] := by
    rw [hcuts.skipped_eq]
    decide
  have hplaced : placed.map Prod.fst = [.ofKind .neg, .ofLiteral ['2'], .ofKind .sub,
      .ofLiteral "٣.".toList, .ofLiteral ['5'], .ofKind .sqrt, .ofKind .neg, .ofLiteral ['1']] := by
    rw [← htokens]
    decide
  constructor
  · rw [hread, hskipped, hplaced]
    rfl
  · rw [hmessages, hskipped]
    decide +kernel

end Calculator
