import Calculator.Proofs.Evaluation.Malformed
import Calculator.Proofs.Numeral.Transliteration

/-!
# Expressions in other scripts

An expression that transliterates another one has the same value, as long as no glyph of the table
holds a digit (`toOption_evaluate_of_transliterates`).  Each stage takes texts that transliterate
each other to such texts or to tokens that do (`Token.Transliterates`): sanitizing, cutting into
tokens, arranging.  On the stack there is no difference any more.  Failures are left out, as they
hold the number as it was written.
-/

namespace Calculator

/-! ### Sanitizing -/

/-- No glyph of the table holds a digit, of whatever script. -/
def DigitFree (table : List (Text × Text)) : Prop :=
  ∀ entry ∈ table, ∀ c ∈ entry.1, isDecimalDigit c = false

theorem digitFree_iff (table : List (Text × Text)) :
    DigitFree table ↔ (table.all fun entry => !entry.1.any isDecimalDigit) = true := by
  simp [DigitFree]

instance (table : List (Text × Text)) : Decidable (DigitFree table) :=
  decidable_of_iff _ (digitFree_iff table).symm

theorem digitFree_standard : DigitFree Settings.standard.glyphs := by decide

namespace Transliterates

variable {text text' : Text} (h : Transliterates text text')
include h

theorem isPrefixOf_eq {pattern : Text} (hpattern : ∀ c ∈ pattern, isDecimalDigit c = false) :
    pattern.isPrefixOf text = pattern.isPrefixOf text' := by
  induction h generalizing pattern with
  | nil => rfl
  | @cons c c' _ _ hc _ ih =>
    cases pattern with
    | nil => rfl
    | cons x pattern =>
      obtain ⟨hx, hrest⟩ := List.forall_mem_cons.mp hpattern
      have hfirst : (x == c) = (x == c') := by
        rw [Bool.eq_iff_iff, beq_iff_eq, beq_iff_eq, eq_comm, hc.eq_iff hx, eq_comm]
      rw [List.isPrefixOf_cons_cons, List.isPrefixOf_cons_cons, hfirst, ih hrest]

theorem replaceAll {pattern : Text} (hpattern : ∀ c ∈ pattern, isDecimalDigit c = false)
    (replacement : Text) :
    Transliterates (text.replaceAll pattern replacement)
      (text'.replaceAll pattern replacement) := by
  have hfrom (skip : Nat) : Transliterates (Text.replaceFrom pattern replacement skip text)
      (Text.replaceFrom pattern replacement skip text') := by
    induction h generalizing skip with
    | nil => cases skip <;> exact .nil
    | cons hc hrest ih =>
      cases skip with
      | succ skip => exact ih skip
      | zero =>
        have hoccurs := isPrefixOf_eq (.cons hc hrest) hpattern
        rw [Text.replaceFrom, Text.replaceFrom, hoccurs]
        split
        · exact List.rel_append (refl replacement) (ih _)
        · exact .cons hc (ih 0)
  unfold Text.replaceAll
  split
  · refine List.rel_append (refl replacement) (List.rel_flatMap h fun c c' hc => ?_)
    exact .cons hc (refl replacement)
  · exact hfrom 0

theorem squeeze : Transliterates text.squeeze text'.squeeze :=
  List.rel_filter (fun c c' hc => by simp [hc.isBlank_eq]) h

theorem sanitize {s : Settings} (hs : DigitFree s.glyphs) :
    Transliterates (sanitize s text) (sanitize s text') := by
  unfold Calculator.sanitize
  generalize s.glyphs = table at hs
  induction table generalizing text text' with
  | nil => exact h.squeeze
  | cons entry table ih =>
    obtain ⟨hentry, htable⟩ := List.forall_mem_cons.mp hs
    exact ih (h.replaceAll hentry entry.2) htable

theorem endsRun (hends : EndsRun text) : EndsRun text' := by
  cases h with
  | nil => exact hends
  | cons hc _ => exact endsRun_cons (hc.isNumberChar_eq ▸ hends _ rfl) _

end Transliterates

/-! ### Tokens -/

/-- The same token, or two numbers written in different scripts. -/
inductive Token.Transliterates : Token → Token → Prop where
  | literal {run run' : Text} (h : Calculator.Transliterates run run') :
      Transliterates (.ofLiteral run) (.ofLiteral run')
  | operator (op : Operator) : Transliterates (.operator op) (.operator op)
  | leftParen (p : Paren) : Transliterates (.leftParen p) (.leftParen p)
  | rightParen (p : Paren) : Transliterates (.rightParen p) (.rightParen p)

theorem forall₂_tokensFrom {text text' : Text} (h : Transliterates text text')
    (operandDue : Bool) :
    List.Forall₂ Token.Transliterates (tokensFrom operandDue text)
      (tokensFrom operandDue text') := by
  induction text using runInduction generalizing operandDue text' with
  | nil =>
    obtain rfl := List.forall₂_nil_left_iff.mp h
    exact .nil
  | run run rest hne hrun hends ih =>
    obtain ⟨run', rest', rfl, h, hrest⟩ := h.exists_append
    rw [tokensFrom_run hne hrun hends,
      tokensFrom_run (h.ne_nil hne) (h.forall_isNumberChar hrun) (hrest.endsRun hends)]
    exact .cons (.literal h) (ih hrest false)
  | other c rest hc ih =>
    obtain ⟨c', rest', hc', hrest, rfl⟩ := List.forall₂_cons_left_iff.mp h
    obtain rfl := hc'.eq_of_not_isDecimalDigit (Bool.or_eq_false_iff.mp hc).1
    cases ht : charToken? operandDue c' with
    | none =>
      rw [tokensFrom_skipped hc ht, tokensFrom_skipped hc ht]
      exact ih hrest operandDue
    | some t =>
      rw [tokensFrom_symbol hc ht, tokensFrom_symbol hc ht]
      refine .cons ?_ (ih hrest t.awaitsOperand)
      obtain ⟨kind, rfl⟩ | rfl | rfl := charToken?_eq_some ht
      · exact .operator _
      · exact .leftParen _
      · exact .rightParen _

section

variable {tokens tokens' : List Token} (h : List.Forall₂ Token.Transliterates tokens tokens')
include h

theorem forall₂_arrangeFrom (waiting : List Operator) (enclosing : List (List Operator)) :
    List.Forall₂ Token.Transliterates (arrangeFrom tokens waiting enclosing).tokens
      (arrangeFrom tokens' waiting enclosing).tokens := by
  have hreleased (ops : List Operator) :
      List.Forall₂ Token.Transliterates (released ops) (released ops) := by
    refine List.forall₂_same.mpr fun t ht => ?_
    obtain ⟨op, -, rfl⟩ := List.mem_map.mp ht
    exact .operator op
  induction h generalizing waiting enclosing with
  | nil => exact hreleased _
  | cons ht _ ih =>
    cases ht with
    | literal h => exact .cons (.literal h) (ih waiting enclosing)
    | operator op =>
      rw [arrangeFrom, arrangeFrom]
      split
      · exact ih _ enclosing
      · exact List.rel_append (hreleased _) (ih _ enclosing)
    | leftParen p => exact ih [] (waiting :: enclosing)
    | rightParen p =>
      cases enclosing with
      | nil => exact List.rel_append (hreleased waiting) (ih [] [])
      | cons outer enclosing => exact List.rel_append (hreleased waiting) (ih outer enclosing)

end

/-! ### Values -/

/-- The answer of computations in sequence, if there is one. -/
theorem Traced.toOption_bind {ω α β : Type} (x : Traced ω α) (f : α → Traced ω β) :
    (x >>= f).outcome.toOption = x.outcome.toOption.bind fun a => (f a).outcome.toOption := by
  rw [outcome_bind]
  cases x.outcome <;> rfl

namespace Evaluation

theorem toOption_step {t t' : Token} (h : t.Transliterates t') (husual : t.IsUsual)
    (missing : Binary64) (stack : Stack) :
    (step missing stack t).outcome.toOption = (step missing stack t').outcome.toOption := by
  cases h with
  | literal h =>
    cases husual with
    | literal hne hrun =>
      rw [step_ofLiteral hne hrun, step_ofLiteral (h.ne_nil hne) (h.forall_isNumberChar hrun),
        h.isMalformed_eq, h.literalValue_eq]
      split <;> rfl
  | operator | leftParen | rightParen => rfl

theorem toOption_run {tokens tokens' : List Token}
    (h : List.Forall₂ Token.Transliterates tokens tokens') (husual : ∀ t ∈ tokens, t.IsUsual)
    (missing : Binary64) (stack : Stack) :
    (run missing tokens stack).outcome.toOption = (run missing tokens' stack).outcome.toOption := by
  induction h generalizing stack with
  | nil => rfl
  | cons ht _ ih =>
    obtain ⟨hfirst, hrest⟩ := List.forall_mem_cons.mp husual
    rw [run, run, Traced.toOption_bind, Traced.toOption_bind, toOption_step ht hfirst]
    simp only [ih hrest]

/-- The tokens only stand in a note. -/
theorem outcome_answer_eq (emptyResult : Binary64) (tokens tokens' : List Token) (stack : Stack) :
    (answer emptyResult tokens stack).outcome = (answer emptyResult tokens' stack).outcome := by
  cases stack with
  | nil => rfl
  | cons x stack => rw [outcome_answer_cons, outcome_answer_cons]

end Evaluation

/-- **Digits of other scripts do not change a value.** -/
theorem toOption_evaluate_of_transliterates {s : Settings} (hs : DigitFree s.glyphs)
    {text text' : Text} (h : Transliterates text text') :
    (evaluate s text).outcome.toOption = (evaluate s text').outcome.toOption := by
  have husual : ∀ t ∈ (arrange (tokenize (sanitize s text))).tokens, t.IsUsual :=
    fun _ => isUsual_of_mem_arrange
  have harranged : List.Forall₂ Token.Transliterates
      (arrange (tokenize (sanitize s text))).tokens
      (arrange (tokenize (sanitize s text'))).tokens :=
    forall₂_arrangeFrom (forall₂_tokensFrom (h.sanitize hs) true) [] []
  rw [outcome_evaluate, outcome_evaluate, evaluatePostfix, evaluatePostfix, Traced.toOption_bind,
    Traced.toOption_bind, Evaluation.toOption_run harranged husual]
  congr 1
  funext stack
  rw [Evaluation.outcome_answer_eq]

end Calculator
