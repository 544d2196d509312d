import Calculator.Expression.Basic
import Calculator.Proofs.Arrangement.Emission
import Calculator.Proofs.Grammar.Derivation

/-!
# The value of a well-formed expression

A well-formed expression evaluates to what its derivation tree says (`evaluate_of_displays`), with
nothing made up on the way.

Arranging the tokens of a tree emits its postorder (`Derivation.emits_postorder`).  What matters is
which operators wait before it: those of its own group that bind less than its nonterminal, so that
none of its own operators releases any of them, or anything at all before an operand, which releases
nothing.  Running the postorder then puts one value on the stack, whatever is there already
(`Derivation.run_postorder`).
-/

namespace Calculator

/-! ### The notes of a lexer -/

theorem Lexeme.filterMap_note?_consNumberChar (index : Nat) (c : Char) (ls : List Lexeme) :
    (consNumberChar index c ls).filterMap note? = ls.filterMap note? := by
  match ls with
  | [] => rfl
  | .symbol .. :: _ | .skipped .. :: _ => rfl
  | .number next literal :: rest =>
    rw [consNumberChar]
    split <;> rfl

theorem exists_charToken? {c : Char} (hc : c ∈ symbols) (operandDue : Bool) :
    ∃ t, charToken? operandDue c = some t := by
  rw [charToken?]
  split
  · exact ⟨_, rfl⟩
  · rwa [← Option.isSome_iff_exists, Option.isSome_iff_ne_none, Ne, symbolToken?_eq_none_iff,
      not_not]

/-- A text of digits, points, operators and parentheses has nothing to skip. -/
theorem Lexeme.filterMap_note?_scan {s : Text}
    (h : ∀ c ∈ s, isNumberChar c = true ∨ c ∈ symbols) (operandDue : Bool) (index : Nat) :
    (scan operandDue index s).filterMap note? = [] := by
  induction s generalizing operandDue index with
  | nil => rfl
  | cons c rest ih =>
    obtain ⟨hc, hrest⟩ := List.forall_mem_cons.mp h
    rw [scan]
    split
    · rw [filterMap_note?_consNumberChar, ih hrest]
    · next hnumber =>
      obtain ⟨t, ht⟩ := exists_charToken? (hc.resolve_left hnumber) operandDue
      rw [ht]
      exact (List.filterMap_cons_none rfl).trans (ih hrest t.awaitsOperand (index + 1))

namespace Derivation

variable {n : Nonterminal}

theorem readTokens_spelling (d : Derivation n) : readTokens d.spelling = pure d.tokens := by
  have hnotes : (lexemes d.spelling).filterMap Lexeme.note? = [] :=
    Lexeme.filterMap_note?_scan d.mem_spelling true 0
  rw [readTokens, hnotes, tokenize_spelling]
  rfl

/-! ### Postfix order -/

/-- The tokens that may stand behind a nonterminal release every operator that binds at least as
tightly. -/
def Follows (n : Nonterminal) (rest : List Token) : Prop :=
  ∀ op : Operator, n.precedence ≤ op.precedence → Releases op rest

theorem Follows.next {rest : List Token} (h : Follows n rest) : Follows n.next rest := by
  intro op hop
  have hle : n.precedence ≤ op.precedence := Int.le_trans n.precedence_le_next hop
  exact h op hle

theorem follows_nil : Follows n [] := by
  intro op _
  exact .nil

theorem follows_closeParen (rest : List Token) : Follows n (.closeParen :: rest) := by
  intro op _
  exact .rightParen _ rest

/-- An operator may stand behind its own left operand. -/
theorem follows_binary (op : BinaryKind) (rest : List Token) :
    Follows op.target (.ofKind op.kind :: rest) := by
  intro other hother
  rw [← op.precedence_kind] at hother
  exact .operator op.isPrefixed_kind hother rest

/-- The latest waiting operator binds less than a nonterminal; for an operand it need not. -/
def Admits (n : Nonterminal) (waiting : List Operator) : Prop :=
  n ≠ .unary → ∀ first ∈ waiting.head?, first.precedence < n.precedence

theorem Admits.next {waiting : List Operator} (h : Admits n waiting) (hn : n ≠ .unary) :
    Admits n.next waiting := by
  intro hnext first hfirst
  have hfirst : first.precedence < n.precedence := h hn first hfirst
  have hlevel : n.precedence < n.next.precedence := Nonterminal.precedence_lt_next hnext
  omega

theorem admits_nil : Admits n [] := by
  intro _ first hfirst
  simp at hfirst

/-- An operator may wait before its right operand. -/
theorem admits_binary (op : BinaryKind) (waiting : List Operator) :
    Admits op.target.next (.standard op.kind :: waiting) := by
  intro hnext first hfirst
  obtain rfl := Option.some.inj hfirst
  rw [op.precedence_kind]
  exact Nonterminal.precedence_lt_next hnext

/-- Arranging the tokens of a tree emits its postorder, behind any waiting operators that bind less
and before anything that may follow. -/
theorem emits_postorder (d : Derivation n) {waiting : List Operator} (hw : Admits n waiting)
    {rest : List Token} (hrest : Follows n rest) :
    Emits waiting (d.tokens ++ rest) d.postorder rest := by
  induction d generalizing waiting rest with
  | tighter hn d ih => exact ih (hw.next hn) hrest.next
  | binary op left right ihl ihr =>
    -- the left operand is read at the level of `op` itself, the right one a level above
    have hne : op.target ≠ .unary := by cases op <;> decide
    have hleft : Emits waiting (left.tokens ++ .ofKind op.kind :: (right.tokens ++ rest))
        left.postorder (.ofKind op.kind :: (right.tokens ++ rest)) :=
      ihl hw (follows_binary op (right.tokens ++ rest))
    have hright : Emits (.standard op.kind :: waiting) (right.tokens ++ rest)
        right.postorder rest := ihr (admits_binary op waiting) hrest.next
    have hbinds : ∀ first ∈ waiting.head?,
        first.precedence < (Operator.standard op.kind).precedence := by
      intro first hfirst
      rw [op.precedence_kind]
      exact hw hne first hfirst
    have hgone : Releases (.standard op.kind) rest := hrest _ (Int.le_of_eq op.precedence_kind.symm)
    have hemits := hleft.trans (Emits.binary op.isPrefixed_kind hbinds hright hgone)
    rw [tokens, postorder, List.append_assoc, List.cons_append, List.append_assoc]
    exact hemits
  | prefixed op operand ih =>
    -- an operand admits whatever waits
    have hadmits : Admits .unary (.standard op.kind :: waiting) := fun h => absurd rfl h
    have hoperand : Emits (.standard op.kind :: waiting) (operand.tokens ++ rest)
        operand.postorder rest := ih hadmits hrest
    have hgone : Releases (.standard op.kind) rest := hrest _ (Int.le_of_eq op.precedence_kind.symm)
    exact Emits.prefixed op.isPrefixed_kind hoperand hgone
  | group inner ih =>
    -- within the group nothing waits, whatever waits around it
    have hinner : Emits [] (inner.tokens ++ .closeParen :: rest) inner.postorder
        (.closeParen :: rest) := ih admits_nil (follows_closeParen rest)
    have hemits : Emits waiting (.openParen :: (inner.tokens ++ .closeParen :: rest))
        inner.postorder rest := hinner.group waiting
    rw [tokens, postorder, List.cons_append, List.cons_append, List.append_assoc,
      List.singleton_append]
    exact hemits
  | literal l => exact Emits.number waiting _ rest

theorem arrange_tokens (d : Derivation n) : arrange d.tokens = ⟨d.postorder, []⟩ := by
  have h : Emits [] (d.tokens ++ []) d.postorder [] := d.emits_postorder admits_nil follows_nil
  rw [List.append_nil] at h
  exact h.arrange_eq

theorem arrangeNoted_tokens (d : Derivation n) : arrangeNoted d.tokens = pure d.postorder := by
  rw [arrangeNoted, arrange_tokens]
  rfl

/-! ### The stack -/

theorem outcome_binary (op : BinaryKind) (left : Derivation op.target)
    (right : Derivation op.target.next) :
    (binary op left right).outcome =
      left.outcome.bind fun x => right.outcome.bind fun y => .ok (op.apply x y) := by
  simp only [outcome, literals, value, List.find?_append]
  cases left.literals.find? isMalformed with
  | some run => rfl
  | none => cases right.literals.find? isMalformed <;> rfl

theorem outcome_prefixed (op : UnaryKind) (operand : Derivation .unary) :
    (prefixed op operand).outcome = operand.outcome.bind fun x => .ok (op.apply x) := by
  simp only [outcome, literals, value]
  cases operand.literals.find? isMalformed <;> rfl

/-- Running the postorder puts the value on the stack or ends with the leftmost malformed literal,
and records nothing. -/
theorem run_postorder (d : Derivation n) (missing : Binary64) (stack : Evaluation.Stack) :
    Evaluation.run missing d.postorder stack = .ofExcept (d.outcome.map (· :: stack)) := by
  induction d generalizing stack with
  | tighter h d ih => exact ih stack
  | binary op left right ihl ihr =>
    rw [postorder, Evaluation.run_append, Evaluation.run_append, ihl, outcome_binary]
    cases left.outcome with
    | error failure => rfl
    | ok x =>
      simp only [Except.map, Traced.ofExcept_ok, pure_bind, ihr]
      cases right.outcome with
      | error failure => rfl
      | ok y =>
        simp only [Traced.ofExcept_ok, pure_bind, Evaluation.run_singleton]
        exact Evaluation.step_binary op.binary?_kind missing x y stack
  | prefixed op operand ih =>
    rw [postorder, Evaluation.run_append, ih, outcome_prefixed]
    cases operand.outcome with
    | error failure => rfl
    | ok x =>
      simp only [Except.map, Traced.ofExcept_ok, pure_bind, Evaluation.run_singleton]
      exact Evaluation.step_unary op.unary?_kind missing x stack
  | group inner ih => exact ih stack
  | literal l =>
    rw [postorder, Evaluation.run_singleton,
      Evaluation.step_ofLiteral l.ne_nil l.isNumberChar_of_mem]
    cases h : isMalformed l.text <;> simp [outcome, literals, value, h, Except.map]

/-- One value is left on the stack, which is the answer. -/
theorem evaluatePostfix_postorder (s : Settings) (d : Derivation n) :
    evaluatePostfix s d.postorder = .ofExcept d.outcome := by
  rw [evaluatePostfix, run_postorder]
  cases d.outcome <;> rfl

end Derivation

/-! ### From a text to its value -/

/-- **A well-formed expression evaluates to what its derivation tree says**, however it is
displayed: to the value of the tree or, if a literal is malformed, to the failure of the leftmost
one.  Every minus sign is read as the tree says, the only note is that of the postfix order, so no
operand is ever made up, and exactly one value is on the stack in the end. -/
theorem evaluate_of_displays {s : Settings} (hs : s.glyphs = Settings.standard.glyphs)
    (d : Derivation .sum) {text : Text} (h : Displays text d.spelling) :
    tokenize (sanitize s text) = d.tokens ∧
    evaluate s text = ⟨[.arranged text d.postorder], d.outcome⟩ ∧
    Evaluation.run s.missingOperand (arrange (tokenize (sanitize s text))).tokens [] =
      ⟨[], d.outcome.map fun x => [x]⟩ := by
  have hsanitize : sanitize s text = d.spelling :=
    sanitize_of_displays hs h d.isPlain_of_mem_spelling
  have htokens : tokenize (sanitize s text) = d.tokens := by
    rw [hsanitize, d.tokenize_spelling]
  refine ⟨htokens, ?_, ?_⟩
  · simp only [evaluate, hsanitize, d.readTokens_spelling, d.arrangeNoted_tokens, pure_bind,
      d.evaluatePostfix_postorder]
    rfl
  · rw [htokens, d.arrange_tokens, d.run_postorder]
    rfl

/-- Minus twelve times the root of four minus three, with blanks within a literal as well. -/
theorem evaluate_displayed_product :
    evaluate .standard "− 1 2×√(4 −3)".toList =
      ⟨[.arranged "− 1 2×√(4 −3)".toList
        [.ofLiteral ['1', '2'], .ofKind .neg, .ofLiteral ['4'], .ofLiteral ['3'], .ofKind .sub,
          .ofKind .sqrt, .ofKind .mul]],
        .ok (.neg (literalValue ['1', '2']))⟩ := by
  let difference : Derivation .sum :=
    .binary .sub
      (.tighter (by decide) (.tighter (by decide) (.tighter (by decide)
        (.literal ⟨['4'], by simp, List.all_eq_true.mp rfl⟩))))
      (.tighter (by decide) (.tighter (by decide)
        (.literal ⟨['3'], by simp, List.all_eq_true.mp rfl⟩)))
  let product : Derivation .sum :=
    .tighter (by decide) (.binary .mul
      (.tighter (by decide) (.tighter (by decide)
        (.prefixed .neg (.literal ⟨['1', '2'], by simp, List.all_eq_true.mp rfl⟩))))
      (.tighter (by decide) (.prefixed .sqrt (.group difference))))
  have h : Displays "− 1 2×√(4 −3)".toList product.spelling :=
    .minusSign <| .blank rfl <| .char '1' <| .blank rfl <| .char '2' <| .timesSign <| .char '√' <|
      .char '(' <| .char '4' <| .blank rfl <| .minusSign <| .char '3' <| .char ')' .nil
  have hvalue : product.outcome = .ok (.neg (literalValue ['1', '2'])) := by
    decide +kernel
  rw [(evaluate_of_displays rfl product h).2.1, hvalue]
  rfl

end Calculator
