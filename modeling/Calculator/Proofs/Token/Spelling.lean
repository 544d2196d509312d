import Calculator.Proofs.Evaluation.Malformed
import Mathlib.Data.List.Chain

/-!
# The spelling of tokens

A token is spelled by the text of a number or by the one character of an operator or a parenthesis.
Spellings put together are cut into the same tokens again (`tokenize_flatMap_spelling`), but for two
things that a spelling does not tell: where one number ends and another one starts, and whether a
minus sign negates or subtracts.  Numbers must therefore have something between them, and every
minus sign must be what the tokens before it demand (`FitsMinus`), as it always is among the tokens
of a text.
-/

namespace Calculator

/-- The character of an operator; negation and subtraction share theirs. -/
def OperatorKind.character : OperatorKind → Char
  | .add => '+'
  | .sub | .neg => '-'
  | .mul => '*'
  | .div => '/'
  | .pow => '^'
  | .percent => '%'
  | .sqrt => '√'

/-- How a token is written in an expression. -/
def Token.spelling : Token → Text
  | .number n => n.literal.getD []
  | .operator op => (op.kind.map OperatorKind.character).toList
  | .leftParen _ => ['(']
  | .rightParen _ => [')']

/-! ### What a minus sign stands for -/

/-- An operand is due behind some tokens: there are none, or the last one is an operator or starts a
group. -/
def IsOperandDue (tokens : List Token) : Prop :=
  ∀ t ∈ tokens.getLast?, t.role = .leftParen ∨ t.role = .operator

/-- An operand ends some tokens: the last one is a number or ends a group. -/
def EndsOperand (tokens : List Token) : Prop :=
  ∃ t ∈ tokens.getLast?, t.role = .number ∨ t.role = .rightParen

/-- Among some tokens every negation stands where an operand is due and every subtraction behind an
operand. -/
structure FitsMinus (tokens : List Token) : Prop where
  /-- What stands before a negation. -/
  isOperandDue_of_neg : ∀ before behind, tokens = before ++ .ofKind .neg :: behind →
    IsOperandDue before
  /-- What stands before a subtraction. -/
  endsOperand_of_sub : ∀ before behind, tokens = before ++ .ofKind .sub :: behind →
    EndsOperand before

theorem isOperandDue_iff (tokens : List Token) :
    IsOperandDue tokens ↔ dueBehind true tokens = true := by
  unfold IsOperandDue dueBehind
  cases tokens.getLast? with
  | none => simp
  | some t => cases t <;> simp [Token.role, Token.awaitsOperand]

theorem endsOperand_iff (tokens : List Token) :
    EndsOperand tokens ↔ dueBehind true tokens = false := by
  unfold EndsOperand dueBehind
  cases tokens.getLast? with
  | none => simp
  | some t => cases t <;> simp [Token.role, Token.awaitsOperand]

/-- A token stands where it may: a negation where an operand is due, a subtraction elsewhere. -/
def Token.Suits (operandDue : Bool) (t : Token) : Prop :=
  (t = .ofKind .neg → operandDue = true) ∧ (t = .ofKind .sub → operandDue = false)

/-- Each of some tokens stands where it may, the first of them where `operandDue` says. -/
def AllSuit : (operandDue : Bool) → List Token → Prop
  | _, [] => True
  | operandDue, t :: rest => t.Suits operandDue ∧ AllSuit t.awaitsOperand rest

instance (operandDue : Bool) (t : Token) : Decidable (t.Suits operandDue) :=
  inferInstanceAs (Decidable (_ ∧ _))

instance decidableAllSuit : (operandDue : Bool) → (tokens : List Token) →
    Decidable (AllSuit operandDue tokens)
  | _, [] => .isTrue trivial
  | operandDue, t :: rest =>
    have := decidableAllSuit t.awaitsOperand rest
    inferInstanceAs (Decidable (t.Suits operandDue ∧ AllSuit t.awaitsOperand rest))

theorem allSuit_iff (operandDue : Bool) (tokens : List Token) :
    AllSuit operandDue tokens ↔
      ∀ before t behind, tokens = before ++ t :: behind →
        t.Suits (dueBehind operandDue before) := by
  induction tokens generalizing operandDue with
  | nil => simp [AllSuit]
  | cons first rest ih =>
    rw [AllSuit, ih]
    constructor
    · rintro ⟨hfirst, hrest⟩ before t behind h
      cases before with
      | nil =>
        obtain ⟨rfl, -⟩ := List.cons.inj h
        exact hfirst
      | cons other before =>
        obtain ⟨rfl, htail⟩ := List.cons.inj h
        rw [dueBehind_cons]
        exact hrest before t behind htail
    · intro h
      refine ⟨h [] first rest rfl, ?_⟩
      rintro before t behind rfl
      rw [← dueBehind_cons operandDue]
      exact h (first :: before) t behind rfl

theorem fitsMinus_iff (tokens : List Token) : FitsMinus tokens ↔ AllSuit true tokens := by
  rw [allSuit_iff]
  constructor
  · rintro ⟨hneg, hsub⟩ before t behind rfl
    constructor
    · rintro rfl
      exact (isOperandDue_iff before).mp (hneg before behind rfl)
    · rintro rfl
      exact (endsOperand_iff before).mp (hsub before behind rfl)
  · intro h
    constructor
    · intro before behind heq
      exact (isOperandDue_iff before).mpr ((h before _ behind heq).1 rfl)
    · intro before behind heq
      exact (endsOperand_iff before).mpr ((h before _ behind heq).2 rfl)

instance (tokens : List Token) : Decidable (FitsMinus tokens) :=
  decidable_of_iff _ (fitsMinus_iff tokens).symm

/-! ### The tokens of a text -/

/-- No character stands for a negation unless an operand is due. -/
theorem symbolToken?_ne_neg (c : Char) : symbolToken? c ≠ some (.ofKind .neg) := by
  unfold symbolToken?
  split <;> decide

/-- Only the minus sign stands for a subtraction. -/
theorem eq_minus_of_symbolToken? {c : Char} (h : symbolToken? c = some (.ofKind .sub)) :
    c = '-' := by
  unfold symbolToken? at h
  split at h <;> first | rfl | exact absurd h (by decide)

/-- What a character stands for suits the place where it stands. -/
theorem suits_of_charToken? {operandDue : Bool} {c : Char} {t : Token}
    (h : charToken? operandDue c = some t) : t.Suits operandDue := by
  unfold charToken? at h
  split_ifs at h with hminus
  · obtain rfl := Option.some.inj h
    exact ⟨fun _ => hminus.2, fun hsub => absurd hsub (by decide)⟩
  · constructor
    · rintro rfl
      exact absurd h (symbolToken?_ne_neg c)
    · rintro rfl
      obtain rfl := eq_minus_of_symbolToken? h
      simpa using hminus

/-- A number suits any place. -/
theorem suits_ofLiteral (operandDue : Bool) (literal : Text) :
    (Token.ofLiteral literal).Suits operandDue := by
  constructor <;> intro h <;> cases h

theorem allSuit_tokensFrom (operandDue : Bool) (s : Text) :
    AllSuit operandDue (tokensFrom operandDue s) := by
  induction s using runInduction generalizing operandDue with
  | nil => trivial
  | run run rest hne hrun hrest ih =>
    rw [tokensFrom_run hne hrun hrest]
    exact ⟨suits_ofLiteral operandDue run, ih false⟩
  | other c rest hc ih =>
    cases ht : charToken? operandDue c with
    | none =>
      rw [tokensFrom_skipped hc ht]
      exact ih operandDue
    | some t =>
      rw [tokensFrom_symbol hc ht]
      exact ⟨suits_of_charToken? ht, ih t.awaitsOperand⟩

/-! ### Spellings -/

/-- A usual token that is no number is spelled by one character, which stands for that token
wherever it suits. -/
theorem exists_spelling {t : Token} (h : t.IsUsual) (hnumber : t.role ≠ .number) :
    ∃ c, t.spelling = [c] ∧ isNumberChar c = false ∧
      ∀ operandDue, t.Suits operandDue → charToken? operandDue c = some t := by
  cases h with
  | literal => exact absurd rfl hnumber
  | openParen => exact ⟨'(', rfl, by decide, fun _ _ => rfl⟩
  | closeParen => exact ⟨')', rfl, by decide, fun _ _ => rfl⟩
  | kind kind =>
    refine ⟨kind.character, by cases kind <;> rfl, by cases kind <;> decide, ?_⟩
    rintro operandDue ⟨hneg, hsub⟩
    cases kind with
    | neg => rw [hneg rfl]; rfl
    | sub => rw [hsub rfl]; rfl
    | add | mul | div | pow | percent | sqrt => rfl

/-- No two neighbours are numbers. -/
def NumbersApart (tokens : List Token) : Prop :=
  tokens.IsChain fun a b => ¬(a.role = .number ∧ b.role = .number)

instance (tokens : List Token) : Decidable (NumbersApart tokens) :=
  inferInstanceAs (Decidable (tokens.IsChain _))

/-- A token that is no number ends a run. -/
theorem endsRun_flatMap_spelling {tokens : List Token} (husual : ∀ t ∈ tokens, t.IsUsual)
    (hhead : ∀ t ∈ tokens.head?, t.role ≠ .number) : EndsRun (tokens.flatMap Token.spelling) := by
  cases tokens with
  | nil => exact endsRun_nil
  | cons t rest =>
    obtain ⟨c, hspelling, hc, -⟩ := exists_spelling (husual t List.mem_cons_self) (hhead t rfl)
    rw [List.flatMap_cons, hspelling, List.singleton_append]
    exact endsRun_cons hc _

/-- Where it suits, a spelling is cut into the tokens it was put together from. -/
theorem tokensFrom_flatMap_spelling {tokens : List Token} (husual : ∀ t ∈ tokens, t.IsUsual)
    (hapart : NumbersApart tokens) {operandDue : Bool} (hsuit : AllSuit operandDue tokens) :
    tokensFrom operandDue (tokens.flatMap Token.spelling) = tokens := by
  induction tokens generalizing operandDue with
  | nil => rfl
  | cons t rest ih =>
    obtain ⟨ht, hrest⟩ := List.forall_mem_cons.mp husual
    obtain ⟨hhead, hapart⟩ := List.isChain_cons.mp hapart
    have ih := ih hrest hapart hsuit.2
    rw [List.flatMap_cons]
    by_cases hnumber : t.role = .number
    · cases ht with
      | literal hne hrun =>
        have hends : EndsRun (rest.flatMap Token.spelling) :=
          endsRun_flatMap_spelling hrest fun t' ht' hnumber' => hhead t' ht' ⟨hnumber, hnumber'⟩
        exact (tokensFrom_run hne hrun hends operandDue).trans (congrArg _ ih)
      | kind | openParen | closeParen => cases hnumber
    · obtain ⟨c, hspelling, hc, hchar⟩ := exists_spelling ht hnumber
      rw [hspelling, List.singleton_append, tokensFrom_symbol hc (hchar operandDue hsuit.1), ih]

/-- **Cutting undoes spelling.**  Usual tokens are what their spellings, put together, are cut into,
if no two numbers are neighbours and every minus sign is what stands before it demands; and among
the tokens of any text every minus sign is. -/
theorem tokenize_flatMap_spelling :
    (∀ tokens : List Token, (∀ t ∈ tokens, t.IsUsual) → NumbersApart tokens → FitsMinus tokens →
      tokenize (tokens.flatMap Token.spelling) = tokens) ∧
    ∀ s, FitsMinus (tokenize s) := by
  constructor
  · intro tokens husual hapart hfits
    exact tokensFrom_flatMap_spelling husual hapart ((fitsMinus_iff tokens).mp hfits)
  · intro s
    exact (fitsMinus_iff _).mpr (allSuit_tokensFrom true s)

/-- Negations at the start, behind an operator and behind an opening parenthesis, and a subtraction
behind a number of digits that are not all ASCII. -/
theorem tokenize_flatMap_spelling_minus :
    tokenize "-√-٣.-(-7)".toList = [.ofKind .neg, .ofKind .sqrt, .ofKind .neg,
      .ofLiteral "٣.".toList, .ofKind .sub, .openParen, .ofKind .neg, .ofLiteral ['7'],
      .closeParen] := by
  have hthree : ∀ c ∈ "٣.".toList, isNumberChar c = true := List.all_eq_true.mp (by decide)
  have hseven : ∀ c ∈ ['7'], isNumberChar c = true := List.all_eq_true.mp (by decide)
  refine tokenize_flatMap_spelling.1 [.ofKind .neg, .ofKind .sqrt, .ofKind .neg,
    .ofLiteral "٣.".toList, .ofKind .sub, .openParen, .ofKind .neg, .ofLiteral ['7'],
    .closeParen] ?_ (by decide) (by decide)
  simp only [List.forall_mem_cons]
  refine ⟨.kind _, .kind _, .kind _, .literal (by decide) hthree, .kind _, .openParen, .kind _,
    .literal (by decide) hseven, .closeParen, ?_⟩
  exact List.forall_mem_nil _

end Calculator
