import Calculator.Proofs.Arrangement.Enclosing
import Calculator.Proofs.Evaluation.Malformed
import Calculator.Proofs.Text.Replacement

/-!
# Texts in parentheses

Parentheses around a whole text do not change what it evaluates to, nor does any number of opening
ones in front of it together with any other number of closing ones behind it
(`outcome_evaluate_parenthesized`), whatever parentheses the text holds itself.  An operand is due
behind an opening parenthesis as it is at the start, so the text between is cut into the tokens that
it is cut into on its own (`tokenize_parenthesized`).
-/

namespace Calculator

section

variable (a b : Nat)

theorem isPlain_of_mem_replicate {n : Nat} {c x : Char} (hx : IsPlain x)
    (hc : c ∈ List.replicate n x) : IsPlain c := by
  rw [List.eq_of_mem_replicate hc]
  exact hx

theorem sanitize_parenthesized {s : Settings} (hs : s.glyphs = Settings.standard.glyphs)
    (text : Text) :
    sanitize s (List.replicate a '(' ++ text ++ List.replicate b ')') =
      List.replicate a '(' ++ sanitize s text ++ List.replicate b ')' := by
  have hopen : IsPlain '(' := by decide
  have hclose : IsPlain ')' := by decide
  rw [sanitize_append hs, sanitize_append hs,
    sanitize_of_isPlain hs fun c hc => isPlain_of_mem_replicate hopen hc,
    sanitize_of_isPlain hs fun c hc => isPlain_of_mem_replicate hclose hc]

theorem tokensFrom_opens (s : Text) :
    tokensFrom true (List.replicate a '(' ++ s) =
      List.replicate a .openParen ++ tokensFrom true s := by
  induction a with
  | zero => rfl
  | succ a ih =>
    have hsymbol : tokensFrom true ('(' :: (List.replicate a '(' ++ s)) =
        .openParen :: tokensFrom true (List.replicate a '(' ++ s) :=
      tokensFrom_symbol (by decide) rfl _
    rw [List.replicate_succ, List.cons_append, hsymbol, ih, List.replicate_succ, List.cons_append]

theorem tokensFrom_closes (operandDue : Bool) :
    tokensFrom operandDue (List.replicate b ')') = List.replicate b .closeParen := by
  induction b generalizing operandDue with
  | zero => rfl
  | succ b ih =>
    have hclose : charToken? operandDue ')' = some .closeParen := by cases operandDue <;> rfl
    rw [List.replicate_succ, tokensFrom_symbol (by decide) hclose, ih, List.replicate_succ]

theorem endsRun_closes : EndsRun (List.replicate b ')') := by
  cases b with
  | zero => exact endsRun_nil
  | succ b => exact endsRun_cons (by decide) (List.replicate b ')')

theorem tokenize_parenthesized (s : Text) :
    tokenize (List.replicate a '(' ++ s ++ List.replicate b ')') =
      List.replicate a .openParen ++ tokenize s ++ List.replicate b .closeParen := by
  show tokensFrom true _ = _ ++ tokensFrom true s ++ _
  rw [List.append_assoc, tokensFrom_opens, tokensFrom_append s (endsRun_closes b),
    tokensFrom_closes, List.append_assoc]

end

/-- **Parentheses around everything change nothing**, balanced or not: starts of groups in front of
all tokens and ends of groups behind them leave the postfix order as it is, and opening parentheses
in front of a text and closing ones behind it leave it with the same value, or with the same failure
if it has none. -/
theorem outcome_evaluate_parenthesized {s : Settings} (hs : s.glyphs = Settings.standard.glyphs) :
    (∀ (opens closes : List Paren) (tokens : List Token),
      (arrange (opens.map .leftParen ++ tokens ++ closes.map .rightParen)).tokens =
        (arrange tokens).tokens) ∧
    ∀ (a b : Nat) (text : Text),
      (evaluate s (List.replicate a '(' ++ text ++ List.replicate b ')')).outcome =
        (evaluate s text).outcome := by
  refine ⟨fun opens closes tokens => tokens_arrange_enclosed tokens opens closes, ?_⟩
  intro a b text
  have harrange := tokens_arrange_enclosed (tokenize (sanitize s text))
    (List.replicate a ⟨['('], none, none⟩) (List.replicate b ⟨[')'], none, none⟩)
  rw [List.map_replicate, List.map_replicate] at harrange
  rw [outcome_evaluate, outcome_evaluate, sanitize_parenthesized a b hs, tokenize_parenthesized]
  exact congrArg (fun tokens => (evaluatePostfix s tokens).outcome) harrange

/-- The parentheses become the partners of those in the text: minus four is multiplied by the sum
either way. -/
theorem outcome_evaluate_two_of_three :
    (evaluate .standard "((-4)×(1+2".toList).outcome =
      (evaluate .standard "-4)×(1+2".toList).outcome :=
  (outcome_evaluate_parenthesized (s := .standard) rfl).2 2 0 "-4)×(1+2".toList

end Calculator
