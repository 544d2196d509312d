import Calculator.Proofs.Arrangement.Emission

/-!
# Parentheses around everything

Arranging puts up with parentheses that have no partner, and it does so as if the partner stood at
the very start or at the very end of the tokens: starts of groups in front of everything and ends of
groups behind everything change nothing, even if they become the partners of others and regroup all
that stands between (`tokens_arrange_enclosed`).

A start in front of everything is one more enclosing group, around all others, in which nothing
waits.  The two runs agree while such groups are at hand, because an end without a start releases
what an end of such a group would release (`tokens_arrangeFrom_outermost`).  Ends behind everything
release what the end of the tokens would release, in the same order (`tokens_arrangeFrom_closes`).
-/

namespace Calculator

variable (tokens : List Token) (waiting : List Operator) (enclosing : List (List Operator))

/-- Starts of groups open as many groups in which nothing waits. -/
theorem arrangeFrom_opens (opens : List Paren) :
    arrangeFrom (opens.map .leftParen ++ tokens) [] enclosing =
      arrangeFrom tokens [] (List.replicate opens.length [] ++ enclosing) := by
  induction opens generalizing enclosing with
  | nil => rfl
  | cons p opens ih =>
    rw [List.map_cons, List.cons_append, arrangeFrom_leftParen, ih, List.length_cons,
      List.replicate_succ', List.append_assoc]
    rfl

/-- Groups around all others in which nothing waits change nothing of what is emitted. -/
theorem tokens_arrangeFrom_outermost (n : Nat) :
    (arrangeFrom tokens waiting (enclosing ++ List.replicate n [])).tokens =
      (arrangeFrom tokens waiting enclosing).tokens := by
  fun_induction arrangeFrom tokens waiting enclosing generalizing n with
  | case1 waiting enclosing =>
    have hflatten : (enclosing ++ List.replicate n []).flatten = enclosing.flatten := by
      rw [List.flatten_append, List.flatten_replicate_nil, List.append_nil]
    show released (waiting ++ (enclosing ++ List.replicate n []).flatten) = _
    rw [hflatten]
  | case2 number rest waiting enclosing ih =>
    simp only [arrangeFrom_number, Arrangement.tokens_prepend, ih n]
  | case3 p rest waiting enclosing ih =>
    rw [arrangeFrom_leftParen, ← List.cons_append, ih n]
  | case4 p rest waiting ih =>
    -- the end is without a start here, and ends the first of the outermost groups there
    cases n with
    | zero => simp [arrangeFrom]
    | succ n =>
      have h := ih n
      rw [List.nil_append] at h
      rw [List.nil_append, List.replicate_succ, arrangeFrom_rightParen_cons,
        Arrangement.tokens_prepend, Arrangement.tokens_prepend, Arrangement.tokens_notedFirst, h]
  | case5 p rest waiting outer enclosing ih =>
    rw [List.cons_append, arrangeFrom_rightParen_cons, Arrangement.tokens_prepend, ih n,
      Arrangement.tokens_prepend]
  | case6 op rest waiting enclosing hop ih =>
    rw [arrangeFrom_of_isPrefixed hop, ih n]
  | case7 op rest waiting enclosing hop ih =>
    simp only [arrangeFrom, if_neg hop, Arrangement.tokens_prepend, ih n]

/-- Ends of groups release all that waits, from the innermost group on. -/
theorem tokens_arrangeFrom_closes (closes : List Paren) :
    (arrangeFrom (closes.map .rightParen) waiting enclosing).tokens =
      released (waiting ++ enclosing.flatten) := by
  induction closes generalizing waiting enclosing with
  | nil => rfl
  | cons p closes ih =>
    rw [List.map_cons]
    cases enclosing with
    | nil =>
      simp [arrangeFrom, ih]
    | cons outer enclosing =>
      rw [arrangeFrom_rightParen_cons, Arrangement.tokens_prepend, ih, List.flatten_cons]
      simp [released]

/-- Ends of groups behind everything change nothing of what is emitted. -/
theorem tokens_arrangeFrom_append_closes (closes : List Paren) :
    (arrangeFrom (tokens ++ closes.map .rightParen) waiting enclosing).tokens =
      (arrangeFrom tokens waiting enclosing).tokens := by
  fun_induction arrangeFrom tokens waiting enclosing with
  | case1 waiting enclosing => exact tokens_arrangeFrom_closes waiting enclosing closes
  | case2 number rest waiting enclosing ih =>
    rw [List.cons_append, arrangeFrom_number, Arrangement.tokens_prepend, ih,
      Arrangement.tokens_prepend]
  | case3 p rest waiting enclosing ih =>
    rw [List.cons_append, arrangeFrom_leftParen, ih]
  | case4 p rest waiting ih =>
    simp only [List.cons_append, arrangeFrom, Arrangement.tokens_prepend,
      Arrangement.tokens_notedFirst, ih]
  | case5 p rest waiting outer enclosing ih =>
    rw [List.cons_append, arrangeFrom_rightParen_cons, Arrangement.tokens_prepend, ih,
      Arrangement.tokens_prepend]
  | case6 op rest waiting enclosing hop ih =>
    rw [List.cons_append, arrangeFrom_of_isPrefixed hop, ih]
  | case7 op rest waiting enclosing hop ih =>
    simp only [List.cons_append, arrangeFrom, if_neg hop, Arrangement.tokens_prepend, ih]

/-- Starts of groups in front of everything and ends of groups behind everything change nothing,
however the parentheses between them are paired. -/
theorem tokens_arrange_enclosed (opens closes : List Paren) :
    (arrange (opens.map .leftParen ++ tokens ++ closes.map .rightParen)).tokens =
      (arrange tokens).tokens := by
  have hopens : arrangeFrom (opens.map .leftParen ++ (tokens ++ closes.map .rightParen)) [] [] =
      arrangeFrom (tokens ++ closes.map .rightParen) [] (List.replicate opens.length []) := by
    rw [arrangeFrom_opens, List.append_nil]
  have houtermost := tokens_arrangeFrom_outermost (tokens ++ closes.map .rightParen) [] []
    opens.length
  rw [List.nil_append] at houtermost
  rw [arrange, List.append_assoc, hopens, houtermost, tokens_arrangeFrom_append_closes, arrange]

end Calculator
