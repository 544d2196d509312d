import Calculator.Expression.Basic
import Calculator.Proofs.Arrangement.Emission
import Mathlib.Order.Bounds.Basic
import Mathlib.Tactic.Ring

/-!
# Parentheses without a partner

Arranging leaves a note on every end of a group that has not started and on every start of a group
that does not end.  Nothing is counted on the way: an end lacks its start if no group is open by
then, whatever operators wait.  Still the notes follow from the parentheses alone
(`trace_arrangeNoted`).  As many ends lack a start as the ends outnumber the starts, up to the place
where they do so most; and if those are given their starts, the starts that outnumber the ends in
the whole are the ones that lack an end.

The induction goes through tokens behind groups that have started before, each of which has a start
to spare for one end (`LackStarts`).
-/

namespace Calculator

/-- By how much the ends of groups outnumber the starts among some tokens. -/
def surplus (tokens : List Token) : ℤ :=
  (tokens.countP fun t => t.role = .rightParen : ℕ) -
    (tokens.countP fun t => t.role = .leftParen : ℕ)

@[simp] theorem surplus_nil : surplus [] = 0 := rfl

theorem surplus_cons (t : Token) (rest : List Token) :
    surplus (t :: rest) = surplus [t] + surplus rest := by
  unfold surplus
  rw [List.countP_cons, List.countP_cons, List.countP_singleton, List.countP_singleton]
  push_cast
  ring

/-! ### Ends that lack a start -/

/-- Behind `depth` groups that have started before, `k` ends among the tokens lack a start: up to no
place is the surplus greater than `depth` by more, and up to some place it is greater by as much,
unless `k` is zero. -/
structure LackStarts (depth : ℕ) (tokens : List Token) (k : ℕ) : Prop where
  /-- The surplus is no greater up to any place. -/
  le : ∀ front, front <+: tokens → surplus front ≤ depth + k
  /-- It is as great up to some place. -/
  attained : k = 0 ∨ ∃ front, front <+: tokens ∧ surplus front = depth + k

namespace LackStarts

theorem nil (depth : ℕ) : LackStarts depth [] 0 where
  le := by
    intro front hfront
    rw [List.prefix_nil.mp hfront, surplus_nil]
    omega
  attained := .inl rfl

/-- A token at the front moves the surplus up to all places behind it.  If no end behind it lacks a
start, the place right behind the token itself decides. -/
theorem cons {t : Token} {rest : List Token} {depth depth' k k' : ℕ} (h : LackStarts depth' rest k')
    (hsum : depth' + k' + surplus [t] = depth + k)
    (hfirst : k' = 0 → k = 0 ∨ surplus [t] = depth + k) : LackStarts depth (t :: rest) k where
  le := by
    intro front hfront
    rcases List.prefix_cons_iff.mp hfront with rfl | ⟨others, rfl, hothers⟩
    · rw [surplus_nil]
      omega
    · have hle := h.le others hothers
      rw [surplus_cons]
      omega
  attained := by
    rcases h.attained with hzero | ⟨front, hfront, heq⟩
    · refine (hfirst hzero).imp_right fun heq => ⟨[t], ?_, heq⟩
      exact List.prefix_append [t] rest
    · refine .inr ⟨t :: front, (List.prefix_cons_inj t).mpr hfront, ?_⟩
      rw [surplus_cons]
      omega

end LackStarts

/-! ### What is noted -/

/-- The notes on tokens behind `depth` groups that have started before: first on each end that lacks
a start, then on each start that lacks an end. -/
def NotedBehind (depth : ℕ) (tokens : List Token) (notes : List Note) : Prop :=
  ∃ k m : ℕ, LackStarts depth tokens k ∧ (m : ℤ) = depth + k - surplus tokens ∧
    notes = List.replicate k .unmatchedClose ++ List.replicate m .unmatchedOpen

namespace NotedBehind

variable {rest : List Token} {notes : List Note}

/-- In the end every group that is still open lacks an end. -/
theorem nil (depth : ℕ) : NotedBehind depth [] (List.replicate depth .unmatchedOpen) :=
  ⟨0, depth, .nil depth, by simp, rfl⟩

/-- A token that opens or ends a group, or neither, leaves no note as long as there is a group to
end. -/
theorem cons {t : Token} {depth depth' : ℕ} (hdepth : depth' + surplus [t] = depth)
    (h : NotedBehind depth' rest notes) : NotedBehind depth (t :: rest) notes := by
  obtain ⟨k, m, hlack, hm, hnotes⟩ := h
  refine ⟨k, m, hlack.cons (by omega) .inl, ?_, hnotes⟩
  rw [surplus_cons]
  omega

/-- If there is none, the end of one lacks its start. -/
theorem rightParen (p : Paren) (h : NotedBehind 0 rest notes) :
    NotedBehind 0 (.rightParen p :: rest) (.unmatchedClose :: notes) := by
  obtain ⟨k, m, hlack, hm, rfl⟩ := h
  have hone : surplus [.rightParen p] = 1 := rfl
  refine ⟨k + 1, m, hlack.cons (by omega) fun hk => .inr ?_, ?_, rfl⟩
  · rw [hk, hone]
    rfl
  · rw [surplus_cons]
    omega

end NotedBehind

theorem notedBehind_arrangeFrom (tokens : List Token) (waiting : List Operator)
    (enclosing : List (List Operator)) :
    NotedBehind enclosing.length tokens (arrangeFrom tokens waiting enclosing).notes := by
  fun_induction arrangeFrom tokens waiting enclosing with
  | case1 waiting enclosing =>
    rw [List.map_const']
    exact .nil enclosing.length
  | case2 n rest waiting enclosing ih => exact ih.cons (add_zero _)
  | case3 p rest waiting enclosing ih =>
    have ht : surplus [.leftParen p] = -1 := rfl
    refine ih.cons ?_
    rw [List.length_cons]
    omega
  | case4 p rest waiting ih => exact ih.rightParen p
  | case5 p rest waiting outer enclosing ih => exact ih.cons rfl
  | case6 op rest waiting enclosing hop ih => exact ih.cons (add_zero _)
  | case7 op rest waiting enclosing hop ih => exact ih.cons (add_zero _)

theorem trace_arrangeNoted_eq (tokens : List Token) :
    (arrangeNoted tokens).trace = (arrange tokens).notes := by
  unfold arrangeNoted
  rw [Traced.bind_of_ok (x := .recordAll (arrange tokens).notes) (a := ()) rfl]
  exact List.append_nil _

/-- **What is noted on parentheses**, and nothing else is noted: first on every end without a start,
of which there are as many as the greatest surplus up to any place, then on every start without an
end, of which there are as many as are missing to that surplus in the end. -/
theorem trace_arrangeNoted (tokens : List Token) :
    ∃ k m : ℕ, IsGreatest {n : ℤ | ∃ front, front <+: tokens ∧ n = surplus front} k ∧
      (m : ℤ) = k - surplus tokens ∧
      (arrangeNoted tokens).trace =
        List.replicate k .unmatchedClose ++ List.replicate m .unmatchedOpen ∧
      (arrangeNoted tokens).trace.map Note.message =
        List.replicate k "Unmatched ')' ignored".toList ++
          List.replicate m "Unmatched '(' ignored".toList := by
  obtain ⟨k, m, hlack, hm, hnotes⟩ := notedBehind_arrangeFrom tokens [] []
  have htrace : (arrangeNoted tokens).trace =
      List.replicate k .unmatchedClose ++ List.replicate m .unmatchedOpen :=
    (trace_arrangeNoted_eq tokens).trans hnotes
  rw [List.length_nil] at hlack hm
  refine ⟨k, m, ⟨?_, ?_⟩, by omega, htrace, ?_⟩
  · -- nothing has happened yet where no end lacks a start
    rcases hlack.attained with rfl | ⟨front, hfront, heq⟩
    · exact ⟨[], tokens.nil_prefix, rfl⟩
    · exact ⟨front, hfront, by omega⟩
  · rintro n ⟨front, hfront, rfl⟩
    have hle := hlack.le front hfront
    omega
  · rw [htrace, List.map_append, List.map_replicate, List.map_replicate]
    rfl

/-- Two ends lack a start and two starts an end, although as many groups start as end. -/
example : (arrangeNoted [.closeParen, .ofLiteral ['1'], .openParen, .closeParen, .ofKind .add,
    .closeParen, .openParen, .ofKind .neg, .openParen]).trace =
      [.unmatchedClose, .unmatchedClose, .unmatchedOpen, .unmatchedOpen] := rfl

end Calculator
