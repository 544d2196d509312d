import Calculator.Proofs.Arrangement.Conservation

/-!
# Where the tokens come from

Two tokens of an expression may look alike, so to say where arranging moves them each is taken with
its place among the tokens that go in, as an *occurrence*.  What comes out are the occurrences of
all numbers and operators, each of them once, and whatever comes out before a number also stood
before it (`exists_occurrences_arrange`).

What carries the induction is that the operators that wait are occurrences as well, of places that
lie behind: a number is ahead of all that comes out before it (`AccountsFor`).
-/

namespace Calculator

/-- A token with its place among the tokens that go in. -/
abbrev Occurrence := Token × ℕ

/-- The occurrences of numbers and operators among some tokens, the first of which stands at
`place`. -/
def occurrencesFrom (place : ℕ) (tokens : List Token) : List Occurrence :=
  (tokens.zipIdx place).filter fun o => !o.1.isParen

section

variable (place : ℕ) (rest : List Token)

@[simp] theorem occurrencesFrom_number (n : Number) :
    occurrencesFrom place (.number n :: rest) =
      (.number n, place) :: occurrencesFrom (place + 1) rest := rfl

@[simp] theorem occurrencesFrom_operator (op : Operator) :
    occurrencesFrom place (.operator op :: rest) =
      (.operator op, place) :: occurrencesFrom (place + 1) rest := rfl

theorem occurrencesFrom_paren {t : Token} (ht : t.isParen = true) :
    occurrencesFrom place (t :: rest) = occurrencesFrom (place + 1) rest := by
  unfold occurrencesFrom
  rw [List.zipIdx_cons, List.filter_cons_of_neg (by simp [ht])]

end

/-- Of two occurrences that come out one after the other, the first one stood before the second if
that is a number. -/
def ComesInOrder (first second : Occurrence) : Prop :=
  second.1.role = .number → first.2 < second.2

/-- The occurrences `out` account for the tokens `output` that are emitted while `tokens` are
arranged, which stand from `place` on, and the operators `held` were waiting. -/
structure AccountsFor (place : ℕ) (tokens : List Token) (held : List Occurrence)
    (output : List Token) (out : List Occurrence) : Prop where
  /-- They are the tokens that are emitted. -/
  tokens_eq : out.map Prod.fst = output
  /-- They are all that is arranged and all that was waiting. -/
  perm : out.Perm (occurrencesFrom place tokens ++ held)
  /-- What comes out before a number stood before it. -/
  inOrder : out.Pairwise ComesInOrder
  /-- No number was waiting. -/
  place_le : ∀ o ∈ out, o.1.role = .number → place ≤ o.2

namespace AccountsFor

variable {place : ℕ} {tokens output : List Token} {held out : List Occurrence}

theorem number (n : Number) (h : AccountsFor (place + 1) tokens held output out) :
    AccountsFor place (.number n :: tokens) held (.number n :: output)
      ((.number n, place) :: out) where
  tokens_eq := by rw [List.map_cons, h.tokens_eq]
  perm := by
    rw [occurrencesFrom_number, List.cons_append]
    exact h.perm.cons _
  inOrder := List.pairwise_cons.mpr ⟨h.place_le, h.inOrder⟩
  place_le := by
    intro o ho hnumber
    rcases List.mem_cons.mp ho with rfl | ho
    · exact Nat.le_refl place
    · exact Nat.le_of_succ_le (h.place_le o ho hnumber)

theorem paren {t : Token} (ht : t.isParen = true)
    (h : AccountsFor (place + 1) tokens held output out) :
    AccountsFor place (t :: tokens) held output out where
  tokens_eq := h.tokens_eq
  perm := by
    rw [occurrencesFrom_paren place tokens ht]
    exact h.perm
  inOrder := h.inOrder
  place_le o ho hnumber := Nat.le_of_succ_le (h.place_le o ho hnumber)

/-- An operator that is put to the waiting ones is one of them from then on. -/
theorem operator {op : Operator}
    (h : AccountsFor (place + 1) tokens ((.operator op, place) :: held) output out) :
    AccountsFor place (.operator op :: tokens) held output out where
  tokens_eq := h.tokens_eq
  perm := by
    rw [occurrencesFrom_operator, List.cons_append]
    exact h.perm.trans List.perm_middle
  inOrder := h.inOrder
  place_le o ho hnumber := Nat.le_of_succ_le (h.place_le o ho hnumber)

/-- Waiting operators that are released come out before all that is ahead. -/
theorem release {ops : List Operator} {first : List Occurrence}
    (hops : first.map Prod.fst = released ops) (hplace : ∀ o ∈ first, o.2 < place)
    (h : AccountsFor place tokens held output out) :
    AccountsFor place tokens (first ++ held) (released ops ++ output) (first ++ out) := by
  have hnone : ∀ o ∈ first, o.1.role ≠ .number := by
    intro o ho
    have hmem : o.1 ∈ released ops := hops ▸ List.mem_map_of_mem ho
    obtain ⟨op, -, hop⟩ := List.mem_map.mp hmem
    rw [← hop]
    exact Role.noConfusion
  refine ⟨?_, ?_, ?_, ?_⟩
  · rw [List.map_append, hops, h.tokens_eq]
  · refine (h.perm.append_left first).trans ?_
    rw [← List.append_assoc, ← List.append_assoc]
    exact List.perm_append_comm.append_right held
  · refine List.pairwise_append.mpr ⟨?_, h.inOrder, ?_⟩
    · exact List.pairwise_of_forall_mem_list fun a _ b hb hnumber => absurd hnumber (hnone b hb)
    · exact fun a ha b hb hnumber => Nat.lt_of_lt_of_le (hplace a ha) (h.place_le b hb hnumber)
  · intro o ho hnumber
    rcases List.mem_append.mp ho with ho | ho
    · exact absurd hnumber (hnone o ho)
    · exact h.place_le o ho hnumber

end AccountsFor

/-- Occurrences of two lots of waiting operators are those of the one and those of the other. -/
theorem exists_append_of_map_eq_released {held : List Occurrence} {first second : List Operator}
    (h : held.map Prod.fst = released (first ++ second)) :
    ∃ held₁ held₂, held = held₁ ++ held₂ ∧ held₁.map Prod.fst = released first ∧
      held₂.map Prod.fst = released second := by
  rw [released_append] at h
  exact List.map_eq_append_iff.mp h

/-- One more operator waits, and it has one more occurrence. -/
theorem map_cons_eq_released {op : Operator} {held : List Occurrence} {waiting : List Operator}
    (place : ℕ) (h : held.map Prod.fst = released waiting) :
    ((.operator op, place) :: held).map Prod.fst = released (op :: waiting) := by
  rw [List.map_cons, h]
  rfl

/-- What is emitted has occurrences, whatever is arranged and whatever was waiting. -/
theorem exists_accountsFor (tokens : List Token) (waiting : List Operator)
    (enclosing : List (List Operator)) {place : ℕ} {held : List Occurrence}
    (hheld : held.map Prod.fst = released (waiting ++ enclosing.flatten))
    (hplace : ∀ o ∈ held, o.2 < place) :
    ∃ out, AccountsFor place tokens held (arrangeFrom tokens waiting enclosing).tokens out := by
  have hlater {held : List Occurrence} {place : ℕ} (h : ∀ o ∈ held, o.2 < place) :
      ∀ o ∈ held, o.2 < place + 1 := fun o ho => Nat.lt_succ_of_lt (h o ho)
  fun_induction arrangeFrom tokens waiting enclosing generalizing place held with
  | case1 waiting enclosing =>
    have hnil : AccountsFor place [] [] [] [] := ⟨rfl, .refl _, .nil, by simp⟩
    have h := hnil.release hheld hplace
    rw [List.append_nil, List.append_nil] at h
    exact ⟨held, h⟩
  | case2 n rest waiting enclosing ih =>
    obtain ⟨out, h⟩ := ih hheld (hlater hplace)
    exact ⟨_, h.number n⟩
  | case3 p rest waiting enclosing ih =>
    have hheld : held.map Prod.fst = released ([] ++ (waiting :: enclosing).flatten) := by
      rw [hheld]
      rfl
    obtain ⟨out, h⟩ := ih hheld (hlater hplace)
    exact ⟨out, h.paren rfl⟩
  | case4 p rest waiting ih =>
    rw [List.flatten_nil, List.append_nil] at hheld
    have hnone : ∀ o ∈ ([] : List Occurrence), o.2 < place + 1 := by simp
    obtain ⟨out, h⟩ := ih rfl hnone
    have h := (h.paren (t := .rightParen p) rfl).release hheld hplace
    rw [List.append_nil] at h
    exact ⟨held ++ out, h⟩
  | case5 p rest waiting outer enclosing ih =>
    obtain ⟨first, held, rfl, hfirst, hheld⟩ := exists_append_of_map_eq_released hheld
    obtain ⟨hplace₁, hplace₂⟩ := List.forall_mem_append.mp hplace
    obtain ⟨out, h⟩ := ih hheld (hlater hplace₂)
    exact ⟨first ++ out, (h.paren rfl).release hfirst hplace₁⟩
  | case6 op rest waiting enclosing hop ih =>
    obtain ⟨out, h⟩ := ih (map_cons_eq_released place hheld)
      (List.forall_mem_cons.mpr ⟨Nat.lt_succ_self place, hlater hplace⟩)
    exact ⟨out, h.operator⟩
  | case7 op rest waiting enclosing hop ih =>
    -- of those that wait, the first ones are released and the others go on waiting
    rw [← List.takeWhile_append_dropWhile (p := bindsBefore op) (l := waiting),
      List.append_assoc] at hheld
    obtain ⟨first, held, rfl, hfirst, hheld⟩ := exists_append_of_map_eq_released hheld
    obtain ⟨hplace₁, hplace₂⟩ := List.forall_mem_append.mp hplace
    obtain ⟨out, h⟩ := ih (map_cons_eq_released place hheld)
      (List.forall_mem_cons.mpr ⟨Nat.lt_succ_self place, hlater hplace₂⟩)
    exact ⟨first ++ out, h.operator.release hfirst hplace₁⟩

/-! ### Numbers -/

/-- The occurrence is one of a number. -/
def isNumberOccurrence (o : Occurrence) : Bool := o.1.role == .number

theorem pairwise_zipIdx (place : ℕ) (tokens : List Token) :
    (tokens.zipIdx place).Pairwise fun first second => first.2 < second.2 := by
  rw [← List.pairwise_map, List.zipIdx_map_snd]
  exact List.pairwise_lt_range'

/-- Occurrences that come in order hold the numbers in their old order. -/
theorem filter_isNumberOccurrence {place : ℕ} {tokens : List Token} {out : List Occurrence}
    (hperm : out.Perm (occurrencesFrom place tokens)) (hinOrder : out.Pairwise ComesInOrder) :
    out.filter isNumberOccurrence = (tokens.zipIdx place).filter isNumberOccurrence := by
  have hnumbers : (occurrencesFrom place tokens).filter isNumberOccurrence =
      (tokens.zipIdx place).filter isNumberOccurrence := by
    unfold occurrencesFrom
    rw [List.filter_filter]
    congr 1
    funext ⟨t, i⟩
    cases t <;> rfl
  have hsorted : (out.filter isNumberOccurrence).Pairwise fun first second =>
      first.2 < second.2 := by
    refine (hinOrder.filter isNumberOccurrence).imp_of_mem ?_
    intro first second _ hsecond hlt
    exact hlt (eq_of_beq (List.mem_filter.mp hsecond).2)
  have hasymm (a b : Occurrence) (hab : a.2 < b.2) (hba : b.2 < a.2) : a = b := by omega
  refine List.Perm.eq_of_pairwise (fun a b _ _ => hasymm a b) hsorted
    ((pairwise_zipIdx place tokens).filter _) ?_
  rw [← hnumbers]
  exact hperm.filter _

/-- **Arranging permutes the numbers and operators**: what comes out are the occurrences of all
tokens but the parentheses, each of them once.  The numbers keep their order, and whatever comes out
before a number stood before it, so an operator comes out behind every number that stood before
it. -/
theorem exists_occurrences_arrange (tokens : List Token) :
    ∃ out : List Occurrence,
      out.map Prod.fst = (arrange tokens).tokens ∧
      out.Perm (tokens.zipIdx.filter fun o => !o.1.isParen) ∧
      out.filter isNumberOccurrence = tokens.zipIdx.filter isNumberOccurrence ∧
      out.Pairwise fun first second => second.1.role = .number → first.2 < second.2 := by
  obtain ⟨out, h⟩ : ∃ out, AccountsFor 0 tokens [] (arrange tokens).tokens out :=
    exists_accountsFor tokens [] [] rfl (by simp)
  have hperm := h.perm
  rw [List.append_nil] at hperm
  exact ⟨out, h.tokens_eq, hperm, filter_isNumberOccurrence hperm h.inOrder, h.inOrder⟩

end Calculator
