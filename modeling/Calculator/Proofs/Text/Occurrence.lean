import Calculator.Text.Basic
import Mathlib.Data.List.Infix

/-!
# Where a pattern stands

A pattern may stand in a text at several indices, and two of its occurrences may overlap.
`splitLast?` cuts a text at the greatest of these indices (`splitLast?_eq_some_iff`), and leaves it
uncut if there is none (`splitLast?_eq_none_iff`).

So a separator that was put between two texts is found again unless it stands further on as well.
What stands before it has no part in that, as an occurrence that starts there is no later one, but
one that starts within the separator is (`splitLast?_append_eq_some_iff`).
-/

namespace Calculator

namespace Text

/-- The pattern stands in the text behind its first `index` characters. -/
def OccursAt (pattern s : Text) (index : ℕ) : Prop :=
  ∃ before behind, before.length = index ∧ s = before ++ pattern ++ behind

section

variable {pattern s : Text} {index : ℕ}

theorem occursAt_cons_succ_iff {c : Char} :
    OccursAt pattern (c :: s) (index + 1) ↔ OccursAt pattern s index := by
  constructor
  · rintro ⟨before, behind, hlength, heq⟩
    obtain ⟨x, before, rfl⟩ := List.exists_cons_of_length_eq_add_one hlength
    exact ⟨before, behind, Nat.succ.inj hlength, (List.cons.inj heq).2⟩
  · rintro ⟨before, behind, rfl, rfl⟩
    exact ⟨c :: before, behind, rfl, rfl⟩

theorem occursAt_append_iff (front : Text) :
    OccursAt pattern (front ++ s) (front.length + index) ↔ OccursAt pattern s index := by
  induction front with
  | nil => rw [List.nil_append, List.length_nil, Nat.zero_add]
  | cons c front ih =>
    rw [List.cons_append, List.length_cons, Nat.add_right_comm, occursAt_cons_succ_iff, ih]

theorem OccursAt.isInfix (h : OccursAt pattern s index) : pattern <:+: s := by
  obtain ⟨before, behind, -, rfl⟩ := h
  exact List.infix_append before pattern behind

end

/-! ### The last occurrence -/

section

variable {separator : Text} (hne : separator ≠ [])
include hne

theorem splitLast?_spec (s : Text) :
    match splitLast? s separator with
    | some (before, after) =>
      s = before ++ separator ++ after ∧ ∀ index, OccursAt separator s index → index ≤ before.length
    | none => ¬separator <:+: s := by
  induction s with
  | nil => exact fun h => hne (List.infix_nil.mp h)
  | cons c rest ih =>
    unfold splitLast?
    cases hrest : splitLast? rest separator with
    | some parts =>
      obtain ⟨before, after⟩ := parts
      rw [hrest] at ih
      obtain ⟨rfl, hlast⟩ := ih
      refine ⟨rfl, ?_⟩
      rintro (_ | index) hindex
      · exact Nat.zero_le _
      · exact Nat.succ_le_succ (hlast index (occursAt_cons_succ_iff.mp hindex))
    | none =>
      rw [hrest] at ih
      dsimp only
      split_ifs with hstarts
      · obtain ⟨after, hafter⟩ := List.isPrefixOf_iff_prefix.mp hstarts
        refine ⟨?_, ?_⟩
        · rw [← hafter, List.drop_left]
          rfl
        · rintro (_ | index) hindex
          · exact Nat.le_refl 0
          · exact absurd (occursAt_cons_succ_iff.mp hindex).isInfix ih
      · rw [List.isPrefixOf_iff_prefix] at hstarts
        rw [List.infix_cons_iff, not_or]
        exact ⟨hstarts, ih⟩

theorem splitLast?_eq_none_iff {s : Text} :
    splitLast? s separator = none ↔ ¬separator <:+: s := by
  have hspec := splitLast?_spec hne s
  cases hsplit : splitLast? s separator with
  | none => simpa [hsplit] using hspec
  | some parts =>
    rw [hsplit] at hspec
    obtain ⟨heq, -⟩ := hspec
    have hstands : separator <:+: s := heq ▸ List.infix_append parts.1 separator parts.2
    simp [hstands]

/-- The text is cut at the greatest index at which the separator stands. -/
theorem splitLast?_eq_some_iff {s before after : Text} :
    splitLast? s separator = some (before, after) ↔
      s = before ++ separator ++ after ∧
        ∀ index, OccursAt separator s index → index ≤ before.length := by
  have hspec := splitLast?_spec hne s
  constructor
  · intro hsplit
    rwa [hsplit] at hspec
  · rintro ⟨heq, hlast⟩
    cases hsplit : splitLast? s separator with
    | none =>
      rw [hsplit] at hspec
      exact absurd (heq ▸ List.infix_append before separator after) hspec
    | some parts =>
      obtain ⟨before', after'⟩ := parts
      rw [hsplit] at hspec
      obtain ⟨heq', hlast'⟩ := hspec
      -- the two places are no later than each other
      have hlength : before'.length = before.length :=
        Nat.le_antisymm (hlast _ ⟨before', after', rfl, heq'⟩)
          (hlast' _ ⟨before, after, rfl, heq⟩)
      have happend : before' ++ (separator ++ after') = before ++ (separator ++ after) := by
        rw [← List.append_assoc, ← List.append_assoc, ← heq', heq]
      obtain ⟨rfl, hbehind⟩ := List.append_inj happend hlength
      rw [List.append_cancel_left hbehind]

/-- A separator between two texts is the last one if it stands nowhere further on, not even where
it has its own end in common with that. -/
theorem splitLast?_append_eq_some_iff {before after : Text} :
    splitLast? (before ++ separator ++ after) separator = some (before, after) ↔
      ∀ index, OccursAt separator (separator ++ after) index → index = 0 := by
  rw [splitLast?_eq_some_iff hne, List.append_assoc]
  constructor
  · rintro ⟨-, hlast⟩ index hindex
    have hle := hlast _ ((occursAt_append_iff before).mpr hindex)
    omega
  · intro hfirst
    refine ⟨rfl, fun index hindex => ?_⟩
    by_contra hlt
    obtain ⟨i, rfl⟩ : ∃ i, index = before.length + (i + 1) :=
      ⟨index - before.length - 1, by omega⟩
    exact absurd (hfirst _ ((occursAt_append_iff before).mp hindex)) (Nat.succ_ne_zero i)

end

end Text

end Calculator
