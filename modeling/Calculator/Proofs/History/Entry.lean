import Calculator.History.Entry
import Calculator.Proofs.Text.Occurrence

/-!
# Taking entries apart

A history entry is taken apart at its last separator, so it is taken apart into what it was put
together from exactly if no later one stands in it (`parseEntry_formatEntry_eq_iff`).  That depends
on the result alone, but not only on whether the result holds the separator: a result that starts
with the end of one may complete a second one together with the end of the first.

In the other direction nothing can go wrong.  Putting together what an entry was taken apart into
gives the entry (`exists_parseEntry_eq_ok`), and an entry without a separator is all result
(`parseEntry_without_separator`).
-/

namespace Calculator

section

variable {s : Settings} (hne : s.separator ≠ [])
include hne

theorem parseEntry_eq_ok (entry : Text) :
    parseEntry s entry = .ok ((entry.splitLast? s.separator).getD ([], entry)) :=
  if_neg (by simpa using hne)

theorem parseEntry_formatEntry_eq_iff (expression result : Text) :
    parseEntry s (formatEntry s expression result) = .ok (expression, result) ↔
      ∀ index, Text.OccursAt s.separator (s.separator ++ result) index → index = 0 := by
  rw [parseEntry_eq_ok hne, Except.ok.injEq, ← Text.splitLast?_append_eq_some_iff hne, formatEntry]
  -- there is a separator, so the entry is cut somewhere
  obtain ⟨parts, hparts⟩ : ∃ parts,
      Text.splitLast? (expression ++ s.separator ++ result) s.separator = some parts := by
    rw [← Option.isSome_iff_exists, Option.isSome_iff_ne_none, Ne, Text.splitLast?_eq_none_iff hne,
      not_not]
    exact List.infix_append expression s.separator result
  rw [hparts, Option.getD_some, Option.some.injEq]

theorem exists_parseEntry_eq_ok {entry : Text} (h : s.separator <:+: entry) :
    ∃ expression result,
      parseEntry s entry = .ok (expression, result) ∧ formatEntry s expression result = entry := by
  cases hsplit : entry.splitLast? s.separator with
  | none => exact absurd h ((Text.splitLast?_eq_none_iff hne).mp hsplit)
  | some parts =>
    refine ⟨parts.1, parts.2, ?_, ((Text.splitLast?_eq_some_iff hne).mp hsplit).1.symm⟩
    rw [parseEntry_eq_ok hne, hsplit]
    rfl

theorem parseEntry_without_separator {entry : Text} (h : ¬s.separator <:+: entry) :
    parseEntry s entry = .ok ([], entry) := by
  rw [parseEntry_eq_ok hne, (Text.splitLast?_eq_none_iff hne).mpr h]
  rfl

end

/-- **Taking apart and putting together.**  An expression and a result come back from their entry
exactly if the separator stands nowhere but at the start of itself followed by the result.  Every
entry with a separator comes back from its parts, and one without a separator is all result. -/
theorem parseEntry_inverse_formatEntry {s : Settings} (hne : s.separator ≠ []) :
    (∀ expression result : Text,
      parseEntry s (formatEntry s expression result) = .ok (expression, result) ↔
        ∀ index, Text.OccursAt s.separator (s.separator ++ result) index → index = 0) ∧
    (∀ entry, s.separator <:+: entry → ∃ expression result,
      parseEntry s entry = .ok (expression, result) ∧ formatEntry s expression result = entry) ∧
    ∀ entry, ¬s.separator <:+: entry → parseEntry s entry = .ok ([], entry) :=
  ⟨parseEntry_formatEntry_eq_iff hne, fun _ => exists_parseEntry_eq_ok hne,
    fun _ => parseEntry_without_separator hne⟩

/-- The result holds no separator, but its start completes a second one, and there the entry is
taken apart. -/
theorem parseEntry_inverse_formatEntry_overlap :
    let s : Settings := { Settings.standard with separator := ['=', '='] }
    ¬s.separator <:+: ['=', '2'] ∧ formatEntry s ['1'] ['=', '2'] = ['1', '=', '=', '=', '2'] ∧
      (parseEntry s (formatEntry s ['1'] ['=', '2']) ≠ .ok (['1'], ['=', '2'])) ∧
      parseEntry s ['1', '=', '=', '=', '2'] = .ok (['1', '='], ['2']) ∧
      parseEntry s ['1', '=', '2'] = .ok ([], ['1', '=', '2']) := by
  intro s
  have hne : s.separator ≠ [] := List.cons_ne_nil _ _
  obtain ⟨hiff, -, hwithout⟩ := parseEntry_inverse_formatEntry hne
  refine ⟨by decide, rfl, ?_, rfl, hwithout _ (by decide)⟩
  intro h
  exact absurd ((hiff _ _).mp h 1 ⟨['='], ['2'], rfl, rfl⟩) Nat.one_ne_zero

end Calculator
