import Calculator.Proofs.Text.Replacement
import Mathlib.Data.List.Infix
import Mathlib.Data.List.Nodup

/-!
# Tables of glyphs

Sanitizing applies a table of glyphs entry by entry to the whole text, so a later entry sees what
the earlier ones have put in.  As long as every glyph is one character, the text is still treated
character by character (`replaceGlyphs_eq_flatMap`), whatever becomes of a character in the end.

In a *settled* table no glyph stands twice and no replacement holds one (`IsSettled`).  There a
replacement is final, and sanitizing is a single pass in which each character gives what it stands
for, less the blanks (`sanitize_of_isSettled`).
-/

namespace Calculator

/-- The text with the entries of a table applied one after the other. -/
def replaceGlyphs (table : List (Text × Text)) (t : Text) : Text :=
  table.foldl (fun t (glyph, symbol) => t.replaceAll glyph symbol) t

theorem sanitize_eq_squeeze (s : Settings) (t : Text) :
    sanitize s t = (replaceGlyphs s.glyphs t).squeeze := rfl

theorem replaceGlyphs_cons (g : Char) (symbol : Text) (table : List (Text × Text)) (t : Text) :
    replaceGlyphs (([g], symbol) :: table) t =
      replaceGlyphs table (t.flatMap fun c => if c = g then symbol else [c]) := by
  rw [← Text.replaceAll_singleton]
  rfl

/-! ### Glyphs of one character -/

/-- Every glyph of the table is one character. -/
inductive SingleGlyphs : List (Text × Text) → Prop where
  | nil : SingleGlyphs []
  | cons (g : Char) (symbol : Text) {table : List (Text × Text)} (h : SingleGlyphs table) :
      SingleGlyphs (([g], symbol) :: table)

theorem singleGlyphs_of_length {table : List (Text × Text)}
    (h : ∀ entry ∈ table, entry.1.length = 1) : SingleGlyphs table := by
  induction table with
  | nil => exact .nil
  | cons entry table ih =>
    obtain ⟨glyph, symbol⟩ := entry
    obtain ⟨hglyph, htable⟩ := List.forall_mem_cons.mp h
    obtain ⟨g, rfl⟩ := List.length_eq_one_iff.mp hglyph
    exact .cons g symbol (ih htable)

section

variable {table : List (Text × Text)} (hsingle : SingleGlyphs table)

include hsingle

theorem replaceGlyphs_append (t u : Text) :
    replaceGlyphs table (t ++ u) = replaceGlyphs table t ++ replaceGlyphs table u := by
  induction hsingle generalizing t u with
  | nil => rfl
  | cons g symbol _ ih => simp only [replaceGlyphs_cons, List.flatMap_append, ih]

theorem replaceGlyphs_empty : replaceGlyphs table [] = [] := by
  induction hsingle with
  | nil => rfl
  | cons g symbol _ ih => rw [replaceGlyphs_cons, List.flatMap_nil, ih]

/-- The table goes through the text character by character. -/
theorem replaceGlyphs_eq_flatMap (t : Text) :
    replaceGlyphs table t = t.flatMap fun c => replaceGlyphs table [c] := by
  induction t with
  | nil => exact replaceGlyphs_empty hsingle
  | cons c t ih =>
    rw [← List.singleton_append, replaceGlyphs_append hsingle, ih, List.singleton_append,
      List.flatMap_cons]

/-- A character that is no glyph stays as it is. -/
theorem replaceGlyphs_singleton_of_notMem {c : Char} (h : [c] ∉ table.map Prod.fst) :
    replaceGlyphs table [c] = [c] := by
  induction hsingle with
  | nil => rfl
  | cons g symbol _ ih =>
    rw [List.map_cons, List.mem_cons, not_or] at h
    have hc : c ≠ g := by simpa using h.1
    rw [replaceGlyphs_cons, List.flatMap_singleton, if_neg hc, ih h.2]

/-- A text without glyphs stays as it is. -/
theorem replaceGlyphs_of_notMem {t : Text} (h : ∀ c ∈ t, [c] ∉ table.map Prod.fst) :
    replaceGlyphs table t = t := by
  rw [replaceGlyphs_eq_flatMap hsingle]
  induction t with
  | nil => rfl
  | cons c t ih =>
    obtain ⟨hc, ht⟩ := List.forall_mem_cons.mp h
    rw [List.flatMap_cons, replaceGlyphs_singleton_of_notMem hsingle hc, ih ht,
      List.singleton_append]

end

/-! ### Settled tables -/

/-- The glyphs of the table are different characters, and no replacement holds any of them. -/
structure IsSettled (table : List (Text × Text)) : Prop where
  /-- Every glyph is one character. -/
  length_eq_one : ∀ entry ∈ table, entry.1.length = 1
  /-- No glyph stands twice. -/
  nodup : (table.map Prod.fst).Nodup
  /-- No replacement holds a glyph. -/
  not_infix : ∀ entry ∈ table, ∀ glyph ∈ table.map Prod.fst, ¬glyph <:+: entry.2

instance (table : List (Text × Text)) : Decidable (IsSettled table) :=
  decidable_of_iff (_ ∧ _ ∧ _) ⟨fun ⟨h₁, h₂, h₃⟩ => ⟨h₁, h₂, h₃⟩, fun ⟨h₁, h₂, h₃⟩ => ⟨h₁, h₂, h₃⟩⟩

/-- What a character stands for in a table: its replacement if it is a glyph, or else itself. -/
def standsFor (table : List (Text × Text)) (c : Char) : Text := (table.lookup [c]).getD [c]

namespace IsSettled

variable {table table' : List (Text × Text)}

theorem singleGlyphs (h : IsSettled table) : SingleGlyphs table :=
  singleGlyphs_of_length h.length_eq_one

theorem tail {entry : Text × Text} (h : IsSettled (entry :: table)) : IsSettled table where
  length_eq_one e he := h.length_eq_one e (List.mem_cons_of_mem _ he)
  nodup := h.nodup.of_cons
  not_infix e he glyph hglyph :=
    h.not_infix e (List.mem_cons_of_mem _ he) glyph (List.mem_cons_of_mem _ hglyph)

theorem notMem_of_mem (h : IsSettled table) {entry : Text × Text} (hentry : entry ∈ table)
    {c : Char} (hc : c ∈ entry.2) : [c] ∉ table.map Prod.fst := by
  intro hglyph
  exact h.not_infix entry hentry [c] hglyph ((List.singleton_infix_iff c entry.2).mpr hc)

theorem perm (h : IsSettled table) (hperm : table'.Perm table) : IsSettled table' where
  length_eq_one entry hentry := h.length_eq_one entry (hperm.mem_iff.mp hentry)
  nodup := (hperm.map Prod.fst).nodup_iff.mpr h.nodup
  not_infix entry hentry glyph hglyph :=
    h.not_infix entry (hperm.mem_iff.mp hentry) glyph ((hperm.map Prod.fst).mem_iff.mp hglyph)

end IsSettled

section

variable {table table' : List (Text × Text)} (h : IsSettled table)

include h

theorem lookup_eq_some_iff (glyph symbol : Text) :
    table.lookup glyph = some symbol ↔ (glyph, symbol) ∈ table := by
  constructor
  · intro hlookup
    obtain ⟨before, behind, rfl, -⟩ := List.lookup_eq_some_iff.mp hlookup
    exact List.mem_append_right _ List.mem_cons_self
  · intro hmem
    obtain ⟨before, behind, rfl⟩ := List.append_of_mem hmem
    refine List.lookup_eq_some_iff.mpr ⟨before, behind, rfl, fun entry hentry => ?_⟩
    rw [bne_iff_ne]
    rintro rfl
    have hnodup := h.nodup
    rw [List.map_append, List.map_cons] at hnodup
    exact List.disjoint_of_nodup_append hnodup (List.mem_map_of_mem hentry) List.mem_cons_self

/-- The order of a settled table does not matter. -/
theorem standsFor_perm (hperm : table'.Perm table) (c : Char) :
    standsFor table' c = standsFor table c := by
  have hlookup : table'.lookup [c] = table.lookup [c] := by
    ext symbol
    rw [lookup_eq_some_iff h, lookup_eq_some_iff (h.perm hperm), hperm.mem_iff]
  rw [standsFor, standsFor, hlookup]

theorem notMem_of_mem_standsFor {c d : Char} (hd : d ∈ standsFor table c) :
    [d] ∉ table.map Prod.fst := by
  unfold standsFor at hd
  cases hlookup : table.lookup [c] with
  | none =>
    rw [hlookup] at hd
    obtain rfl : d = c := List.mem_singleton.mp hd
    intro hmem
    obtain ⟨entry, hentry, hglyph⟩ := List.mem_map.mp hmem
    have hne := List.lookup_eq_none_iff.mp hlookup entry hentry
    simp [hglyph] at hne
  | some symbol =>
    rw [hlookup] at hd
    exact h.notMem_of_mem ((lookup_eq_some_iff h _ _).mp hlookup) hd

/-- In a settled table a replacement is final. -/
theorem replaceGlyphs_singleton (c : Char) : replaceGlyphs table [c] = standsFor table c := by
  induction table with
  | nil => rfl
  | cons entry table ih =>
    obtain ⟨glyph, symbol⟩ := entry
    obtain ⟨g, rfl⟩ := List.length_eq_one_iff.mp (h.length_eq_one _ List.mem_cons_self)
    rw [replaceGlyphs_cons, List.flatMap_singleton]
    by_cases hc : c = g
    · have hfinal : ∀ d ∈ symbol, [d] ∉ table.map Prod.fst := fun d hd hmem =>
        h.notMem_of_mem List.mem_cons_self hd (List.mem_cons_of_mem _ hmem)
      rw [if_pos hc, hc, replaceGlyphs_of_notMem h.tail.singleGlyphs hfinal, standsFor,
        List.lookup_cons_self, Option.getD_some]
    · have hkey : ([c] == [g]) = false := by simpa using hc
      rw [if_neg hc, ih h.tail, standsFor, standsFor, List.lookup_cons, hkey]

end

/-! ### Sanitizing in one pass -/

theorem isSettled_standard : IsSettled Settings.standard.glyphs := by decide

section

variable {s : Settings} (h : IsSettled s.glyphs)

include h

/-- Each character gives what it stands for, less the blanks. -/
theorem sanitize_eq_flatMap (t : Text) :
    sanitize s t = t.flatMap fun c => (standsFor s.glyphs c).squeeze := by
  have hpass (c : Char) : replaceGlyphs s.glyphs [c] = standsFor s.glyphs c :=
    replaceGlyphs_singleton h c
  rw [sanitize_eq_squeeze, replaceGlyphs_eq_flatMap h.singleGlyphs, Text.squeeze,
    List.filter_flatMap]
  simp only [hpass, Text.squeeze]

/-- Nothing that sanitizing leaves is a glyph or a blank. -/
theorem of_mem_sanitize {t : Text} {c : Char} (hc : c ∈ sanitize s t) :
    [c] ∉ s.glyphs.map Prod.fst ∧ isBlank c = false := by
  rw [sanitize_eq_flatMap h, List.mem_flatMap] at hc
  obtain ⟨d, -, hd⟩ := hc
  obtain ⟨hread, hblank⟩ := List.mem_filter.mp hd
  exact ⟨notMem_of_mem_standsFor h hread, by simpa using hblank⟩

theorem sanitize_sanitize (t : Text) : sanitize s (sanitize s t) = sanitize s t := by
  have hkept : replaceGlyphs s.glyphs (sanitize s t) = sanitize s t :=
    replaceGlyphs_of_notMem h.singleGlyphs fun c hc => (of_mem_sanitize h hc).1
  rw [sanitize_eq_squeeze, hkept, Text.squeeze, List.filter_eq_self]
  intro c hc
  rw [(of_mem_sanitize h hc).2]
  rfl

end

/-- **Sanitizing under a settled table is a single pass**, whatever the order of the table.  So it
goes through a text part by part, and a second time it changes nothing.  The usual table is
settled. -/
theorem sanitize_of_isSettled :
    IsSettled Settings.standard.glyphs ∧
    ∀ s : Settings, IsSettled s.glyphs →
      (∀ t, sanitize s t = t.flatMap fun c => (standsFor s.glyphs c).squeeze) ∧
      (∀ s' : Settings, s'.glyphs.Perm s.glyphs → ∀ t, sanitize s' t = sanitize s t) ∧
      (∀ t u, sanitize s (t ++ u) = sanitize s t ++ sanitize s u) ∧
      ∀ t, sanitize s (sanitize s t) = sanitize s t := by
  refine ⟨isSettled_standard, fun s h => ⟨sanitize_eq_flatMap h, ?_, ?_, sanitize_sanitize h⟩⟩
  · intro s' hperm t
    have hread : standsFor s'.glyphs = standsFor s.glyphs := funext (standsFor_perm h hperm)
    rw [sanitize_eq_flatMap h, sanitize_eq_flatMap (h.perm hperm), hread]
  · intro t u
    simp only [sanitize_eq_flatMap h, List.flatMap_append]

/-- A table in which a blank is a glyph that stands for several characters, and another glyph for
none. -/
def spaceTable : List (Text × Text) := [([' '], ['+', '\t', '1']), (['#'], []), (['−'], ['-'])]

/-- The space is read as a glyph, not as a blank, and the tabulator that it stands for is dropped
like the one in the text. -/
theorem sanitize_of_isSettled_space :
    IsSettled spaceTable ∧
      sanitize { Settings.standard with glyphs := spaceTable } "2 #\t−3".toList = "2+1-3".toList ∧
      sanitize { Settings.standard with glyphs := spaceTable.reverse } "2 #\t−3".toList =
        "2+1-3".toList ∧
      sanitize { Settings.standard with glyphs := spaceTable } "2+1-3".toList = "2+1-3".toList := by
  have hsettled : IsSettled spaceTable := by decide
  obtain ⟨-, hall⟩ := sanitize_of_isSettled
  obtain ⟨hpass, hperm, -, hagain⟩ := hall { Settings.standard with glyphs := spaceTable } hsettled
  have hresult : sanitize { Settings.standard with glyphs := spaceTable } "2 #\t−3".toList =
      "2+1-3".toList := by
    rw [hpass]
    decide
  refine ⟨hsettled, hresult, ?_, ?_⟩
  · rw [hperm { Settings.standard with glyphs := spaceTable.reverse } (List.reverse_perm _),
      hresult]
  · rw [← hresult, hagain]

end Calculator
