import Calculator.Display
import Calculator.Proofs.Numeral.Positional

/-!
# Characters of displayed results

Every number has a text under the usual settings (`exists_displayResult`).  The text is made of
digits, points and minus signs or is one of the names, so it holds no blank, no equals sign and no
letter of the text that stands for an error (`mem_displayResult`).
-/

namespace Calculator

theorem display_of_isFinite (s : Settings) {x : Binary64} (hx : x.isFinite = true) (p : ℕ) :
    display s p x = .ok (x.toDecimal p).toText := by
  cases x with
  | nan | infinity => simp [Binary64.isFinite] at hx
  | finite =>
    unfold display
    rw [if_neg (Int.not_lt.mpr (Int.natCast_nonneg p)), Int.toNat_natCast]

/-- A finite number is displayed with at most eight decimal places. -/
theorem displayResult_of_isFinite {x : Binary64} (hx : x.isFinite = true) :
    displayResult .standard x = .ok (x.toDecimal 8).toText :=
  display_of_isFinite .standard hx 8

theorem exists_displayResult (x : Binary64) : ∃ text, displayResult .standard x = .ok text := by
  cases x with
  | nan => exact ⟨"NaN".toList, rfl⟩
  | infinity negative => exact ⟨if negative then ['-', '∞'] else ['∞'], rfl⟩
  | finite => exact ⟨_, displayResult_of_isFinite rfl⟩

/-- The characters of a sign and of the names. -/
def nameChars : List Char := ['-', 'N', 'a', '∞']

theorem mem_displayResult {x : Binary64} {text : Text} (h : displayResult .standard x = .ok text) :
    ∀ c ∈ text, isNumberChar c = true ∨ c ∈ nameChars := by
  cases x with
  | nan =>
    obtain rfl : "NaN".toList = text := Except.ok.inj h
    have hname : ∀ c ∈ "NaN".toList, c ∈ nameChars := by simp [nameChars]
    exact fun c hc => .inr (hname c hc)
  | infinity negative =>
    obtain rfl : (if negative then ['-', '∞'] else ['∞']) = text := Except.ok.inj h
    have hname : ∀ c ∈ ['-', '∞'], c ∈ nameChars := by simp [nameChars]
    intro c hc
    cases negative with
    | true => exact .inr (hname c hc)
    | false => exact .inr (hname c (List.mem_cons_of_mem _ hc))
  | finite negative m s canonical =>
    rw [displayResult_of_isFinite rfl] at h
    obtain rfl := Except.ok.inj h
    intro c hc
    rcases Decimal.mem_toText _ c hc with rfl | hnumber
    · exact .inr (by decide)
    · exact .inl hnumber

theorem notMem_displayResult {x : Binary64} {text : Text}
    (h : displayResult .standard x = .ok text) {c : Char} (hc : isNumberChar c = false)
    (hname : c ∉ nameChars) : c ∉ text := by
  intro hmem
  rcases mem_displayResult h c hmem with hnumber | hc'
  · rw [hc] at hnumber
    exact absurd hnumber (by decide)
  · exact hname hc'

end Calculator
