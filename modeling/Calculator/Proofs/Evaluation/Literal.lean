import Calculator.Proofs.Binary64.Rounded
import Calculator.Proofs.Evaluation.Transliteration
import Calculator.Proofs.Numeral.Canonical

/-!
# The numbers of an expression

The texts that numbers can have in an expression are the runs of digits and points, without
exception (`isNumberText_iff`), and the parser of numbers can read all of them but those without a
digit and those with several points.  What it reads is what the digits denote (`denotedValue`),
rounded once: `IsRounded` holds of the result whatever the length of the run, so also where digits
beyond the precision decide between two neighbours, below the least normal number and beyond the
greatest one (`isRounded_literalValue`).
-/

namespace Calculator

/-- Some text has a number of this spelling among its tokens. -/
def IsNumberText (run : Text) : Prop :=
  ∃ text n, Token.number n ∈ tokenize text ∧ n.literal = some run

/-- The digits of a run as a decimal number, those behind its point as decimal places. -/
def denotedValue (run : Text) : ℚ :=
  (Nat.ofDigits 10 (digitsOf run).reverse : ℕ) / 10 ^ placesOf run

theorem isNumberChar_iff (c : Char) :
    isNumberChar c = true ↔ isDecimalDigit c = true ∨ c = '.' := by
  rw [isNumberChar, Bool.or_eq_true, beq_iff_eq]

theorem isNumberText_iff (run : Text) :
    IsNumberText run ↔ run ≠ [] ∧ ∀ c ∈ run, isNumberChar c = true := by
  constructor
  · rintro ⟨text, n, hn, hliteral⟩
    have husual := isUsual_of_mem_tokenize hn
    generalize ht : Token.number n = t at husual
    cases husual with
    | literal hne h =>
      obtain rfl := Token.number.inj ht
      obtain rfl := Option.some.inj hliteral
      exact ⟨hne, h⟩
    | kind | openParen | closeParen => cases ht
  · rintro ⟨hne, h⟩
    -- a run is the only token of itself
    refine ⟨run, ⟨run, none⟩, ?_, rfl⟩
    have htokens := tokensFrom_run hne h endsRun_nil true
    rw [List.append_nil] at htokens
    show Token.ofLiteral run ∈ tokensFrom true run
    rw [htokens]
    exact List.mem_cons_self

theorem isMalformed_iff (run : Text) :
    isMalformed run = true ↔ (∀ c ∈ run, isDecimalDigit c = false) ∨ 2 ≤ run.count '.' := by
  simp [isMalformed]

theorem magnitude_decimalOf (run : Text) : (decimalOf run).magnitude = denotedValue run := by
  show (digitsValue (digitsOf run) : ℚ) * 10 ^ (-(placesOf run : ℤ)) = _
  rw [denotedValue, ← digitsValue_eq_ofDigits, zpow_neg, zpow_natCast, ← div_eq_mul_inv]

/-- A run is read as what it denotes, rounded once. -/
theorem isRounded_literalValue (run : Text) :
    (literalValue run).IsRounded (denotedValue run) := by
  have h := (decimalOf run).toBinary64_eq_nearest
  rw [magnitude_decimalOf] at h
  show (decimalOf run).toBinary64.IsRounded _
  rw [h]
  exact Binary64.isRounded_nearest (magnitude_decimalOf run ▸ (decimalOf run).magnitude_nonneg)

/-- **What the numbers of an expression are worth.**  They are written as runs of digits and points,
and any such run may occur.  Without a digit or with several points it has no value; otherwise it
has the one that it denotes is rounded to.  In what script its digits are written makes no
difference to an expression, unless a digit is a glyph, which none is in the usual table. -/
theorem readNumber_correctly_rounded :
    (∀ run, IsNumberText run ↔ run ≠ [] ∧ ∀ c ∈ run, isDecimalDigit c = true ∨ c = '.') ∧
    (∀ run, IsNumberText run →
      (Evaluation.readNumber run = .error (.malformedNumber run) ↔
        (∀ c ∈ run, isDecimalDigit c = false) ∨ 2 ≤ run.count '.') ∧
      (¬((∀ c ∈ run, isDecimalDigit c = false) ∨ 2 ≤ run.count '.') →
        ∃ x, Evaluation.readNumber run = .ok x ∧
          ∀ y : Binary64, y.IsRounded (denotedValue run) ↔ y = x)) ∧
    DigitFree Settings.standard.glyphs ∧
    ∀ s : Settings, DigitFree s.glyphs → ∀ text text', Transliterates text text' →
      (evaluate s text).outcome.toOption = (evaluate s text').outcome.toOption := by
  refine ⟨fun run => ?_, fun run hrun => ?_, digitFree_standard, ?_⟩
  · simp only [isNumberText_iff, isNumberChar_iff]
  · obtain ⟨hne, h⟩ := (isNumberText_iff run).mp hrun
    rw [Evaluation.readNumber_of_isNumberChar hne h, ← isMalformed_iff]
    cases isMalformed run with
    | true => exact ⟨by simp, fun hnot => absurd rfl hnot⟩
    | false =>
      refine ⟨by simp, fun _ => ⟨literalValue run, rfl, fun y => ?_⟩⟩
      have hrounded := isRounded_literalValue run
      constructor
      · exact fun hy => hy.unique hrounded
      · rintro rfl
        exact hrounded
  · intro s hs text text' h
    exact toOption_evaluate_of_transliterates hs h

/-- Between two numbers the significand that is even decides, and a digit of another script counts
like any other. -/
theorem readNumber_correctly_rounded_halfway :
    Evaluation.readNumber "1.٢.3".toList = .error (.malformedNumber "1.٢.3".toList) ∧
      Evaluation.readNumber "٩007199254740993.".toList =
        .ok (.finite false 0x10000000000000 1075 (by decide)) ∧
      (Binary64.finite false 0x10000000000000 1075 (by decide)).IsRounded 9007199254740993 ∧
      (evaluate .standard "1٢+٣".toList).outcome.toOption =
        (evaluate .standard "12+3".toList).outcome.toOption := by
  obtain ⟨-, hvalues, husual, hscripts⟩ := readNumber_correctly_rounded
  have htwo : IsNumberText "1.٢.3".toList :=
    (isNumberText_iff _).mpr ⟨by decide, List.all_eq_true.mp (by decide)⟩
  have hrun : ∀ c ∈ "٩007199254740993.".toList, isNumberChar c = true :=
    List.all_eq_true.mp (by decide)
  have hone : IsNumberText "٩007199254740993.".toList :=
    (isNumberText_iff _).mpr ⟨by decide, hrun⟩
  have hdenoted : denotedValue "٩007199254740993.".toList = 9007199254740993 := by
    have hdigits : Nat.ofDigits 10 (digitsOf "٩007199254740993.".toList).reverse =
        9007199254740993 := by decide
    have hplaces : placesOf "٩007199254740993.".toList = 0 := by decide
    rw [denotedValue, hdigits, hplaces, pow_zero, div_one, Nat.cast_ofNat]
  have hread : Evaluation.readNumber "٩007199254740993.".toList =
      .ok (.finite false 0x10000000000000 1075 (by decide)) := by
    rw [Evaluation.readNumber_of_isNumberChar (by decide) hrun]
    decide +kernel
  refine ⟨?_, hread, ?_, ?_⟩
  · exact (hvalues _ htwo).1.mpr (.inr (by decide))
  · obtain ⟨x, hx, hrounded⟩ := (hvalues _ hone).2 ((isMalformed_iff _).not.mp (by decide))
    rw [hread] at hx
    rw [← hdenoted]
    exact (hrounded _).mpr (Except.ok.inj hx)
  · exact hscripts .standard husual _ _ (by decide)

end Calculator
