import Calculator.Text.Utf8
import Mathlib.Data.List.Basic
import Mathlib.Tactic.SplitIfs

/-!
# Decoding what was encoded

The bytes of a text are decoded to the text (`decode_encode`), wherever the blocks of the file cut
it.  Of the encoding itself only what `IsEncoding` says is needed: that its leading byte tells its
length, that the other bytes may follow, and that it stands for its character.
-/

namespace Calculator.Utf8

/-- The bytes of a text. -/
def encode (t : Text) : List UInt8 := t.flatMap String.utf8EncodeChar

/-! ### Encodings of single characters -/

/-- The bytes are taken for the character `c` when they are decoded one by one. -/
structure IsEncoding (bytes : List UInt8) (c : Char) : Prop where
  /-- The leading byte tells how many there are. -/
  width_head : ∀ lead ∈ bytes.head?, width? lead = some bytes.length
  /-- What has begun is carried on by the next byte. -/
  continues_of_prefix : ∀ lead more b, lead :: more ++ [b] <+: bytes →
    beginsSurrogate (lead :: more) = false ∧ continues (lead :: more) b = true
  /-- All of them together are the character. -/
  charOf_eq : charOf bytes = c

theorem width?_eq (lead : UInt8) :
    width? lead =
      if lead.toNat < 0x80 then some 1
      else if 0xC2 ≤ lead.toNat ∧ lead.toNat ≤ 0xDF then some 2
      else if 0xE0 ≤ lead.toNat ∧ lead.toNat ≤ 0xEF then some 3
      else if 0xF0 ≤ lead.toNat ∧ lead.toNat ≤ 0xF4 then some 4
      else none := rfl

/-- A byte behind a leading byte. -/
def IsTrailing (b : UInt8) : Prop := 0x80 ≤ b.toNat ∧ b.toNat ≤ 0xBF

/-- A byte that may follow a leading byte immediately. -/
structure MayFollow (lead b : UInt8) : Prop where
  isTrailing : IsTrailing b
  of_eq_E0 : lead.toNat = 0xE0 → 0xA0 ≤ b.toNat
  of_eq_ED : lead.toNat = 0xED → b.toNat ≤ 0x9F
  of_eq_F0 : lead.toNat = 0xF0 → 0x90 ≤ b.toNat
  of_eq_F4 : lead.toNat = 0xF4 → b.toNat ≤ 0x8F

theorem continues_of_mayFollow {lead b : UInt8} (h : MayFollow lead b) :
    continues [lead] b = true := by
  obtain ⟨⟨hlow, hhigh⟩, hE0, hED, hF0, hF4⟩ := h
  simp only [continues, secondRange, Bool.and_eq_true, decide_eq_true_eq, UInt8.le_iff_toNat_le,
    ← UInt8.toNat_inj]
  split_ifs with h₁ h₂ h₃ h₄
  · exact ⟨hE0 h₁, hhigh⟩
  · exact ⟨hlow, hED h₂⟩
  · exact ⟨hF0 h₃, hhigh⟩
  · exact ⟨hlow, hF4 h₄⟩
  · exact ⟨hlow, hhigh⟩

theorem continues_of_isTrailing {lead second b : UInt8} {more : List UInt8} (h : IsTrailing b) :
    continues (lead :: second :: more) b = true := by
  simpa [continues, UInt8.le_iff_toNat_le] using And.intro h.1 h.2

theorem beginsSurrogate_of_mayFollow {lead b : UInt8} (h : MayFollow lead b) :
    beginsSurrogate [lead, b] = false := by
  rw [Bool.eq_false_iff]
  intro hsurrogate
  simp only [beginsSurrogate, Bool.and_eq_true, beq_iff_eq, decide_eq_true_eq,
    UInt8.le_iff_toNat_le, ← UInt8.toNat_inj] at hsurrogate
  obtain ⟨⟨hlead, hlow⟩, -⟩ := hsurrogate
  exact absurd (Nat.le_trans hlow (h.of_eq_ED hlead)) (by decide)

section

variable {c : Char} {lead second third fourth : UInt8}

theorem isEncoding_one (hlead : lead.toNat < 0x80) (hc : c.toNat = lead.toNat) :
    IsEncoding [lead] c where
  width_head := by
    rintro _ ⟨⟩
    exact if_pos hlead
  continues_of_prefix first more b h := by simpa using h.length_le
  charOf_eq := by
    show Char.ofNat lead.toNat = c
    rw [← hc, Char.ofNat_toNat]

/-- Behind its leading byte, only the second byte of an encoding is restricted further. -/
theorem isEncoding_cons_cons {rest : List UInt8} (hwidth : width? lead = some (rest.length + 2))
    (hsecond : MayFollow lead second) (hrest : ∀ b ∈ rest, IsTrailing b)
    (hc : charOf (lead :: second :: rest) = c) : IsEncoding (lead :: second :: rest) c where
  width_head := by
    rintro _ ⟨⟩
    exact hwidth
  continues_of_prefix first more b h := by
    rw [List.cons_append, List.cons_prefix_cons] at h
    obtain ⟨rfl, h⟩ := h
    cases more with
    | nil =>
      obtain ⟨rfl, -⟩ := List.cons_prefix_cons.mp h
      exact ⟨rfl, continues_of_mayFollow hsecond⟩
    | cons x more =>
      -- two bytes have begun, and only they can be taken for a surrogate
      rw [List.cons_append, List.cons_prefix_cons] at h
      obtain ⟨rfl, h⟩ := h
      have hb : b ∈ rest := h.subset (by simp)
      refine ⟨?_, continues_of_isTrailing (hrest b hb)⟩
      cases more with
      | nil => exact beginsSurrogate_of_mayFollow hsecond
      | cons y more => rfl
  charOf_eq := hc

theorem isEncoding_two (hlead : 0xC2 ≤ lead.toNat ∧ lead.toNat ≤ 0xDF)
    (hsecond : MayFollow lead second)
    (hc : c.toNat = lead.toNat % 32 * 64 + second.toNat % 64) : IsEncoding [lead, second] c := by
  apply isEncoding_cons_cons _ hsecond (by simp)
  · show Char.ofNat (lead.toNat % 32 * 64 + second.toNat % 64) = c
    rw [← hc, Char.ofNat_toNat]
  · rw [width?_eq, if_neg (by omega), if_pos hlead]
    rfl

theorem isEncoding_three (hlead : 0xE0 ≤ lead.toNat ∧ lead.toNat ≤ 0xEF)
    (hsecond : MayFollow lead second) (hthird : IsTrailing third)
    (hc : c.toNat = (lead.toNat % 16 * 64 + second.toNat % 64) * 64 + third.toNat % 64) :
    IsEncoding [lead, second, third] c := by
  apply isEncoding_cons_cons _ hsecond (by simpa using hthird)
  · show Char.ofNat ((lead.toNat % 16 * 64 + second.toNat % 64) * 64 + third.toNat % 64) = c
    rw [← hc, Char.ofNat_toNat]
  · rw [width?_eq, if_neg (by omega), if_neg (by omega), if_pos hlead]
    rfl

theorem isEncoding_four (hlead : 0xF0 ≤ lead.toNat ∧ lead.toNat ≤ 0xF4)
    (hsecond : MayFollow lead second) (hthird : IsTrailing third) (hfourth : IsTrailing fourth)
    (hc : c.toNat = ((lead.toNat % 8 * 64 + second.toNat % 64) * 64 + third.toNat % 64) * 64 +
      fourth.toNat % 64) :
    IsEncoding [lead, second, third, fourth] c := by
  apply isEncoding_cons_cons _ hsecond (by simpa using And.intro hthird hfourth)
  · show Char.ofNat (((lead.toNat % 8 * 64 + second.toNat % 64) * 64 + third.toNat % 64) * 64 +
      fourth.toNat % 64) = c
    rw [← hc, Char.ofNat_toNat]
  · rw [width?_eq, if_neg (by omega), if_neg (by omega), if_neg (by omega), if_pos hlead]
    rfl

end

theorem toNat_trailing (n : ℕ) : (UInt8.ofNat (n % 64 + 128)).toNat = n % 64 + 128 := by
  rw [UInt8.toNat_ofNat']
  omega

theorem isTrailing_ofNat (n : ℕ) : IsTrailing (UInt8.ofNat (n % 64 + 128)) := by
  unfold IsTrailing
  rw [toNat_trailing]
  omega

/-- The bytes of every character are taken for it. -/
theorem isEncoding_utf8EncodeChar (c : Char) : IsEncoding (String.utf8EncodeChar c) c := by
  have hvalid : c.toNat < 0xD800 ∨ 0xDFFF < c.toNat ∧ c.toNat < 0x110000 := c.valid
  have hval : c.val.toNat = c.toNat := rfl
  have hlast := toNat_trailing c.toNat
  have hthird := toNat_trailing (c.toNat / 64)
  have hsecond := toNat_trailing (c.toNat / 4096)
  unfold String.utf8EncodeChar
  dsimp only
  rw [hval]
  split_ifs with h₁ h₂ h₃
  · have hlead : (UInt8.ofNat c.toNat).toNat = c.toNat := by
      rw [UInt8.toNat_ofNat']
      omega
    apply isEncoding_one <;> omega
  · have hlead : (UInt8.ofNat (c.toNat / 64 % 32 + 192)).toNat = c.toNat / 64 + 192 := by
      rw [UInt8.toNat_ofNat']
      omega
    apply isEncoding_two
    · omega
    · constructor
      · exact isTrailing_ofNat _
      all_goals omega
    · omega
  · have hlead : (UInt8.ofNat (c.toNat / 4096 % 16 + 224)).toNat = c.toNat / 4096 + 224 := by
      rw [UInt8.toNat_ofNat']
      omega
    apply isEncoding_three
    · omega
    · -- two ranges of second bytes are narrower: for short encodings and for surrogates
      constructor
      · exact isTrailing_ofNat _
      all_goals omega
    · exact isTrailing_ofNat _
    · omega
  · have hlead : (UInt8.ofNat (c.toNat / 262144 % 8 + 240)).toNat = c.toNat / 262144 + 240 := by
      rw [UInt8.toNat_ofNat']
      omega
    apply isEncoding_four
    · omega
    · constructor
      · exact isTrailing_ofNat _
      all_goals omega
    · exact isTrailing_ofNat _
    · exact isTrailing_ofNat _
    · omega

/-! ### Blocks -/

section

variable {bytes begun : List UInt8} {c : Char} {b : UInt8} (h : IsEncoding bytes c)

include h

/-- A byte that does not complete its character is added to what has begun. -/
theorem decodeBlock_incomplete {behind : List UInt8} (hbytes : bytes = begun ++ b :: behind)
    (hbehind : behind ≠ []) (rest : List UInt8) (place : ℕ) :
    decodeBlock (b :: rest) ⟨begun, place⟩ = decodeBlock rest ⟨begun ++ [b], place⟩ := by
  have hpositive : 0 < behind.length := List.length_pos_iff.mpr hbehind
  cases begun with
  | nil =>
    have hwidth := h.width_head b (by rw [hbytes]; rfl)
    obtain ⟨k, hk⟩ : ∃ k, bytes.length = k + 2 := by
      refine ⟨behind.length - 1, ?_⟩
      rw [hbytes, List.nil_append, List.length_cons]
      omega
    rw [hk] at hwidth
    rw [decodeBlock]
    dsimp only
    rw [hwidth]
    rfl
  | cons lead more =>
    have hwidth := h.width_head lead (by rw [hbytes]; rfl)
    obtain ⟨hsurrogate, hcontinues⟩ := h.continues_of_prefix lead more b
      ⟨behind, by rw [hbytes, List.append_assoc]; rfl⟩
    have hne : width? lead ≠ some (lead :: more ++ [b]).length := by
      rw [hwidth, hbytes, Ne, Option.some.injEq]
      simp only [List.length_append, List.length_cons, List.length_nil]
      omega
    rw [decodeBlock]
    dsimp only
    rw [if_neg (by simp [hsurrogate]), if_pos hcontinues, if_neg hne]

/-- The last byte of a character completes it. -/
theorem decodeBlock_complete (hbytes : bytes = begun ++ [b]) {rest carried : List UInt8} {t : Text}
    {place : ℕ} (hrest : decodeBlock rest ⟨[], place + bytes.length⟩ = .ok (t, carried)) :
    decodeBlock (b :: rest) ⟨begun, place⟩ = .ok (c :: t, carried) := by
  have hchar := h.charOf_eq
  rw [hbytes] at hchar hrest
  cases begun with
  | nil =>
    have hwidth : width? b = some 1 := by
      rw [h.width_head b (by rw [hbytes]; rfl), hbytes]
      rfl
    rw [decodeBlock]
    dsimp only
    rw [hwidth]
    have hrest : decodeBlock rest ⟨[], place + 1⟩ = .ok (t, carried) := hrest
    simp only [hrest]
    rw [← hchar]
    rfl
  | cons lead more =>
    have hwidth := h.width_head lead (by rw [hbytes]; rfl)
    rw [hbytes] at hwidth
    obtain ⟨hsurrogate, hcontinues⟩ := h.continues_of_prefix lead more b ⟨[], by simp [hbytes]⟩
    rw [decodeBlock]
    dsimp only
    rw [if_neg (by simp [hsurrogate]), if_pos hcontinues, if_pos hwidth, hrest, hchar]
    rfl

end

/-- Only a beginning of the first character of a text is there already. -/
def IsBegun (begun : List UInt8) (t : Text) : Prop :=
  ∀ c ∈ t.head?, begun.length < (String.utf8EncodeChar c).length

theorem isBegun_nil (t : Text) : IsBegun [] t := by
  intro c _
  rw [String.length_utf8EncodeChar]
  exact c.utf8Size_pos

theorem encode_cons (c : Char) (t : Text) : encode (c :: t) = String.utf8EncodeChar c ++ encode t :=
  List.flatMap_cons

/-- The next byte belongs to the first character of the text. -/
theorem exists_utf8EncodeChar_eq {begun rest : List UInt8} {b : UInt8} {c : Char} {t : Text}
    (hbytes : begun ++ b :: rest = encode (c :: t)) (hbegun : IsBegun begun (c :: t)) :
    ∃ behind, String.utf8EncodeChar c = begun ++ b :: behind ∧ rest = behind ++ encode t := by
  have hlength := hbegun c rfl
  rw [encode_cons] at hbytes
  rcases List.append_eq_append_iff.mp hbytes with ⟨tail, hchar, hstream⟩ | ⟨tail, hchar, -⟩
  · cases tail with
    | nil => simp [hchar] at hlength
    | cons d behind =>
      rw [List.cons_append, List.cons.injEq] at hstream
      exact ⟨behind, by rw [hchar, hstream.1], hstream.2⟩
  · rw [hchar, List.length_append] at hlength
    omega

/-- What a block holds of a text is decoded, up to the character that its end cuts off. -/
theorem exists_decodeBlock (block : List UInt8) {begun later : List UInt8} {t : Text}
    (hbytes : begun ++ (block ++ later) = encode t) (hbegun : IsBegun begun t) (place : ℕ) :
    ∃ before behind carried, t = before ++ behind ∧
      decodeBlock block ⟨begun, place⟩ = .ok (before, carried) ∧
      carried ++ later = encode behind ∧ IsBegun carried behind := by
  induction block generalizing begun t place with
  | nil => exact ⟨[], t, begun, rfl, rfl, hbytes, hbegun⟩
  | cons b rest ih =>
    cases t with
    | nil => simp [encode] at hbytes
    | cons c t =>
      have hencoding := isEncoding_utf8EncodeChar c
      obtain ⟨behind, hchar, hstream⟩ := exists_utf8EncodeChar_eq hbytes hbegun
      have hstream : rest ++ later = behind ++ encode t := hstream
      by_cases hbehind : behind = []
      · -- the byte completes its character
        rw [hbehind] at hchar hstream
        have hnext : [] ++ (rest ++ later) = encode t := hstream
        obtain ⟨before, behind, carried, rfl, hrest, hlater, hcarried⟩ :=
          ih hnext (isBegun_nil t) (place + (String.utf8EncodeChar c).length)
        exact ⟨c :: before, behind, carried, rfl, decodeBlock_complete hencoding hchar hrest, hlater,
          hcarried⟩
      · -- the character goes on, perhaps in the next block
        rw [decodeBlock_incomplete hencoding hchar hbehind]
        apply ih
        · rw [List.append_assoc, encode_cons, hchar, hstream]
          simp
        · intro d hd
          obtain rfl : c = d := Option.some.inj hd
          have hpositive := List.length_pos_iff.mpr hbehind
          simp only [hchar, List.length_append, List.length_cons, List.length_nil]
          omega

/-- Blocks are decoded as if they were one. -/
theorem decodeBlocks_of_flatten {blocks : List (List UInt8)} {carried : List UInt8} {t : Text}
    (hbytes : carried ++ blocks.flatten = encode t) (hbegun : IsBegun carried t) :
    decodeBlocks blocks carried = .ok t := by
  induction blocks generalizing carried t with
  | nil =>
    rw [List.flatten_nil, List.append_nil] at hbytes
    cases t with
    | nil => rw [hbytes]; rfl
    | cons c t =>
      have hlength := hbegun c rfl
      rw [hbytes, encode_cons, List.length_append] at hlength
      omega
  | cons block blocks ih =>
    rw [List.flatten_cons] at hbytes
    obtain ⟨before, behind, carried', rfl, hblock, hrest, hbegun'⟩ :=
      exists_decodeBlock block hbytes hbegun 0
    rw [decodeBlocks, hblock]
    show (do let more ← decodeBlocks blocks carried'; return before ++ more) = _
    rw [ih hrest hbegun']
    rfl

theorem flatten_blocks {count : ℕ} {bytes : List UInt8} (h : bytes.length ≤ count * blockSize) :
    (blocks count bytes).flatten = bytes := by
  induction count generalizing bytes with
  | zero =>
    rw [Nat.zero_mul, Nat.le_zero, List.length_eq_zero_iff] at h
    rw [h]
    rfl
  | succ count ih =>
    rw [blocks]
    split
    · rename_i hempty
      rw [List.isEmpty_iff.mp hempty]
      rfl
    · have hdrop : (bytes.drop blockSize).length ≤ count * blockSize := by
        rw [List.length_drop]
        rw [Nat.succ_mul] at h
        omega
      rw [List.flatten_cons, ih hdrop, List.take_append_drop]

/-- **Decoding the bytes of a text gives the text.** -/
theorem decode_encode (t : Text) : decode (encode t) = .ok t := by
  unfold decode
  refine decodeBlocks_of_flatten ?_ (isBegun_nil t)
  rw [List.nil_append]
  apply flatten_blocks
  have hdiv := Nat.lt_div_mul_add (a := (encode t).length) (b := blockSize) (by decide)
  rw [Nat.succ_mul]
  exact Nat.le_of_lt hdiv

end Calculator.Utf8
