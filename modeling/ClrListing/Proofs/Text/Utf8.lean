/-
UTF-8 is read back as it was written.

The bytes of a character open with that character, whatever stands behind
them (`opening_encodeChar`): the ranges of the second byte leave out the
other ways to write a number, and no character is a surrogate. So the bytes
of a text are read as the text, both by the reader that refuses what is not
UTF-8 and by the one that replaces it. A zero byte is the zero character and
part of no other, so a text without that character ends where a zero byte
first stands.
-/
import ClrListing.Proofs.Machine.Scanner
import ClrListing.Proofs.Source.Placement

namespace ClrListing.Text.Utf8

variable {c : Char} {b : UInt8} {others : List UInt8}

-- ============================================================ openings

section Opening

variable {b₀ b₁ b₂ b₃ : UInt8} (rest : List UInt8)

/-- Whether a byte only goes on, as a range. -/
theorem isContinuation_iff (n : Nat) : isContinuation n = true ↔ 0x80 ≤ n ∧ n < 0xc0 := by
  simp [isContinuation]

theorem opening_one (h : b₀.toNat < 0x80) : opening b₀ rest = .char (Char.ofNat b₀.toNat) 1 :=
  if_pos h

theorem opening_two (h₀ : 0xc2 ≤ b₀.toNat ∧ b₀.toNat < 0xe0)
    (h₁ : isContinuation b₁.toNat = true) :
    opening b₀ (b₁ :: rest)
      = .char (Char.ofNat ((b₀.toNat - 0xc0) * 0x40 + (b₁.toNat - 0x80))) 2 := by
  have hrange : (decide (0xc2 ≤ b₀.toNat) && decide (b₀.toNat < 0xe0)) = true := by simpa using h₀
  unfold opening
  dsimp only
  rw [if_neg (by omega), if_pos hrange]
  exact if_pos h₁

/-- A continuation byte may stand second if it is not too small behind the
least first byte, nor too large behind the greatest. -/
theorem second_fits {first last least most : Nat} (h₁ : isContinuation b₁.toNat = true)
    (hleast : b₀.toNat = first → least ≤ b₁.toNat) (hmost : b₀.toNat = last → b₁.toNat < most) :
    (decide ((if b₀.toNat = first then least else 0x80) ≤ b₁.toNat)
      && decide (b₁.toNat < if b₀.toNat = last then most else 0xc0)) = true := by
  rw [isContinuation_iff] at h₁
  simp only [Bool.and_eq_true, decide_eq_true_eq]
  split <;> split <;> omega

theorem opening_three (h₀ : 0xe0 ≤ b₀.toNat ∧ b₀.toNat < 0xf0)
    (h₁ : isContinuation b₁.toNat = true) (hleast : b₀.toNat = 0xe0 → 0xa0 ≤ b₁.toNat)
    (hmost : b₀.toNat = 0xed → b₁.toNat < 0xa0) (h₂ : isContinuation b₂.toNat = true) :
    opening b₀ (b₁ :: b₂ :: rest)
      = .char (Char.ofNat ((b₀.toNat - 0xe0) * 0x1000 + (b₁.toNat - 0x80) * 0x40
        + (b₂.toNat - 0x80))) 3 := by
  have hrange : (decide (0xe0 ≤ b₀.toNat) && decide (b₀.toNat < 0xf0)) = true := by simpa using h₀
  have hother : ¬ (decide (0xc2 ≤ b₀.toNat) && decide (b₀.toNat < 0xe0)) = true := by
    simp
    omega
  unfold opening
  dsimp only
  rw [if_neg (by omega), if_neg hother, if_pos hrange]
  exact (if_pos (second_fits h₁ hleast hmost)).trans (if_pos h₂)

theorem opening_four (h₀ : 0xf0 ≤ b₀.toNat ∧ b₀.toNat < 0xf5)
    (h₁ : isContinuation b₁.toNat = true) (hleast : b₀.toNat = 0xf0 → 0x90 ≤ b₁.toNat)
    (hmost : b₀.toNat = 0xf4 → b₁.toNat < 0x90) (h₂ : isContinuation b₂.toNat = true)
    (h₃ : isContinuation b₃.toNat = true) :
    opening b₀ (b₁ :: b₂ :: b₃ :: rest)
      = .char (Char.ofNat ((b₀.toNat - 0xf0) * 0x40000 + (b₁.toNat - 0x80) * 0x1000
        + (b₂.toNat - 0x80) * 0x40 + (b₃.toNat - 0x80))) 4 := by
  have hrange : (decide (0xf0 ≤ b₀.toNat) && decide (b₀.toNat < 0xf5)) = true := by simpa using h₀
  have hother : ¬ (decide (0xc2 ≤ b₀.toNat) && decide (b₀.toNat < 0xe0)) = true := by
    simp
    omega
  have hthree : ¬ (decide (0xe0 ≤ b₀.toNat) && decide (b₀.toNat < 0xf0)) = true := by
    simp
    omega
  unfold opening
  dsimp only
  rw [if_neg (by omega), if_neg hother, if_neg hthree, if_pos hrange]
  exact (if_pos (second_fits h₁ hleast hmost)).trans ((if_pos h₂).trans (if_pos h₃))

end Opening

-- ========================================================== characters

/-- The bytes of a character open with it. -/
theorem opening_encodeChar (h : encodeChar c = b :: others) (rest : List UInt8) :
    opening b (others ++ rest) = .char c (others.length + 1) := by
  have hvalid : c.toNat < 0xd800 ∨ 0xdfff < c.toNat ∧ c.toNat < 0x110000 := c.valid
  have hchar : ∀ n, n = c.toNat → Char.ofNat n = c := fun n hn => hn ▸ Char.ofNat_toNat c
  have hbyte : ∀ n < 256, (UInt8.ofNat n).toNat = n := fun n hn => UInt8.toNat_ofNat_of_lt' hn
  have hlow : ∀ k, (UInt8.ofNat (0x80 + k % 0x40)).toNat = 0x80 + k % 0x40 := fun k =>
    hbyte _ (by omega)
  have hgoesOn := Machine.isContinuation_low
  unfold encodeChar at h
  dsimp only at h
  by_cases hone : c.toNat < 0x80
  · rw [if_pos hone] at h
    cases h
    have hfirst := hbyte c.toNat (by omega)
    refine (opening_one _ (by omega)).trans ?_
    rw [hchar _ hfirst]
    rfl
  by_cases htwo : c.toNat < 0x800
  · rw [if_neg hone, if_pos htwo] at h
    cases h
    have hfirst := hbyte (0xc0 + c.toNat / 0x40) (by omega)
    refine (opening_two _ (by omega) (hgoesOn _)).trans ?_
    rw [hfirst, hlow, hchar _ (by omega)]
    rfl
  by_cases hthree : c.toNat < 0x10000
  · rw [if_neg hone, if_neg htwo, if_pos hthree] at h
    cases h
    have hfirst := hbyte (0xe0 + c.toNat / 0x1000) (by omega)
    have hsecond := hlow (c.toNat / 0x40)
    refine (opening_three _ (by omega) (hgoesOn _) (by omega) (by omega) (hgoesOn _)).trans ?_
    rw [hfirst, hlow, hlow, hchar _ (by omega)]
    rfl
  · rw [if_neg hone, if_neg htwo, if_neg hthree] at h
    cases h
    have hfirst := hbyte (0xf0 + c.toNat / 0x40000) (by omega)
    have hsecond := hlow (c.toNat / 0x1000)
    refine (opening_four _ (by omega) (hgoesOn _) (by omega) (by omega) (hgoesOn _)
      (hgoesOn _)).trans ?_
    rw [hfirst, hlow, hlow, hlow, hchar _ (by omega)]
    rfl

/-- No byte of a character is zero, but that of the zero character. -/
theorem zero_mem_encodeChar (h : (0 : UInt8) ∈ encodeChar c) : c = '\x00' := by
  obtain ⟨b, others, hc⟩ := Machine.exists_encodes c
  rw [hc.bytes, List.mem_cons] at h
  rcases h with hb | hothers
  · exact (hc.tells '\x00' (by decide)).mp (hb.symm.trans (by decide))
  · exact absurd (hc.goOn 0 hothers) (by decide)

-- =============================================================== texts

theorem decodeAfter_append (front back : List UInt8) :
    decodeAfter front.length (front ++ back) = decodeAfter 0 back := by
  induction front with
  | nil => rfl
  | cons b front ih => exact ih

theorem decodeLossyAfter_append (front back : List UInt8) :
    decodeLossyAfter front.length (front ++ back) = decodeLossyAfter 0 back := by
  induction front with
  | nil => rfl
  | cons b front ih => exact ih

/-- The bytes of a text are read as the text. -/
theorem decode_encode (s : List Char) : decode (encode s) = some s := by
  induction s with
  | nil => rfl
  | cons c rest ih =>
    obtain ⟨b, others, hc⟩ := Machine.exists_encodes c
    rw [Machine.encode_cons, hc.bytes, List.cons_append, decode, decodeAfter,
      opening_encodeChar hc.bytes]
    dsimp only
    rw [Nat.add_sub_cancel, decodeAfter_append]
    exact congrArg (Option.map (c :: ·)) ih

/-- The bytes of a text are read as the text, whatever they are followed
by. -/
theorem decodeLossy_encode_append (s : List Char) (rest : List UInt8) :
    decodeLossy (encode s ++ rest) = s ++ decodeLossy rest := by
  induction s with
  | nil => rfl
  | cons c s ih =>
    obtain ⟨b, others, hc⟩ := Machine.exists_encodes c
    rw [Machine.encode_cons, hc.bytes, List.append_assoc, List.cons_append, decodeLossy,
      decodeLossyAfter, opening_encodeChar hc.bytes]
    dsimp only
    rw [Nat.add_sub_cancel, decodeLossyAfter_append]
    exact congrArg (c :: ·) ih

theorem decodeLossy_encode (s : List Char) : decodeLossy (encode s) = s := by
  have h := decodeLossy_encode_append s []
  rwa [List.append_nil, show decodeLossy [] = [] from rfl, List.append_nil] at h

theorem decodeLossy_zeros (n : Nat) :
    decodeLossy (List.replicate n 0) = List.replicate n '\x00' := by
  induction n with
  | zero => rfl
  | succ n ih => exact congrArg ('\x00' :: ·) ih

/-- A text takes as many bytes as its characters need. -/
theorem length_encode_toList (s : String) : (encode s.toList).length = s.utf8ByteSize := by
  rw [Machine.length_encode, Source.byteSize_toList]

/-- A text without the zero character has no zero byte. -/
theorem zero_not_mem_encode {s : List Char} (h : '\x00' ∉ s) : (0 : UInt8) ∉ encode s := by
  intro hmem
  obtain ⟨c, hc, hzero⟩ := List.mem_flatMap.mp hmem
  exact h (zero_mem_encodeChar hzero ▸ hc)

/-- A text without the zero character ends where a zero byte first stands. -/
theorem takeWhile_encode {s : List Char} (h : '\x00' ∉ s) (rest : List UInt8) :
    (encode s ++ 0 :: rest).takeWhile (· ≠ 0) = encode s := by
  have hne : ∀ x ∈ encode s, decide (x ≠ 0) = true := by
    intro x hx
    exact decide_eq_true fun hzero => zero_not_mem_encode h (hzero ▸ hx)
  rw [List.takeWhile_append_of_pos hne, List.takeWhile_cons_of_neg (by decide), List.append_nil]

end ClrListing.Text.Utf8
