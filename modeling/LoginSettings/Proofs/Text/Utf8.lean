import LoginSettings.Text.Utf8

/-!
# Text written in bytes and read back

The bytes of a text spell that text, whatever its characters are. One character is taken at a time:
its first byte says how many bytes belong to it, and these give its code point back.

* `decodeFrom_charBytes` — one character
* `decodeUtf8_encodeUtf8` — a whole text
-/

namespace LoginSettings.Text

variable {a b c d : UInt8}

/-! ## Bytes that belong together -/

theorem decodeFrom_one (ha : a.toNat < 0x80) (whole : Nat) (rest : List UInt8) :
    decodeFrom whole (a :: rest)
      = (decodeFrom (whole + 1) rest).map (Char.ofNat a.toNat :: ·) := by
  have hone : a < 0x80 := UInt8.lt_iff_toNat_lt.2 ha
  rw [decodeFrom.eq_def]
  simp only [hone, if_true]

theorem decodeFrom_two (ha : 0xC2 ≤ a.toNat ∧ a.toNat ≤ 0xDF) (hb : isContinuation b = true)
    (whole : Nat) (rest : List UInt8) :
    decodeFrom whole (a :: b :: rest) = (decodeFrom (whole + 2) rest).map
      (Char.ofNat (a.toNat % 32 * 64 + sixBits b) :: ·) := by
  have hone : ¬ a < 0x80 := by
    rw [UInt8.lt_iff_toNat_lt]
    exact Nat.not_lt.2 (Nat.le_trans (by decide) ha.1)
  have htwo : (0xC2 ≤ a && a ≤ 0xDF) = true := by
    simpa [UInt8.le_iff_toNat_le] using ha
  rw [decodeFrom.eq_def]
  simp only [hone, htwo, hb, if_true, if_false]

theorem decodeFrom_three (ha : 0xE0 ≤ a.toNat ∧ a.toNat ≤ 0xEF)
    (hb : allowsSecondOfThree a b = true) (hc : isContinuation c = true) (whole : Nat)
    (rest : List UInt8) :
    decodeFrom whole (a :: b :: c :: rest) = (decodeFrom (whole + 3) rest).map
      (Char.ofNat (a.toNat % 16 * 4096 + sixBits b * 64 + sixBits c) :: ·) := by
  have hone : ¬ a < 0x80 := by
    rw [UInt8.lt_iff_toNat_lt]
    exact Nat.not_lt.2 (Nat.le_trans (by decide) ha.1)
  have htwo : (0xC2 ≤ a && a ≤ 0xDF) = false := by
    simp [UInt8.le_iff_toNat_le]
    omega
  have hthree : (0xE0 ≤ a && a ≤ 0xEF) = true := by
    simpa [UInt8.le_iff_toNat_le] using ha
  rw [decodeFrom.eq_def]
  simp [hone, htwo, hthree, hb, hc]

theorem decodeFrom_four (ha : 0xF0 ≤ a.toNat ∧ a.toNat ≤ 0xF4)
    (hb : allowsSecondOfFour a b = true) (hc : isContinuation c = true)
    (hd : isContinuation d = true) (whole : Nat) (rest : List UInt8) :
    decodeFrom whole (a :: b :: c :: d :: rest) = (decodeFrom (whole + 4) rest).map
      (Char.ofNat (a.toNat % 8 * 262144 + sixBits b * 4096 + sixBits c * 64 + sixBits d) :: ·) := by
  have hone : ¬ a < 0x80 := by
    rw [UInt8.lt_iff_toNat_lt]
    exact Nat.not_lt.2 (Nat.le_trans (by decide) ha.1)
  have htwo : (0xC2 ≤ a && a ≤ 0xDF) = false := by
    simp [UInt8.le_iff_toNat_le]
    omega
  have hthree : (0xE0 ≤ a && a ≤ 0xEF) = false := by
    simp [UInt8.le_iff_toNat_le]
    omega
  have hfour : (0xF0 ≤ a && a ≤ 0xF4) = true := by
    simpa [UInt8.le_iff_toNat_le] using ha
  rw [decodeFrom.eq_def]
  simp [hone, htwo, hthree, hfour, hb, hc, hd]

/-! ## Characters -/

theorem toNat_ofNat_of_lt {n : Nat} (h : n < 256) : (UInt8.ofNat n).toNat = n := by
  rw [UInt8.toNat_ofNat']
  exact Nat.mod_eq_of_lt h

/-- The byte that carries six bits of a code point. -/
def tail (n : Nat) : UInt8 := UInt8.ofNat (0x80 + n % 64)

theorem toNat_tail (n : Nat) : (tail n).toNat = 0x80 + n % 64 := toNat_ofNat_of_lt (by omega)

theorem isContinuation_tail (n : Nat) : isContinuation (tail n) = true := by
  simp [isContinuation, UInt8.le_iff_toNat_le, toNat_tail]
  omega

theorem sixBits_tail (n : Nat) : sixBits (tail n) = n % 64 := by
  rw [sixBits, toNat_tail]
  omega

/-- Overlong forms and surrogates are what the second byte shuts out, and no character has them. -/
theorem allowsSecondOfThree_tail {n : Nat} (hlong : 0x800 ≤ n) (hshort : n < 0x10000)
    (hvalid : n < 0xD800 ∨ 0xDFFF < n) :
    allowsSecondOfThree (UInt8.ofNat (0xE0 + n / 4096)) (tail (n / 64)) = true := by
  have ha : (UInt8.ofNat (0xE0 + n / 4096)).toNat = 0xE0 + n / 4096 := toNat_ofNat_of_lt (by omega)
  unfold allowsSecondOfThree
  simp only [← UInt8.toNat_inj, ha]
  split
  · simp [UInt8.le_iff_toNat_le, toNat_tail] at *
    omega
  · split
    · simp [UInt8.le_iff_toNat_le, toNat_tail] at *
      omega
    · exact isContinuation_tail _

/-- Overlong forms are shut out by the second byte, and so is what is beyond all code points. -/
theorem allowsSecondOfFour_tail {n : Nat} (hlong : 0x10000 ≤ n) (hbound : n < 0x110000) :
    allowsSecondOfFour (UInt8.ofNat (0xF0 + n / 262144)) (tail (n / 4096)) = true := by
  have ha : (UInt8.ofNat (0xF0 + n / 262144)).toNat = 0xF0 + n / 262144 :=
    toNat_ofNat_of_lt (by omega)
  unfold allowsSecondOfFour
  simp only [← UInt8.toNat_inj, ha]
  split
  · simp [UInt8.le_iff_toNat_le, toNat_tail] at *
    omega
  · split
    · simp [UInt8.le_iff_toNat_le, toNat_tail] at *
      omega
    · exact isContinuation_tail _

/-- The bytes of a character give the character back. -/
theorem decodeFrom_charBytes (x : Char) (whole : Nat) (rest : List UInt8) :
    decodeFrom whole (charBytes x ++ rest)
      = (decodeFrom (whole + (charBytes x).length) rest).map (x :: ·) := by
  have hvalid : x.toNat < 0xD800 ∨ (0xDFFF < x.toNat ∧ x.toNat < 0x110000) := x.valid
  have hx : Char.ofNat x.toNat = x := Char.ofNat_toNat x
  generalize hn : x.toNat = n at hvalid hx
  unfold charBytes
  simp only [hn]
  split
  · have ha : (UInt8.ofNat n).toNat = n := toNat_ofNat_of_lt (by omega)
    rw [List.singleton_append, decodeFrom_one (by omega), ha, hx]
    rfl
  · split
    · have ha : (UInt8.ofNat (0xC0 + n / 64)).toNat = 0xC0 + n / 64 := toNat_ofNat_of_lt (by omega)
      have hpoint : (0xC0 + n / 64) % 32 * 64 + n % 64 = n := by omega
      show decodeFrom whole (UInt8.ofNat (0xC0 + n / 64) :: tail n :: rest) = _
      rw [decodeFrom_two (by omega) (isContinuation_tail n), ha, sixBits_tail, hpoint, hx]
      rfl
    · split
      · have ha : (UInt8.ofNat (0xE0 + n / 4096)).toNat = 0xE0 + n / 4096 :=
          toNat_ofNat_of_lt (by omega)
        have hpoint : (0xE0 + n / 4096) % 16 * 4096 + n / 64 % 64 * 64 + n % 64 = n := by omega
        have hsecond := allowsSecondOfThree_tail (n := n) (by omega) (by omega) (by omega)
        show decodeFrom whole (UInt8.ofNat (0xE0 + n / 4096) :: tail (n / 64) :: tail n :: rest) = _
        rw [decodeFrom_three (by omega) hsecond (isContinuation_tail n), ha, sixBits_tail,
          sixBits_tail, hpoint, hx]
        rfl
      · have ha : (UInt8.ofNat (0xF0 + n / 262144)).toNat = 0xF0 + n / 262144 :=
          toNat_ofNat_of_lt (by omega)
        have hpoint : (0xF0 + n / 262144) % 8 * 262144 + n / 4096 % 64 * 4096 + n / 64 % 64 * 64
            + n % 64 = n := by omega
        have hsecond := allowsSecondOfFour_tail (n := n) (by omega) (by omega)
        show decodeFrom whole (UInt8.ofNat (0xF0 + n / 262144) :: tail (n / 4096) :: tail (n / 64)
          :: tail n :: rest) = _
        rw [decodeFrom_four (by omega) hsecond (isContinuation_tail _) (isContinuation_tail n), ha,
          sixBits_tail, sixBits_tail, sixBits_tail, hpoint, hx]
        rfl

/-! ## Texts -/

/-- A text is decoded from its bytes, wherever these stand. -/
theorem decodeFrom_encodeUtf8 (cs : List Char) (whole : Nat) :
    decodeFrom whole (encodeUtf8 cs) = .ok cs := by
  induction cs generalizing whole with
  | nil => rfl
  | cons x cs ih =>
    rw [encodeUtf8, List.flatMap_cons, decodeFrom_charBytes, ← encodeUtf8, ih]
    rfl

/-- **The bytes of a text spell the text.** -/
theorem decodeUtf8_encodeUtf8 (cs : List Char) :
    decodeUtf8 (encodeUtf8 cs) = .ok (String.ofList cs) := by
  rw [decodeUtf8, decodeFrom_encodeUtf8]
  rfl

end LoginSettings.Text
