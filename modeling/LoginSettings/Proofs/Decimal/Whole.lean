import LoginSettings.Json.Canonical
import LoginSettings.Proofs.Json.Scalars
import Mathlib.Data.Nat.Digits.Defs
import Mathlib.Tactic.Ring

/-!
# Whole numbers in double precision

A whole number of at most fifty-three bits is a number of double precision, and the fewest digits
that read back as it are its own digits without the zeros at their end: all grids of whole numbers
are coarser than its rounding interval, so the only grid point that can lie in there is the number
itself.

* `ofQuotient_one` — the number of double precision
* `gridPoint?_whole`, `shortest_whole` — its fewest digits
* `canonicalNumber_integer` — its canonical text
-/

namespace LoginSettings

namespace Decimal

/-- A factor of ten is a zero at the end. -/
theorem natDigits_mul_ten {n : Nat} (h : 0 < n) : natDigits (n * 10) = natDigits n ++ ['0'] := by
  have hdigits := Nat.toDigits_append_toDigits (b := 10) (n := n) (d := 0) (by decide) h (by decide)
  rw [natDigits, natDigits, Nat.mul_comm, ← Nat.add_zero (10 * n), ← hdigits]
  rfl

/-- A power of ten adds zeros at the end. -/
theorem natDigits_mul_pow {n : Nat} (h : 0 < n) (k : Nat) :
    natDigits (n * 10 ^ k) = natDigits n ++ List.replicate k '0' := by
  induction k with
  | zero => simp
  | succ k ih =>
    have hpos : 0 < n * 10 ^ k := Nat.mul_pos h (Nat.pow_pos (by decide))
    rw [Nat.pow_succ, ← Nat.mul_assoc, natDigits_mul_ten hpos, ih, List.append_assoc,
      ← List.replicate_succ']

theorem natDigits_length_pos (n : Nat) : 0 < (natDigits n).length :=
  List.length_pos_iff.2 Nat.toDigits_ne_nil

end Decimal

namespace Binary64

open Decimal (natDigits natDigits_mul_pow natDigits_length_pos)

variable {n : Nat} {negative : Bool}

/-! ## The number of double precision -/

theorem floorLog2_one (h : n ≠ 0) : floorLog2 n 1 = Nat.log2 n := by
  have hle : 2 ^ Nat.log2 n ≤ n := Nat.log2_self_le h
  have hone : Nat.log2 1 = 0 := by decide
  unfold floorLog2
  simp only [hone, Nat.pow_eq]
  rw [if_neg]
  · omega
  · simpa using hle

/-- Whole numbers are not rounded. -/
theorem roundHalfEven_one (n : Nat) : roundHalfEven n 1 = n := by
  simp [roundHalfEven, Nat.mod_one]

/-- How far the significand of a whole number is shifted. -/
def shift (n : Nat) : Nat := 52 - Nat.log2 n

/-- A whole number as one of double precision. -/
def ofWhole (negative : Bool) (n : Nat) : Binary64 := ⟨negative, n * 2 ^ shift n, -(shift n : Int)⟩

/-- Nothing is rounded. -/
theorem ofQuotient_one (h : n ≠ 0) (hsmall : n < 2 ^ 53) :
    ofQuotient negative n 1 = some (ofWhole negative n) := by
  have hlog : Nat.log2 n ≤ 52 := Nat.lt_succ_iff.1 ((Nat.log2_lt h).2 hsmall)
  have hexponent : max ((Nat.log2 n : Int) - 52) leastExponent = -(shift n : Int) := by
    simp only [leastExponent, shift]
    omega
  have hsignificand : n * 2 ^ shift n < 2 ^ 53 := by
    calc n * 2 ^ shift n < 2 ^ (Nat.log2 n + 1) * 2 ^ shift n :=
          Nat.mul_lt_mul_of_pos_right Nat.lt_log2_self (Nat.pow_pos (by decide))
      _ = 2 ^ 53 := by
          rw [← Nat.pow_add, shift]
          congr 1
          omega
  have hfine : ¬greatestExponent < -(shift n : Int) := by
    simp only [greatestExponent]
    omega
  unfold ofQuotient
  rw [if_neg h, floorLog2_one h, hexponent]
  have hup : (- -(shift n : Int)).toNat = shift n := by omega
  have hdown : (-(shift n : Int)).toNat = 0 := by omega
  simp only [hup, hdown, Nat.pow_eq, Nat.pow_zero, Nat.mul_one, roundHalfEven_one]
  rw [if_neg (Nat.ne_of_lt hsignificand)]
  simp only [if_neg hfine]
  rfl

/-! ## The fewest digits -/

/-- What the interval of a number holds is near its significand. -/
theorem near_of_holds {x : Binary64} {measure : Nat} (h : x.interval.holds 1 measure = true) :
    4 * x.significand ≤ measure + 2 ∧ measure ≤ 4 * x.significand + 2 := by
  unfold Interval.holds interval at h
  simp only [Nat.mul_one] at h
  split at h
  all_goals
    simp only [Bool.and_eq_true, decide_eq_true_eq] at h
    split at h
    all_goals omega

/-- The interval of a number holds the number itself. -/
theorem holds_self {x : Binary64} (h : 0 < x.significand) :
    x.interval.holds 1 (4 * x.significand) = true := by
  unfold Interval.holds interval
  simp only [Nat.mul_one]
  split
  all_goals
    simp only [Bool.and_eq_true, decide_eq_true_eq]
    split
    all_goals omega

/-- How many quarters of the last place a whole number has. -/
theorem four_mul_significand (negative : Bool) (n : Nat) :
    4 * (ofWhole negative n).significand = n * 2 ^ (shift n + 2) := by
  rw [ofWhole, Nat.pow_add]
  ring

/-- A whole number that reads back as another one is the same. -/
theorem eq_of_holds {a : Nat}
    (h : (ofWhole negative n).interval.holds 1 (a * 2 ^ (shift n + 2)) = true) : a = n := by
  obtain ⟨hlow, hhigh⟩ := near_of_holds h
  rw [four_mul_significand] at hlow hhigh
  have hplace : 2 ^ 2 ≤ 2 ^ (shift n + 2) := Nat.pow_le_pow_right (by decide) (Nat.le_add_left 2 _)
  rcases Nat.lt_trichotomy a n with hlt | heq | hgt
  · have hstep := Nat.mul_le_mul_right (2 ^ (shift n + 2)) hlt
    rw [Nat.succ_mul] at hstep
    omega
  · exact heq
  · have hstep := Nat.mul_le_mul_right (2 ^ (shift n + 2)) hgt
    rw [Nat.succ_mul] at hstep
    omega

/-- Of the grid points the interval of a small whole number holds the number only. -/
theorem holds_iff (h : 0 < n) (k d : Nat) :
    (ofWhole negative n).interval.holds 1 (d * (10 ^ k * 2 ^ (shift n + 2))) = true
      ↔ d * 10 ^ k = n := by
  rw [← Nat.mul_assoc]
  constructor
  · exact eq_of_holds
  · rintro rfl
    rw [← four_mul_significand negative]
    exact holds_self (Nat.mul_pos h (Nat.pow_pos (by decide)))

/-- **The only point of a grid of whole numbers that reads back as a whole number is the number
itself.** -/
theorem gridPoint?_whole (negative : Bool) (h : 0 < n) (k : Nat) :
    (ofWhole negative n).gridPoint? k = if 10 ^ k ∣ n then some (n / 10 ^ k) else none := by
  have hbelow : n * 2 ^ (shift n + 2) / (10 ^ k * 2 ^ (shift n + 2)) = n / 10 ^ k :=
    Nat.mul_div_mul_right _ _ (Nat.pow_pos (by decide))
  have hlow : (ofWhole negative n).interval.holds 1 (n / 10 ^ k * (10 ^ k * 2 ^ (shift n + 2)))
      = decide (10 ^ k ∣ n) := by
    rw [Bool.eq_iff_iff, holds_iff h, decide_eq_true_iff, Nat.dvd_iff_div_mul_eq]
  have hhigh : (ofWhole negative n).interval.holds 1
      ((n / 10 ^ k + 1) * (10 ^ k * 2 ^ (shift n + 2))) = false := by
    rw [Bool.eq_false_iff, ne_eq, holds_iff h]
    have hlt := Nat.lt_div_mul_add (a := n) (b := 10 ^ k) (Nat.pow_pos (by decide))
    rw [Nat.succ_mul]
    omega
  have hpower : (ofWhole negative n).exponent - 2 = -(shift n + 2 : Nat) := by
    simp only [ofWhole]
    omega
  have hvalue : (ofWhole negative n).interval.value = 4 * (ofWhole negative n).significand := rfl
  have hup : (-(-(shift n + 2 : Nat) : Int)).toNat = shift n + 2 := by omega
  have hdown : (-(shift n + 2 : Nat) : Int).toNat = 0 := by omega
  have hgrid : (-(k : Int)).toNat = 0 := by omega
  unfold gridPoint?
  simp only [hpower, hvalue, hup, hdown, hgrid, Int.toNat_natCast, Nat.pow_eq, Nat.pow_zero,
    Nat.mul_one, four_mul_significand, hbelow, hlow, hhigh]
  simp

theorem firstGridPoint_whole (negative : Bool) (h : 0 < n) {k tries : Nat} (htries : k < tries) :
    ∃ d j : Nat, firstGridPoint (ofWhole negative n) k tries = (d, (j : Int)) ∧ d * 10 ^ j = n := by
  induction k generalizing tries with
  | zero =>
    obtain ⟨tries, rfl⟩ := Nat.exists_eq_add_one_of_ne_zero (Nat.ne_of_gt htries)
    have hone : 10 ^ 0 ∣ n := by simp
    have hpoint := gridPoint?_whole negative h 0
    rw [if_pos hone] at hpoint
    refine ⟨n / 10 ^ 0, 0, ?_, by simp⟩
    rw [firstGridPoint, hpoint]
  | succ k ih =>
    obtain ⟨tries, rfl⟩ :=
      Nat.exists_eq_add_one_of_ne_zero (Nat.ne_of_gt (Nat.zero_lt_of_lt htries))
    have hpoint := gridPoint?_whole negative h (k + 1)
    rw [firstGridPoint, hpoint]
    split_ifs with hdvd
    · exact ⟨n / 10 ^ (k + 1), k + 1, rfl, Nat.div_mul_cancel hdvd⟩
    · have hnext : ((k + 1 : Nat) : Int) - 1 = (k : Int) := by omega
      rw [hnext]
      exact ih (by omega)

/-- The value does not change when zeros at the end are left out. -/
theorem withoutZeros_whole (d j tries : Nat) :
    ∃ d' j' : Nat, withoutZeros d j tries = (d', (j' : Int)) ∧ d' * 10 ^ j' = d * 10 ^ j := by
  induction tries generalizing d j with
  | zero => exact ⟨d, j, rfl, rfl⟩
  | succ tries ih =>
    rw [withoutZeros]
    split_ifs with hzero
    · obtain ⟨d', j', hshort, hvalue⟩ := ih (d / 10) (j + 1)
      refine ⟨d', j', hshort, hvalue.trans ?_⟩
      rw [Nat.pow_succ, Nat.mul_comm (10 ^ j), ← Nat.mul_assoc,
        Nat.div_mul_cancel (Nat.dvd_of_mod_eq_zero hzero.2)]
    · exact ⟨d, j, rfl, rfl⟩

/-- The first digit of a whole number is among the first seventeen. -/
theorem leadingPower_whole (negative : Bool) (h : 0 < n) (hsmall : n < 2 ^ 53) :
    ∃ k : Nat, (ofWhole negative n).leadingPower = k ∧ k < 17 := by
  have hlong : (natDigits n).length ≤ 17 := Nat.toDigits_length 10 n 17 (by decide) (by omega)
  have hpos := natDigits_length_pos n
  have hscaled : n * 2 ^ shift n * 10 ^ 340 * 2 ^ 0 / 2 ^ shift n = n * 10 ^ 340 := by
    rw [Nat.pow_zero, Nat.mul_one, Nat.mul_right_comm,
      Nat.mul_div_cancel _ (Nat.pow_pos (by decide))]
  have hup : (- -(shift n : Int)).toNat = shift n := by omega
  have hdown : (-(shift n : Int)).toNat = 0 := by omega
  refine ⟨(natDigits n).length - 1, ?_, by omega⟩
  unfold leadingPower
  simp only [ofWhole, hup, hdown, Nat.pow_eq, hscaled]
  rw [digitCount, show Nat.toDigits 10 (n * 10 ^ 340) = _ from natDigits_mul_pow h 340,
    List.length_append, List.length_replicate]
  omega

theorem isZero_whole (h : 0 < n) : (ofWhole negative n).isZero = false := by
  have hsignificand : n * 2 ^ shift n ≠ 0 := Nat.ne_of_gt (Nat.mul_pos h (Nat.pow_pos (by decide)))
  simpa [isZero, ofWhole] using hsignificand

/-- **The fewest digits of a whole number and their power of ten make up the number.** -/
theorem shortest_whole (negative : Bool) (h : 0 < n) (hsmall : n < 2 ^ 53) :
    ∃ d j : Nat, (ofWhole negative n).shortest = (d, (j : Int)) ∧ d * 10 ^ j = n := by
  obtain ⟨k, hk, hlt⟩ := leadingPower_whole negative h hsmall
  obtain ⟨d, j, hfirst, hvalue⟩ := firstGridPoint_whole negative h hlt
  obtain ⟨d', j', hshort, hvalue'⟩ := withoutZeros_whole d j 17
  refine ⟨d', j', ?_, hvalue'.trans hvalue⟩
  rw [shortest, isZero_whole h, hk, hfirst]
  exact hshort

end Binary64

namespace Json

open Decimal (Layout natDigits natDigits_mul_pow natDigits_length_pos)

/-! ## Canonical text -/

/-- Small whole numbers are rendered in their digits. -/
theorem render_whole {n : Nat} (h : 0 < n) (hsmall : n < 2 ^ 53) (negative : Bool) :
    canonicalLayout.render (.ofWhole negative n)
      = if negative then '-' :: natDigits n else natDigits n := by
  obtain ⟨d, j, hshort, hvalue⟩ := Binary64.shortest_whole negative h hsmall
  have hd : 0 < d := by
    rcases Nat.eq_zero_or_pos d with rfl | hd
    · omega
    · exact hd
  have hdigits : natDigits n = natDigits d ++ List.replicate j '0' := by
    rw [← hvalue, natDigits_mul_pow hd]
  have hlong : (natDigits n).length ≤ 17 := Nat.toDigits_length 10 n 17 (by decide) (by omega)
  have hpos := natDigits_length_pos d
  rw [hdigits, List.length_append, List.length_replicate] at hlong
  have hplain : canonicalLayout.least ≤ ((natDigits d).length : Int) + j - 1 ∧
      ((natDigits d).length : Int) + j - 1 ≤ canonicalLayout.greatest := by
    simp only [canonicalLayout]
    omega
  have hbody : canonicalLayout.positional (natDigits d) j = natDigits n := by
    rw [hdigits]
    simp [Layout.positional, canonicalLayout]
  have hnegative : (Binary64.ofWhole negative n).negative = negative := rfl
  unfold Layout.render
  simp only [hshort, Binary64.isZero_whole h, hplain, hbody, hnegative]
  cases negative <;> simp

/-- **The canonical text of a whole number of at most fifty-three bits is its digits**, although it
is written as a number of double precision. -/
theorem canonicalNumber_integer {n : Int} (h : n.natAbs ≤ 2 ^ 53) :
    canonicalNumber (.integer n) = Decimal.intDigits n := by
  rcases Nat.lt_or_eq_of_le h with hlt | heq
  · rcases Nat.eq_zero_or_pos n.natAbs with hzero | hpos
    · rw [Int.natAbs_eq_zero.1 hzero]
      decide +kernel
    · have hbinary : Binary64.ofInt n = some (.ofWhole (n < 0) n.natAbs) :=
        Binary64.ofQuotient_one (Nat.ne_of_gt hpos) hlt
      rw [canonicalNumber, hbinary]
      simp only [render_whole hpos hlt, Decimal.intDigits, decide_eq_true_eq]
  · -- The number `2 ^ 53` itself has one bit more, and is even.
    rcases Int.natAbs_eq n with hn | hn
    all_goals
      rw [hn, heq]
      decide +kernel

end Json
end LoginSettings
