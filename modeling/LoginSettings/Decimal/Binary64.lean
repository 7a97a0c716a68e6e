/-!
# Binary numbers of double precision

The finite numbers of the 64-bit binary format: a sign, a whole significand below `2 ^ 53` and a
power of two from `2 ^ -1074` to `2 ^ 971`. A number has one form: the significand is at least
`2 ^ 52` unless the power is the smallest. Quotients and decimals become the nearest such number; of
two equally near ones the one with the even significand.
-/

namespace LoginSettings

/-- A finite number of double precision, `± significand * 2 ^ exponent`. -/
structure Binary64 where
  negative : Bool
  significand : Nat
  exponent : Int
deriving DecidableEq, Repr

namespace Binary64

/-- The power of two of the smallest numbers. -/
def leastExponent : Int := -1074

/-- The power of two of the largest numbers. -/
def greatestExponent : Int := 971

/-- Zero, with either sign. -/
def zero (negative : Bool) : Binary64 := ⟨negative, 0, leastExponent⟩

/-- Holds of both zeros. -/
def isZero (x : Binary64) : Bool := x.significand == 0

/-- The quotient rounded to the nearest whole number, a half to the even one. -/
def roundHalfEven (num den : Nat) : Nat :=
  let floor := num / den
  let twice := 2 * (num % den)
  if twice < den then floor
  else if den < twice then floor + 1
  else if floor % 2 = 0 then floor else floor + 1

/-- The greatest `e` with `2 ^ e ≤ num / den`, for positive `num` and `den`. -/
def floorLog2 (num den : Nat) : Int :=
  let e : Int := (Nat.log2 num : Int) - (Nat.log2 den : Int)
  if num * Nat.pow 2 (-e).toNat < den * Nat.pow 2 e.toNat then e - 1 else e

/-- The number nearest to `± num / den`, or none where that lies beyond the largest number. -/
def ofQuotient (negative : Bool) (num den : Nat) : Option Binary64 :=
  if num = 0 then some (zero negative)
  else
    let q := max (floorLog2 num den - 52) leastExponent
    let m := roundHalfEven (num * Nat.pow 2 (-q).toNat) (den * Nat.pow 2 q.toNat)
    let (m, q) := if m = Nat.pow 2 53 then (Nat.pow 2 52, q + 1) else (m, q)
    if greatestExponent < q then none else some ⟨negative, m, q⟩

/-- How many decimal digits a number has. -/
def digitCount (n : Nat) : Nat := (Nat.toDigits 10 n).length

/-- The number nearest to `± n * 10 ^ e`, or none where that lies beyond the largest number. Powers
that are far beyond either end are not computed. -/
def ofDecimal (negative : Bool) (n : Nat) (e : Int) : Option Binary64 :=
  if n = 0 then some (zero negative)
  else if (digitCount n : Int) + e > 310 then none
  else if (digitCount n : Int) + e < -330 then some (zero negative)
  else ofQuotient negative (n * Nat.pow 10 e.toNat) (Nat.pow 10 (-e).toNat)

/-- The number nearest to a whole number. -/
def ofInt (n : Int) : Option Binary64 := ofQuotient (n < 0) n.natAbs 1

end Binary64
end LoginSettings
