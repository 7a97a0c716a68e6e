import LoginSettings.Decimal.Binary64

/-!
# The fewest digits that read back

Among the decimals that read back as a given binary number, the ones with the fewest digits are
those on the coarsest decimal grid that has a point in the number's rounding interval: the interval
of reals nearer to it than to its neighbours, with its ends exactly when the significand is even.
If any point of a grid lies in the interval, one of the number's two neighbours on that grid does;
of two the nearer one is taken, and the even one if they are equally near.

All comparisons are between natural numbers: the number is measured in quarters of its last place,
so that the ends of the interval are whole.
-/

namespace LoginSettings.Binary64

/-- The rounding interval of a number and the grid it is compared with. A point `d` of the grid is
compared with a number `x` of quarter places through `d * point` and `x * quarter`. -/
structure Interval where
  value : Nat
  low : Nat
  high : Nat
  closed : Bool
deriving Repr

/-- The rounding interval in quarters of the last place. Below a power of two the neighbour is
nearer. -/
def interval (x : Binary64) : Interval :=
  let m := x.significand
  let nearerBelow := m = Nat.pow 2 52 ∧ leastExponent < x.exponent
  ⟨4 * m, if nearerBelow then 4 * m - 1 else 4 * m - 2, 4 * m + 2, m % 2 = 0⟩

/-- Holds of the measures that lie in the interval. -/
def Interval.holds (i : Interval) (quarter measure : Nat) : Bool :=
  if i.closed then i.low * quarter ≤ measure && measure ≤ i.high * quarter
  else i.low * quarter < measure && measure < i.high * quarter

/-- The power of ten of the first digit of a number that is not zero. -/
def leadingPower (x : Binary64) : Int :=
  let scaled := x.significand * Nat.pow 10 340 * Nat.pow 2 x.exponent.toNat
  (digitCount (scaled / Nat.pow 2 (-x.exponent).toNat) : Int) - 341

/-- A point of the grid of step `10 ^ k` in the interval of `x`, if there is one: the nearer of the
two neighbours of `x` on the grid. -/
def gridPoint? (x : Binary64) (k : Int) : Option Nat :=
  let i := x.interval
  let power := x.exponent - 2
  let point := Nat.pow 10 k.toNat * Nat.pow 2 (-power).toNat
  let quarter := Nat.pow 2 power.toNat * Nat.pow 10 (-k).toNat
  let exact := i.value * quarter
  let below := exact / point
  let lowHit := i.holds quarter (below * point)
  let highHit := i.holds quarter ((below + 1) * point)
  if lowHit && highHit then
    let twice := 2 * exact
    let middle := (2 * below + 1) * point
    if twice < middle then some below
    else if middle < twice then some (below + 1)
    else if below % 2 = 0 then some below else some (below + 1)
  else if lowHit then some below
  else if highHit then some (below + 1)
  else none

/-- The first grid point found with steps from `10 ^ k` down, over at most `tries` grids. -/
def firstGridPoint (x : Binary64) (k : Int) : Nat → Nat × Int
  | 0 => (0, k)
  | tries + 1 =>
    match x.gridPoint? k with
    | some d => (d, k)
    | none => firstGridPoint x (k - 1) tries

/-- A decimal `digits * 10 ^ power` without a last digit zero; at most `n` zeros are taken off. -/
def withoutZeros (digits : Nat) (power : Int) : Nat → Nat × Int
  | 0 => (digits, power)
  | n + 1 =>
    if digits ≠ 0 ∧ digits % 10 = 0 then withoutZeros (digits / 10) (power + 1) n
    else (digits, power)

/-- The fewest digits and the power of ten of the last one that read back as the number's size. -/
def shortest (x : Binary64) : Nat × Int :=
  if x.isZero then (0, 0)
  else
    let (d, k) := firstGridPoint x x.leadingPower 17
    withoutZeros d k 17

end LoginSettings.Binary64
