import LoginSettings.Decimal.Digits
import LoginSettings.Decimal.Shortest

/-!
# Written numbers

The text of a number of double precision: its shortest digits, written positionally while the power
of ten of the first digit lies in a range that the layout names, and with an exponent otherwise.
-/

namespace LoginSettings.Decimal

/-- What a format decides about the text of numbers. -/
structure Layout where
  /-- The least power of the first digit that is written positionally. -/
  least : Int
  /-- The greatest power of the first digit that is written positionally. -/
  greatest : Int
  /-- Whether a whole number written positionally ends in `.0`. -/
  pointZero : Bool
  /-- Whether a positive exponent has a plus sign. -/
  plusSign : Bool
  /-- Whether negative zero keeps its sign. -/
  signedZero : Bool

namespace Layout

/-- Digits with the point where their power puts it. -/
def positional (l : Layout) (digits : List Char) (power : Int) : List Char :=
  let whole : Int := digits.length + power
  if 0 ≤ power then
    digits ++ List.replicate power.toNat '0' ++ (if l.pointZero then ['.', '0'] else [])
  else if 0 < whole then
    digits.take whole.toNat ++ '.' :: digits.drop whole.toNat
  else ['0', '.'] ++ List.replicate (-whole).toNat '0' ++ digits

/-- Digits with the point after the first one, and the exponent. -/
def scientific (l : Layout) (digits : List Char) (power : Int) : List Char :=
  let exponent : Int := digits.length + power - 1
  let sign := if 0 ≤ exponent then (if l.plusSign then ['+'] else []) else ['-']
  let fraction := match digits.drop 1 with
    | [] => []
    | ds => '.' :: ds
  digits.take 1 ++ fraction ++ 'e' :: sign ++ natDigits exponent.natAbs

/-- The text of a number. -/
def render (l : Layout) (x : Binary64) : List Char :=
  let (d, k) := x.shortest
  let digits := natDigits d
  let first : Int := digits.length + k - 1
  let body :=
    if x.isZero then l.positional ['0'] 0
    else if l.least ≤ first ∧ first ≤ l.greatest then l.positional digits k
    else l.scientific digits k
  if x.negative ∧ (!x.isZero ∨ l.signedZero) then '-' :: body else body

end Layout
end LoginSettings.Decimal
