import LoginSettings.Decimal.Digits

/-!
# Spelled decimals

Decimal numbers as they are spelled: perhaps a sign, digits with a point among, before or behind
them or none, and perhaps an exponent.
-/

namespace LoginSettings.Decimal

/-- The text without its sign, and whether that is a minus. -/
def unsigned (text : List Char) : Bool × List Char :=
  match text with
  | '+' :: rest => (false, rest)
  | '-' :: rest => (true, rest)
  | rest => (false, rest)

/-- The exponent that a text spells, if it is empty or starts with the mark of one. -/
def exponentOf? (text : List Char) : Option Int :=
  match text with
  | [] => some 0
  | e :: rest =>
    if e = 'e' ∨ e = 'E' then
      let (negative, rest) := unsigned rest
      if rest.isEmpty || !rest.all Char.isDigit then none
      else some (if negative then -digitsValue rest else digitsValue rest)
    else none

/-- What is spelled: digits, of which the last one counts `10 ^ exponent`. -/
structure Spelling where
  negative : Bool
  digits : List Char
  exponent : Int
deriving DecidableEq, Repr

/-- The decimal that a text spells. -/
def Spelling.ofText? (text : List Char) : Option Spelling :=
  let (negative, rest) := unsigned text
  let (whole, rest) := spanDigits rest
  let (fraction, rest) := match rest with
    | '.' :: rest => spanDigits rest
    | rest => ([], rest)
  if whole.isEmpty && fraction.isEmpty then none
  else (exponentOf? rest).map fun e => ⟨negative, whole ++ fraction, e - fraction.length⟩

end LoginSettings.Decimal
