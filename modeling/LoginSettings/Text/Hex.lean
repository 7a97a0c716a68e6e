/-!
# Digits of base sixteen

Reading the digits of base sixteen, in either case.
-/

namespace LoginSettings.Text

/-- The value of a digit of base sixteen. -/
def hexDigit? (c : Char) : Option Nat :=
  if '0' ≤ c ∧ c ≤ '9' then some (c.toNat - '0'.toNat)
  else if 'a' ≤ c ∧ c ≤ 'f' then some (c.toNat - 'a'.toNat + 10)
  else if 'A' ≤ c ∧ c ≤ 'F' then some (c.toNat - 'A'.toNat + 10)
  else none

/-- The number that some digits spell, going on from `value`. -/
def hexFrom (value : Nat) : List Char → Option Nat
  | [] => some value
  | c :: cs =>
    match hexDigit? c with
    | some d => hexFrom (16 * value + d) cs
    | none => none

/-- The number that the first `n` characters spell, if there are that many and all are digits. -/
def hexNumber? (n : Nat) (cs : List Char) : Option Nat :=
  if n ≤ cs.length then hexFrom 0 (cs.take n) else none

end LoginSettings.Text
