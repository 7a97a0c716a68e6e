/-!
# Sixteen-bit units

Characters beyond `FFFF` are two units, a high and a low surrogate, so the order of texts by their
units differs from the order by code points exactly where such a character meets one from `E000` on.
-/

namespace LoginSettings.Text

/-- The sixteen-bit units of a character: one, or a pair of surrogates. -/
def charUnits (c : Char) : List Nat :=
  let n := c.toNat
  if n < 0x10000 then [n] else [0xD800 + (n - 0x10000) / 1024, 0xDC00 + (n - 0x10000) % 1024]

/-- The sixteen-bit units of a string. -/
def units (s : String) : List Nat := s.toList.flatMap charUnits

/-- The order of strings by their sixteen-bit units. -/
def unitsLE (s t : String) : Bool := !(units t).lex (units s)

end LoginSettings.Text
