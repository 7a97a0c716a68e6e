import LoginSettings.Decimal.Spelling
import LoginSettings.Document.Value
import LoginSettings.Text.Hex
import LoginSettings.Text.Utf8

/-!
# What scalars mean

A plain scalar is null, a truth value or a number if it is spelled like one, and a string otherwise;
a quoted scalar is a string. Tags of the core schema ask for one kind and nothing else.
-/

namespace LoginSettings.Yaml

/-! ## Spellings -/

/-- Holds of the spellings of null, the empty one not among them. -/
def isNullText (text : List Char) : Bool :=
  ["~", "null", "Null", "NULL"].any fun s => s.toList = text

/-- The truth value that a text spells. -/
def boolOf? (text : List Char) : Option Bool :=
  if ["true", "True", "TRUE"].any fun s => s.toList = text then some true
  else if ["false", "False", "FALSE"].any fun s => s.toList = text then some false
  else none

/-- Holds of digits that start with a zero: they spell no number. -/
def hasLeadingZero (text : List Char) : Bool :=
  match (Decimal.unsigned text).2 with
  | '0' :: d :: ds => (d :: ds).all Char.isDigit
  | _ => false

/-- The value of a digit in a base up to sixteen. -/
def digitIn? (base : Nat) (c : Char) : Option Nat := (Text.hexDigit? c).filter (· < base)

/-- The number that some digits spell in a base, if there are any. -/
def digitsIn? (base : Nat) (digits : List Char) : Option Nat :=
  if digits.isEmpty then none
  else digits.foldlM (fun n c => (digitIn? base c).map fun d => base * n + d) 0

/-- The number that a text without sign spells: digits, or digits behind the sign of a base. -/
def naturalOf? (text : List Char) : Option Nat :=
  match text with
  | '0' :: 'x' :: rest => digitsIn? 16 rest
  | '0' :: 'o' :: rest => digitsIn? 8 rest
  | '0' :: 'b' :: rest => digitsIn? 2 rest
  | rest => if hasLeadingZero rest then none else digitsIn? 10 rest

/-- The integer that a text spells. -/
def integerOf? (text : List Char) : Option Int :=
  let (negative, rest) := Decimal.unsigned text
  (naturalOf? rest).map fun n => if negative then -n else n

/-- Holds of the integers that documents can have. -/
def isKept (n : Int) : Bool := -0x8000000000000000 ≤ n && n < 0x10000000000000000

/-- Holds of the integers that are known to be integers. Of them only some can be kept; what is
spelled like an integer beyond them counts as a number of double precision. -/
def isInteger (n : Int) : Bool :=
  -0x80000000000000000000000000000000 ≤ n && n < 0x100000000000000000000000000000000

/-- The number of double precision that a text spells. -/
def decimalOf? (text : List Char) : Option Binary64 :=
  (Decimal.Spelling.ofText? text).bind fun s =>
    Binary64.ofDecimal s.negative (Decimal.digitsValue s.digits) s.exponent

/-- Holds of the spellings of infinities and of what is no number. -/
def isNotFinite (text : List Char) : Bool :=
  [".inf", ".Inf", ".INF", "+.inf", "+.Inf", "+.INF", "-.inf", "-.Inf", "-.INF", ".nan", ".NaN",
    ".NAN"].any fun s => s.toList = text

/-- The value of a text that spells a number of double precision. One that is not finite becomes
null. -/
def floatOf? (text : List Char) : Option Value :=
  if isNotFinite text then some .null else (decimalOf? text).map fun x => .number (.float x)

/-- The value of an integer, if it can be kept. -/
def ofInteger (n : Int) : Option Value :=
  if isKept n then some (.number (.integer n)) else none

/-- The integer that a text spells and that is known to be one. -/
def knownInteger? (text : List Char) : Option Int := (integerOf? text).filter isInteger

/-! ## Values -/

/-- What a text is if nobody says what it is, unless it is an integer that cannot be kept. -/
def plainValue (text : List Char) : Option Value :=
  if text.isEmpty || isNullText text then some .null
  else
    match boolOf? text, knownInteger? text with
    | some b, _ => some (.bool b)
    | none, some n => ofInteger n
    | none, none =>
      if hasLeadingZero text then some (.string (String.ofList text))
      else some ((floatOf? text).getD (.string (String.ofList text)))

/-- The kinds of scalars that the core schema has tags for. -/
inductive CoreTag where
  | null
  | bool
  | integer
  | float
deriving DecidableEq, Repr

/-- The bytes of a tag of the core schema. -/
def coreTagBytes (name : String) : List UInt8 :=
  Text.encodeUtf8 ("tag:yaml.org,2002:" ++ name).toList

/-- The kind that a tag asks for. -/
def CoreTag.ofTag? (tag : List UInt8) : Option CoreTag :=
  if tag = coreTagBytes "null" then some .null
  else if tag = coreTagBytes "bool" then some .bool
  else if tag = coreTagBytes "int" then some .integer
  else if tag = coreTagBytes "float" then some .float
  else none

/-- The value of a text that has to be of a kind. -/
def CoreTag.value? (tag : CoreTag) (text : List Char) : Option Value :=
  match tag with
  | null => if isNullText text then some .null else none
  | bool => (boolOf? text).map .bool
  | integer => (knownInteger? text).bind ofInteger
  | float => floatOf? text

/-- Holds of tags that start with an exclamation mark. -/
def startsLocal (tag : List UInt8) : Bool := tag.head? = some 0x21

/-- Holds of local tags: those that start with an exclamation mark and are text. They have no
meaning in documents. -/
def isLocal (tag : List UInt8) : Bool :=
  startsLocal tag && (Text.decodeUtf8 (tag.drop 1)).toOption.isSome

/-- The value of a scalar, if it has one. -/
def scalarValue (tag : Option (List UInt8)) (plain : Bool) (text : List Char) : Option Value :=
  match tag with
  | none => if plain then plainValue text else some (.string (String.ofList text))
  | some tag =>
    if isLocal tag then none
    else
      match CoreTag.ofTag? tag with
      | some core => core.value? text
      | none =>
        if startsLocal tag && plain then plainValue text else some (.string (String.ofList text))

end LoginSettings.Yaml
