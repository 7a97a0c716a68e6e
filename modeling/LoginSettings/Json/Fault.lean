import LoginSettings.Text.Place

/-!
# Faults of JSON texts

What can be wrong with a text that should be JSON, and where it is.
-/

namespace LoginSettings.Json

open Text (Place)

/-- What is wrong with a text that should be JSON. -/
inductive Fault where
  | endInValue
  | endInString
  | endInArray
  | endInObject
  | expectedColon
  | expectedCommaOrBracket
  | expectedCommaOrBrace
  | expectedLiteral
  | expectedValue
  | invalidEscape
  | invalidNumber
  | numberOutOfRange
  | controlCharacter
  | keyNotString
  | loneSurrogate
  | unfinishedSurrogate
  | trailingComma
  | trailingCharacters
  | tooDeep
deriving DecidableEq, Repr

/-- How a fault is reported. -/
def Fault.message : Fault → String
  | endInValue => "EOF while parsing a value"
  | endInString => "EOF while parsing a string"
  | endInArray => "EOF while parsing a list"
  | endInObject => "EOF while parsing an object"
  | expectedColon => "expected `:`"
  | expectedCommaOrBracket => "expected `,` or `]`"
  | expectedCommaOrBrace => "expected `,` or `\x7d`"
  | expectedLiteral => "expected ident"
  | expectedValue => "expected value"
  | invalidEscape => "invalid escape"
  | invalidNumber => "invalid number"
  | numberOutOfRange => "number out of range"
  | controlCharacter => "control character (\\u0000-\\u001F) found while parsing a string"
  | keyNotString => "key must be a string"
  | loneSurrogate => "lone leading surrogate in hex escape"
  | unfinishedSurrogate => "unexpected end of hex escape"
  | trailingComma => "trailing comma"
  | trailingCharacters => "trailing characters"
  | tooDeep => "recursion limit exceeded"

/-- A fault and its place. -/
structure SyntaxError where
  fault : Fault
  place : Place
deriving DecidableEq, Repr

/-- How a fault at a place is reported. -/
def SyntaxError.message (e : SyntaxError) : String := e.fault.message ++ e.place.describe

/-- A part of a text that cannot be read. The report depends on whether the part is wanted or is
passed over: what is passed over is looked at less closely. -/
structure Damage where
  wanted : SyntaxError
  passed : SyntaxError
deriving DecidableEq, Repr

/-- The damage that is reported the same way whether the part is wanted or not. -/
def Damage.same (fault : Fault) (place : Place) : Damage := ⟨⟨fault, place⟩, ⟨fault, place⟩⟩

end LoginSettings.Json
