import LoginSettings.Text.Blank
import LoginSettings.Text.Hex

/-!
# Atoms of patterns

A pattern is a regular expression. Only whether it is one is of interest here, so its parts are
known by what decides that: atoms by what they are, compounds by how deep they are.

Flags may change in the middle of a pattern. In Unicode mode a pattern is about characters: there,
classes with names and letters of either case would need the tables of Unicode, which patterns do
without. In the other mode it is about bytes, and nothing in it may match a part of a character.
-/

namespace LoginSettings.Pattern

/-! ## Flags -/

/-- The flags that decide what a pattern may hold. -/
structure Flags where
  /-- Whether letters stand for those of the other case too. -/
  anyCase : Bool
  /-- Whether the pattern is about characters. -/
  unicode : Bool
  /-- Whether blanks and comments may stand between the parts of the pattern. -/
  spaced : Bool
deriving DecidableEq, Repr

/-- The flags at the start. -/
def Flags.standard : Flags := ⟨false, true, false⟩

/-- The letters of flags. -/
def flagLetters : List Char := ['i', 'm', 's', 'U', 'u', 'R', 'x']

/-- The flags after a change: the letters before a hyphen are turned on, those behind it off. -/
def Flags.change (fs : Flags) (letters : List Char) : Flags :=
  let (on, off) := letters.span (· ≠ '-')
  let value (letter : Char) (old : Bool) := if on.contains letter then true
    else if off.contains letter then false else old
  ⟨value 'i' fs.anyCase, value 'u' fs.unicode, value 'x' fs.spaced⟩

/-! ## Blanks -/

/-- The text behind blanks and comments; a comment ends with its line. -/
def skipSpace (inComment : Bool) : List Char → List Char
  | [] => []
  | c :: cs =>
    if inComment then skipSpace (c ≠ '\n') cs
    else if Text.isBlank c then skipSpace false cs
    else if c = '#' then skipSpace true cs
    else c :: cs

/-- The text behind what may stand between two parts. -/
def Flags.skip (fs : Flags) (cs : List Char) : List Char :=
  if fs.spaced then skipSpace false cs else cs

/-! ## Atoms -/

/-- What stands for one character or for a place between two. -/
inductive Atom where
  /-- A character; `asByte` if it is spelled by the two digits of a byte. -/
  | literal (c : Char) (asByte : Bool)
  /-- A class of characters that has a letter for its name. -/
  | shorthand (negated : Bool)
  /-- Any character. -/
  | any
  /-- A place where a word starts or ends, or where none does. -/
  | boundary
  /-- A place at the start or end of a text or line. -/
  | anchor
deriving DecidableEq, Repr

/-- Holds of atoms that may stand where the flags are these. -/
def Atom.isAllowed (fs : Flags) : Atom → Bool
  | literal c asByte => if fs.unicode then !fs.anyCase else !asByte || c.toNat < 0x80
  | shorthand negated => !fs.unicode && !negated
  | any => fs.unicode
  | boundary => !fs.unicode
  | anchor => true

/-- The character that digits of base sixteen spell: `n` of them going on from `value`. -/
def readHex (fs : Flags) (value : Nat) : Nat → List Char → Option (Char × List Char)
  | 0, cs => if value.isValidChar then some (Char.ofNat value, cs) else none
  | n + 1, cs =>
    match fs.skip cs with
    | [] => none
    | c :: cs => (Text.hexDigit? c).bind fun d => readHex fs (16 * value + d) n cs

/-- Holds of the characters that a backslash makes literal. -/
def isEscapable (c : Char) : Bool :=
  c.toNat < 0x80 && !c.isAlphanum && c ≠ '<' && c ≠ '>'

/-- The character that a letter behind a backslash stands for. -/
def escapedChar? (c : Char) : Option Char :=
  match c with
  | 'a' => some '\x07'
  | 'f' => some '\x0c'
  | 't' => some '\t'
  | 'n' => some '\n'
  | 'r' => some '\r'
  | 'v' => some '\x0b'
  | c => if isEscapable c then some c else none

/-- Reads what a backslash starts. -/
def readEscape (fs : Flags) : List Char → Option (Atom × List Char)
  | [] => none
  | c :: cs =>
    if c = 'x' then (readHex fs 0 2 cs).map fun (x, rest) => (.literal x true, rest)
    else if c = 'u' then (readHex fs 0 4 cs).map fun (x, rest) => (.literal x false, rest)
    else if c = 'U' then (readHex fs 0 8 cs).map fun (x, rest) => (.literal x false, rest)
    else if ['d', 's', 'w'].contains c then some (.shorthand false, cs)
    else if ['D', 'S', 'W'].contains c then some (.shorthand true, cs)
    else if ['A', 'z'].contains c then some (.anchor, cs)
    else if ['b', 'B', '<', '>'].contains c then some (.boundary, cs)
    else (escapedChar? c).map fun x => (.literal x false, cs)

/-! ## Depth -/

/-- Parts that stand side by side: how many, and how deep the deepest is. -/
structure Parts where
  count : Nat
  deepest : Nat
deriving DecidableEq, Repr

namespace Parts

/-- No parts. -/
def none : Parts := ⟨0, 0⟩

/-- The parts with one more. -/
def add (p : Parts) (depth : Nat) : Parts := ⟨p.count + 1, max p.deepest depth⟩

/-- How deep the parts are together; a part by itself is as deep as it is. -/
def depth (p : Parts) : Nat := if p.count ≤ 1 then p.deepest else p.deepest + 1

end Parts

end LoginSettings.Pattern
