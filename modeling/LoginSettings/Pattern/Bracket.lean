import LoginSettings.Pattern.Atom

/-!
# Classes in brackets

A class in brackets lists characters, ranges and classes, and may combine such lists by operators.
Classes are nested freely, so the reader keeps those that are open, the innermost one first.
-/

namespace LoginSettings.Pattern

/-! ## Items -/

/-- Holds of characters that a class may have where the flags are these. -/
def Flags.allowsInClass (fs : Flags) (c : Char) : Bool :=
  if fs.unicode then !fs.anyCase else c.toNat < 0x80

/-- Holds of classes with names between colons that a class may have where the flags are these. -/
def Flags.allowsNamed (fs : Flags) (negated : Bool) : Bool :=
  if fs.unicode then !fs.anyCase else !negated

/-- Reads a backslash and what it starts, or a character. -/
def readItemAtom (fs : Flags) : List Char → Option (Atom × List Char)
  | [] => none
  | '\\' :: cs => readEscape fs cs
  | c :: cs => some (.literal c false, cs)

/-- The next character, blanks and the sign of a comment apart. -/
def Flags.next? (fs : Flags) (cs : List Char) : Option Char :=
  if fs.spaced then
    match cs.dropWhile Text.isBlank with
    | '#' :: rest => (rest.dropWhile Text.isBlank).head?
    | rest => rest.head?
  else cs.head?

/-- What follows a hyphen that makes a range; one before a closing bracket or before another hyphen
makes none. -/
def rangeEnd? (fs : Flags) : List Char → Option (List Char)
  | '-' :: rest =>
    if fs.next? rest = some ']' ∨ fs.next? rest = some '-' then none else some (fs.skip rest)
  | _ => none

/-- Reads a character, a range of characters or a class that has a letter for its name, and gives
what is left. -/
def readItem (fs : Flags) (cs : List Char) : Option (List Char) := do
  let (first, cs) ← readItemAtom fs cs
  let cs := fs.skip cs
  match rangeEnd? fs cs with
  | some rest =>
    let (last, rest) ← readItemAtom fs rest
    match first, last with
    | .literal c _, .literal d _ =>
      if c ≤ d && fs.allowsInClass c && fs.allowsInClass d then some rest else none
    | _, _ => none
  | none =>
    match first with
    | .literal c _ => if fs.allowsInClass c then some cs else none
    | .shorthand _ => if first.isAllowed fs then some cs else none
    | _ => none

/-- The names that a class may have between colons. -/
def classNames : List String :=
  ["alnum", "alpha", "ascii", "blank", "cntrl", "digit", "graph", "lower", "print", "punct",
    "space", "upper", "word", "xdigit"]

/-- Reads a class that has its name between colons, from behind its opening bracket; the answer says
whether it is negated. -/
def readNamed (cs : List Char) : Option (Bool × List Char) :=
  match cs with
  | ':' :: cs =>
    let (negated, cs) := match cs with
      | '^' :: cs => (true, cs)
      | cs => (false, cs)
    let (name, rest) := cs.span (· ≠ ':')
    match rest with
    | ':' :: ']' :: rest =>
      if classNames.contains (String.ofList name) then some (negated, rest) else none
    | _ => none
  | _ => none

/-! ## Open classes -/

/-- An open class: how deep the operand before the last operator is, the items after that, and
whether hyphens still stand for themselves because nothing else has come. -/
structure Bracket where
  operand : Option Nat
  items : Parts
  opening : Bool
deriving DecidableEq, Repr

namespace Bracket

/-- A class in which nothing has been read. -/
def start : Bracket := ⟨none, .none, true⟩

/-- The class with one more item. -/
def add (b : Bracket) (depth : Nat) : Bracket := { b with items := b.items.add depth }

/-- The class once something other than hyphens has come. -/
def opened (b : Bracket) : Bracket := { b with opening := false }

/-- How deep what has been read of the class is; operators are one deeper than their operands. -/
def depth (b : Bracket) : Nat :=
  match b.operand with
  | none => b.items.depth
  | some d => max d b.items.depth + 1

/-- The class after an operator. -/
def operator (b : Bracket) : Bracket := ⟨some b.depth, .none, false⟩

/-- The class and what is left behind its opening bracket, if it may be negated should it be. -/
def open? (fs : Flags) (cs : List Char) : Option (Bracket × List Char) :=
  match fs.skip cs with
  | '^' :: rest => if fs.unicode then some (start, rest) else none
  | rest => some (start, rest)

end Bracket

/-! ## Reading -/

/-- What has been read of a class in brackets: the open classes and what is left, or how deep the
whole class is and what follows it. -/
inductive BracketReading where
  | inside (b : Bracket) (outer : List Bracket) (rest : List Char)
  | done (depth : Nat) (rest : List Char)

/-- Reads the next part of the innermost class. -/
def readInBracket (fs : Flags) (b : Bracket) (outer : List Bracket) (cs : List Char) :
    Option BracketReading :=
  match fs.skip cs with
  | [] => none
  | '[' :: rest =>
    match readNamed rest with
    | some (negated, rest) =>
      if fs.allowsNamed negated then some (.inside (b.opened.add 0) outer rest) else none
    | none => do
      let (inner, rest) ← Bracket.open? fs rest
      pure (.inside inner (b.opened :: outer) rest)
  | ']' :: rest =>
    if b.opening && b.items.count = 0 then
      if fs.allowsInClass ']' then some (.inside (b.opened.add 0) outer rest) else none
    else
      match outer with
      | [] => some (.done (b.depth + 1) rest)
      | o :: outer => some (.inside (o.add (b.depth + 1)) outer rest)
  | '-' :: rest =>
    if b.opening then
      if fs.allowsInClass '-' then some (.inside (b.add 0) outer rest) else none
    else
      match rest with
      | '-' :: rest => some (.inside b.operator outer rest)
      | rest => (readItem fs ('-' :: rest)).map (.inside (b.add 0) outer)
  | '&' :: '&' :: rest => some (.inside b.operator outer rest)
  | '~' :: '~' :: rest => some (.inside b.operator outer rest)
  | rest => (readItem fs rest).map (.inside (b.opened.add 0) outer)

/-- Reads a class to the end; it gives how deep the class is and what follows it. -/
def readBracketFrom (fs : Flags) (b : Bracket) (outer : List Bracket) (cs : List Char) :
    Option (Nat × List Char) :=
  match readInBracket fs b outer cs with
  | none => none
  | some (.done depth rest) => some (depth, rest)
  | some (.inside b outer rest) =>
    if rest.length < cs.length then readBracketFrom fs b outer rest else none
termination_by cs.length

/-- Reads a class from behind its opening bracket. -/
def readBracket (fs : Flags) (cs : List Char) : Option (Nat × List Char) :=
  (Bracket.open? fs cs).bind fun (b, rest) => readBracketFrom fs b [] rest

end LoginSettings.Pattern
