import LoginSettings.Pattern.Bracket
import LoginSettings.Text.Alphanumeric

/-!
# Expressions

Atoms and classes one after another, repeated, in alternatives and in groups. A flag holds from
where it is changed to the end of the group.
-/

namespace LoginSettings.Pattern

/-- The deepest nesting of a pattern. -/
def greatestDepth : Nat := 250

/-- Parts one after another; `last` is how deep the last one is if it can be repeated. -/
structure Sequence where
  parts : Parts
  last : Option Nat
deriving DecidableEq, Repr

namespace Sequence

/-- A sequence without parts. -/
def none : Sequence := ⟨.none, .none⟩

/-- The sequence with one more part that can be repeated. -/
def add (s : Sequence) (depth : Nat) : Sequence := ⟨s.parts.add depth, some depth⟩

/-- The sequence with one more part that cannot be repeated. -/
def addFixed (s : Sequence) : Sequence := ⟨s.parts.add 0, .none⟩

/-- The sequence with its last part repeated. -/
def repeated? (s : Sequence) : Option Sequence :=
  s.last.map fun d => ⟨{ s.parts with deepest := max s.parts.deepest (d + 1) }, some (d + 1)⟩

end Sequence

/-- An open group: the flags around it, the alternatives before the last bar, and what has been read
after that. -/
structure Group where
  around : Flags
  alternatives : Parts
  sequence : Sequence
deriving DecidableEq, Repr

namespace Group

/-- A group in which nothing has been read. -/
def start (around : Flags) : Group := ⟨around, .none, .none⟩

/-- The group after something has been done to what is read last. -/
def mapSequence (g : Group) (f : Sequence → Sequence) : Group :=
  { g with sequence := f g.sequence }

/-- The group with one more alternative begun. -/
def alternative (g : Group) : Group :=
  { g with alternatives := g.alternatives.add g.sequence.parts.depth, sequence := .none }

/-- How deep what is in the group is. -/
def depth (g : Group) : Nat := (g.alternatives.add g.sequence.parts.depth).depth

end Group

/-- The state of reading an expression: the flags, the names of groups so far, the open groups, the
innermost one apart, and what is left. -/
structure Reader where
  flags : Flags
  names : List (List Char)
  group : Group
  outer : List Group
  rest : List Char

namespace Reader

/-- The state before reading. -/
def start (cs : List Char) : Reader := ⟨.standard, [], .start .standard, [], cs⟩

/-- The state with a change to the innermost sequence, `rest` being left. -/
def onSequence (r : Reader) (f : Sequence → Sequence) (rest : List Char) : Reader :=
  { r with group := r.group.mapSequence f, rest }

/-- The state in a new group that has flags of its own. -/
def openGroup (r : Reader) (flags : Flags) (rest : List Char) : Reader :=
  { r with flags, group := .start r.flags, outer := r.group :: r.outer, rest }

/-- Holds of what may be the name of a group. -/
def isName (name : List Char) : Bool :=
  match name with
  | [] => false
  | c :: cs =>
    (c = '_' || Text.isAlphabetic c)
      && cs.all fun c => Text.isAlphanumeric c || ['_', '.', '[', ']'].contains c

/-- Reads the name of a group. No two groups have one name. -/
def openNamed (r : Reader) (cs : List Char) : Option Reader :=
  let (name, rest) := cs.span (· ≠ '>')
  match rest with
  | [] => none
  | _ :: rest =>
    if isName name && !r.names.contains name then
      some ({ r with names := name :: r.names }.openGroup r.flags rest)
    else none

/-- Holds of what may change flags: letters and one hyphen, none of them twice, the hyphen not
last. -/
def areFlags (letters : List Char) : Bool :=
  letters.all (fun c => c = '-' || flagLetters.contains c) && letters.Nodup
    && letters.getLast? ≠ some '-'

/-- Reads flags, which hold for a group of their own behind a colon and else for what is left of
this group. -/
def readFlags (r : Reader) (cs : List Char) : Option Reader :=
  let (letters, rest) := cs.span fun c => c ≠ ':' && c ≠ ')'
  let flags := r.flags.change letters
  match rest with
  | [] => none
  | close :: rest =>
    if !areFlags letters then none
    else if close = ':' then some (r.openGroup flags rest)
    else if letters.isEmpty then none
    else some { r.onSequence Sequence.addFixed rest with flags }

/-- Reads what stands behind an opening parenthesis. -/
def readOpening (r : Reader) (cs : List Char) : Option Reader :=
  match r.flags.skip cs with
  | '?' :: 'P' :: '<' :: rest => r.openNamed rest
  | '?' :: '<' :: rest => r.openNamed rest
  | '?' :: rest => r.readFlags rest
  | rest => some (r.openGroup r.flags rest)

/-- The state after the innermost group. -/
def closeGroup (r : Reader) (rest : List Char) : Option Reader :=
  match r.outer with
  | [] => none
  | g :: outer =>
    let inside := r.group
    some { r with
      flags := inside.around
      group := g.mapSequence fun s => s.add (inside.depth + 1)
      outer, rest }

/-- Reads a sign of repetition, after which a question mark makes it lazy. -/
def readRepetition (r : Reader) (rest : List Char) : Option Reader :=
  let rest := match rest with
    | '?' :: rest => rest
    | rest => rest
  r.group.sequence.repeated?.map fun s => { r with group := { r.group with sequence := s }, rest }

/-- The state after an atom, if it is allowed. -/
def addAtom (r : Reader) (a : Atom) (rest : List Char) : Option Reader :=
  if a.isAllowed r.flags then some (r.onSequence (·.add 0) rest) else none

/-- Reads the next part, `c` being its first character. An opening brace would say how often to
repeat what stands before it; its closing brace can stand in no pattern of a filter. -/
def readPart (r : Reader) (c : Char) (rest : List Char) : Option Reader :=
  if c = '(' then r.readOpening rest
  else if c = ')' then r.closeGroup rest
  else if c = '|' then some { r with group := r.group.alternative, rest }
  else if c = '[' then
    (readBracket r.flags rest).map fun (depth, rest) => r.onSequence (·.add depth) rest
  else if c = '?' || c = '*' || c = '+' then r.readRepetition rest
  else if c = '\x7b' then none
  else if c = '\\' then
    (readEscape r.flags rest).bind fun (a, rest) => r.addAtom a rest
  else if c = '.' then r.addAtom .any rest
  else if c = '^' || c = '$' then r.addAtom .anchor rest
  else r.addAtom (.literal c false) rest

/-- Reads to the end and gives how deep the expression is. -/
def readAll (r : Reader) : Option Nat :=
  match r.flags.skip r.rest with
  | [] => if r.outer.isEmpty then some r.group.depth else none
  | c :: rest =>
    match r.readPart c rest with
    | none => none
    | some next => if next.rest.length < r.rest.length then next.readAll else none
termination_by r.rest.length

end Reader

/-- Holds of texts that are patterns. -/
def isPattern (text : List Char) : Bool :=
  (Reader.start text).readAll.any (· ≤ greatestDepth)

end LoginSettings.Pattern
