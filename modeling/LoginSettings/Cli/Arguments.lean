import LoginSettings.Role.Validation
import LoginSettings.Text.Split

/-!
# Arguments

How a command line is read. Words that start with a dash are switches, of which some have a value;
all others are operands. The first operand names the command. Switches that hold for every command
may stand before its name or behind it, and the one behind it counts.
-/

namespace LoginSettings.Cli

/-! ## Switches -/

/-- A switch on the command line. -/
inductive Switch where
  | config
  | logFilter
  | effective
  | set
  | snapshot
  | output
  | inPlace
  | json
  | name
  | description
  | siteKey
  | colorScheme
  | language
  | version
  | help
deriving DecidableEq, Repr

/-- What belongs to a switch: nothing, a text, or the path of a file, which is never empty. -/
inductive Operand where
  | nothing
  | text
  | path
deriving DecidableEq, Repr

namespace Switch

/-- The word for a switch, which stands behind two dashes. -/
def word : Switch → String
  | config => "config"
  | logFilter => "log-filter"
  | effective => "effective"
  | set => "set"
  | snapshot => "snapshot"
  | output => "output"
  | inPlace => "in-place"
  | json => "json"
  | name => "name"
  | description => "description"
  | siteKey => "site-key"
  | colorScheme => "color-scheme"
  | language => "language"
  | version => "version"
  | help => "help"

/-- The letter for a switch, which stands behind one dash. -/
def letter? : Switch → Option Char
  | config => some 'c'
  | output => some 'o'
  | version => some 'V'
  | help => some 'h'
  | _ => none

/-- What belongs to a switch. -/
def operand : Switch → Operand
  | config | effective | snapshot | output => .path
  | inPlace | json | version | help => .nothing
  | _ => .text

/-- Holds of the switch that may be given more than once. -/
def repeats (s : Switch) : Bool := s = set

end Switch

/-- What a command takes: switches of its own, and an operand. -/
structure Level where
  switches : List Switch
  operand : Operand

/-- The switches that hold for every command. -/
def everywhere : List Switch := [.config, .logFilter, .help]

/-- What may stand before the name of a command. -/
def Level.outer : Level := ⟨.version :: everywhere, .nothing⟩

/-- What may stand behind the name of a command. -/
def Level.inner (switches : List Switch) (operand : Operand) : Level :=
  ⟨switches ++ everywhere, operand⟩

/-- Why no command is run: the arguments are wrong, or something about the program is asked. -/
inductive Stop where
  | usage
  | version
  | help
deriving DecidableEq, Repr

/-! ## What is given -/

/-- The switches that have been given, with their values, and the operands. -/
structure Given where
  switches : List (Switch × String) := []
  operands : List String := []
deriving DecidableEq, Repr

namespace Given

/-- The value of a switch that is given at most once. -/
def value? (g : Given) (s : Switch) : Option String := (g.switches.find? fun e => e.1 = s).map (·.2)

/-- Holds if a switch has been given. -/
def has (g : Given) (s : Switch) : Bool := (g.value? s).isSome

/-- All values of a switch, from left to right. -/
def values (g : Given) (s : Switch) : List String := (g.switches.filter fun e => e.1 = s).map (·.2)

/-- Takes note of a switch and its value. -/
def add (g : Given) (s : Switch) (value : String) : Except Stop Given :=
  if s.operand = .path && value.isEmpty then .error .usage
  else if !s.repeats && g.has s then .error .usage
  else .ok { g with switches := g.switches ++ [(s, value)] }

/-- Takes note of a switch without a value. -/
def addAlone (g : Given) (s : Switch) : Except Stop Given :=
  match s with
  | .version => .error .version
  | .help => .error .help
  | s => g.add s ""

/-- Takes note of an operand; there may be one at most. -/
def addOperand (g : Given) (level : Level) (text : String) : Except Stop Given :=
  if level.operand = .nothing || !g.operands.isEmpty then .error .usage
  else if level.operand = .path && text.isEmpty then .error .usage
  else .ok { g with operands := g.operands ++ [text] }

/-- The operand. -/
def operand (g : Given) : Except Stop String :=
  match g.operands with
  | [text] => .ok text
  | _ => .error .usage

end Given

/-! ## Reading words -/

/-- A word of the command line. -/
inductive Word where
  | plain
  | onlyOperands
  | long (name : List Char) (attached : Option String)
  | short (letters : List Char)
deriving DecidableEq, Repr

/-- The form of a word. A dash alone is an operand; two dashes alone make operands of all words
behind. -/
def Word.ofText (text : String) : Word :=
  match text.toList with
  | ['-', '-'] => .onlyOperands
  | '-' :: '-' :: cs =>
    match Text.splitFirst '=' cs with
    | some (name, value) => .long name (some (String.ofList value))
    | none => .long cs none
  | '-' :: c :: cs => .short (c :: cs)
  | _ => .plain

/-- Reads letters behind one dash. Of a switch with a value the value may follow at once, with or
without an equals sign; if it does not, the switch is left over. -/
def readLetters (level : Level) (g : Given) : List Char → Except Stop (Given × Option Switch)
  | [] => .ok (g, none)
  | c :: cs =>
    match level.switches.find? fun s => s.letter? = some c with
    | none => .error .usage
    | some s =>
      if s.operand = .nothing then do
        let g ← g.addAlone s
        readLetters level g cs
      else
        match cs with
        | [] => .ok (g, some s)
        | '=' :: value => (g.add s (String.ofList value)).map fun g => (g, none)
        | value => (g.add s (String.ofList value)).map fun g => (g, none)

/-- Reads a word behind two dashes, in the same way. -/
def readLong (level : Level) (g : Given) (name : List Char) (attached : Option String) :
    Except Stop (Given × Option Switch) :=
  match level.switches.find? fun s => s.word.toList = name with
  | none => .error .usage
  | some s =>
    if s.operand = .nothing then
      if attached.isSome then .error .usage else (g.addAlone s).map fun g => (g, none)
    else
      match attached with
      | some value => (g.add s value).map fun g => (g, none)
      | none => .ok (g, some s)

/-- Takes note of operands. -/
def addOperands (level : Level) (g : Given) (texts : List String) : Except Stop Given :=
  texts.foldlM (fun g text => g.addOperand level text) g

/-- Reads switches with their values and operands, in any order. Where no operand belongs, reading
stops in front of the first one. -/
def readWords (level : Level) (g : Given) : List String → Except Stop (Given × List String)
  | [] => .ok (g, [])
  | w :: ws => do
    let (g, wanting) ← match Word.ofText w with
      | .plain =>
        if level.operand = .nothing then return (g, w :: ws)
        (g.addOperand level w).map fun g => (g, none)
      | .onlyOperands => return (← addOperands level g ws, [])
      | .long name attached => readLong level g name attached
      | .short letters => readLetters level g letters
    match wanting, ws with
    | none, ws => readWords level g ws
    | some _, [] => throw .usage
    | some s, value :: ws =>
      if Word.ofText value = .plain then
        let g ← g.add s value
        readWords level g ws
      else throw .usage

/-! ## Commands -/

/-- What to change in a document, and where to write it. -/
structure Order where
  document : String
  effective : Option String
  snapshot : Option String
  assignments : List String
  target : Option String
  json : Bool
deriving DecidableEq, Repr

/-- A command. -/
inductive Command where
  | display (document : String) (effective : Option String)
  | change (order : Order)
  | digest (document : String)
  | fields
  | role (form : Role.Form) (json : Bool)
  | widget (siteKey colorScheme language : Option String)
deriving DecidableEq, Repr

/-- Reads all words behind the name of a command. -/
def readInner (switches : List Switch) (operand : Operand) (ws : List String) :
    Except Stop Given := do
  let (g, rest) ← readWords (.inner switches operand) {} ws
  if rest.isEmpty then pure g else throw .usage

/-- The names of all commands. -/
def commandNames : List String :=
  ["show", "apply", "digest", "fields", "validate-role", "turnstile-options", "help"]

/-- What is asked by the words behind `help`: how the program is used, or one command of it. -/
def readTopic : List String → Stop
  | [] => .help
  | [name] => if commandNames.contains name then .help else .usage
  | _ => .usage

/-- The command with a name, and all that has been given behind it. -/
def readCommand (name : String) (ws : List String) : Except Stop (Given × Command) :=
  match name with
  | "show" => do
    let g ← readInner [.effective] .path ws
    pure (g, .display (← g.operand) (g.value? .effective))
  | "apply" => do
    let g ← readInner [.effective, .set, .snapshot, .output, .inPlace, .json] .path ws
    let document ← g.operand
    if g.has .inPlace && g.has .output then throw .usage
    pure (g, .change {
      document
      effective := g.value? .effective
      snapshot := g.value? .snapshot
      assignments := g.values .set
      target := if g.has .inPlace then some document else g.value? .output
      json := g.has .json })
  | "digest" => do
    let g ← readInner [] .path ws
    pure (g, .digest (← g.operand))
  | "fields" => do
    let g ← readInner [] .nothing ws
    pure (g, .fields)
  | "validate-role" => do
    let g ← readInner [.name, .description, .json] .text ws
    pure (g, .role ⟨← g.operand, g.value? .name, g.value? .description⟩ (g.has .json))
  | "turnstile-options" => do
    let g ← readInner [.siteKey, .colorScheme, .language] .nothing ws
    pure (g, .widget (g.value? .siteKey) (g.value? .colorScheme) (g.value? .language))
  | "help" => .error (readTopic ws)
  | _ => .error .usage

/-- A command with the switches that hold for every command. -/
structure Invocation where
  config : Option String
  logFilter : Option String
  command : Command
deriving DecidableEq, Repr

/-- What the arguments ask for. -/
def Invocation.ofArguments (ws : List String) : Except Stop Invocation := do
  let (before, rest) ← readWords .outer {} ws
  match rest with
  | [] => throw .usage
  | name :: ws =>
    let (behind, command) ← readCommand name ws
    let value? (s : Switch) := (behind.value? s).or (before.value? s)
    pure ⟨value? .config, value? .logFilter, command⟩

end LoginSettings.Cli
