import LoginSettings.Files.Tree
import LoginSettings.Log.Event

/-!
# Progress of a run

What a part of a run does, in order, and its result, unless the run fails there. Whatever has been
printed or written before a failure stays so.
-/

namespace LoginSettings.Cli

/-- Something that a run does: it prints a text on the standard output or on the standard error
output, hands an event to the log, or writes a file, after which the files are as given. -/
inductive Effect where
  | out (text : String)
  | err (text : String)
  | event (e : Log.Event)
  | files (after : Files.Tree)
deriving DecidableEq

/-- What is done on the way to a result, or to a failure. -/
structure Progress (α : Type) where
  effects : List Effect
  result : Option α
deriving DecidableEq

namespace Progress

variable {α β : Type}

/-- Goes on from a result; a failure is the end. -/
def andThen (p : Progress α) (f : α → Progress β) : Progress β :=
  match p.result with
  | some a => ⟨p.effects ++ (f a).effects, (f a).result⟩
  | none => ⟨p.effects, none⟩

instance : Monad Progress where
  pure a := ⟨[], some a⟩
  bind := andThen

@[simp] theorem effects_pure (a : α) : (pure a : Progress α).effects = [] := rfl

@[simp] theorem result_pure (a : α) : (pure a : Progress α).result = some a := rfl

/-- Parts one after another have a result if both of them have. -/
theorem result_bind (p : Progress α) (f : α → Progress β) :
    (p >>= f).result = p.result.bind fun a => (f a).result := by
  simp only [bind, andThen]
  cases p.result <;> rfl

/-- Prints a text. -/
def out (text : String) : Progress Unit := ⟨[.out text], some ()⟩

/-- Prints a text that ends with a line feed. -/
def outLine (text : String) : Progress Unit := out (text ++ "\n")

/-- Hands events to the log. -/
def log (events : List Log.Event) : Progress Unit := ⟨events.map .event, some ()⟩

/-- Fails with a report. -/
def fail (report : String) : Progress α := ⟨[.err (report ++ "\n")], none⟩

/-- The result, or a failure with a report on the error. -/
def orFail {ε : Type} (report : ε → String) : Except ε α → Progress α
  | .ok a => pure a
  | .error e => fail (report e)

end Progress
end LoginSettings.Cli
