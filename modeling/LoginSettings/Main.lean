import LoginSettings.Cli.Run

/-!
# The program

Reads the environment and the files that the arguments are about, runs, writes the file that has
changed and prints.
-/

namespace LoginSettings

open Files (Tree)

/-- How the system reports that what should be read as a file is a directory. -/
def isDirectoryCode : UInt32 := 21

/-- The files with what is found at a path. -/
def lookAt (t : Tree) (path : String) : IO Tree := do
  match t.resolve path with
  | .error _ => pure t
  | .ok p =>
    match ← (IO.FS.readBinFile path).toBaseIO with
    | .ok bytes => pure (t.put p bytes.toList)
    | .error (.inappropriateType _ code _) =>
      pure (if code = isDirectoryCode then t.putDirectory p else t)
    | .error _ => pure t

/-- What the environment says. -/
def readEnvironment : IO Tool.Environment := do
  pure {
    configPath := ← IO.getEnv "PORTAL_SETTINGS_CONFIG"
    home := ← IO.getEnv "HOME"
    logFilter := ← IO.getEnv "RUST_LOG" }

end LoginSettings

/-- Runs the program. A file is written before anything is printed. -/
def main (arguments : List String) : IO UInt32 := do
  let env ← LoginSettings.readEnvironment
  let paths := (LoginSettings.Cli.pathsFor env arguments).flatMap LoginSettings.Files.leadingPaths
  let files ← paths.foldlM LoginSettings.lookAt LoginSettings.Files.Tree.empty
  let outcome := LoginSettings.Cli.run files env arguments
  for (path, bytes) in outcome.files.changedFrom files do
    IO.FS.writeBinFile path.text ⟨bytes.toArray⟩
  IO.print outcome.out
  IO.eprint outcome.err
  pure (UInt32.ofNat outcome.exitCode)
