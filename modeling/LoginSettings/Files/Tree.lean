import LoginSettings.Text.Split
import LoginSettings.Text.Utf8

/-!
# Files

A working directory with files and directories in it. Paths are followed part by part, from the
working directory or from the root of all files. Writing a file leaves all others as they are, and
writing that fails changes nothing.
-/

namespace LoginSettings.Files

/-- Why a file cannot be read or written. -/
inductive Fault where
  | notFound
  | isDirectory
  | notDirectory
  | notText
  | nameTooLong
  | zeroInName
deriving DecidableEq, Repr

/-- How a fault is reported. -/
def Fault.message : Fault → String
  | notFound => "No such file or directory (os error 2)"
  | isDirectory => "Is a directory (os error 21)"
  | notDirectory => "Not a directory (os error 20)"
  | notText => "stream did not contain valid UTF-8"
  | nameTooLong => "File name too long (os error 36)"
  | zeroInName => "file name contained an unexpected NUL byte"

/-- The parts of a path from the working directory on. Directories around it are written with two
dots, and a path from the root of all files starts with a slash as its first part. -/
abbrev Path := List String

/-- How many bytes a part of a path may have. -/
def longestPart : Nat := 255

/-- How many bytes a path may have. -/
def longestPath : Nat := 4095

/-- The part that stands for the root of all files. -/
def rootPart : String := "/"

/-- A path as text. -/
def Path.text (path : Path) : String :=
  match path with
  | "/" :: rest => "/" ++ String.intercalate "/" rest
  | path => String.intercalate "/" path

/-- The paths to all that a path leads through, and the path itself. -/
def leadingPaths (path : String) : List String :=
  let parts := Text.split '/' path
  (List.range parts.length).map fun i => String.intercalate "/" (parts.take (i + 1))

/-- The files and directories that are known. -/
structure Tree where
  files : List (Path × List UInt8)
  directories : List Path
deriving DecidableEq, Repr

namespace Tree

/-- A working directory with nothing in it. -/
def empty : Tree := ⟨[], []⟩

/-- The bytes of a file. -/
def find? (t : Tree) (path : Path) : Option (List UInt8) :=
  (t.files.find? fun f => f.1 = path).map (·.2)

/-- Holds of directories, the working directory, those around it and the root among them. -/
def isDirectory (t : Tree) (path : Path) : Bool :=
  path.all (· = "..") || path = [rootPart] || t.directories.contains path

/-- The directories that a path leads through. -/
def parents (path : Path) : List Path := (List.range path.length).map path.take

/-- The tree with a file; the directories that its path leads through are made. -/
def put (t : Tree) (path : Path) (bytes : List UInt8) : Tree :=
  ⟨t.files.filter (·.1 ≠ path) ++ [(path, bytes)],
    t.directories ++ (parents path).filter fun d => !t.isDirectory d⟩

/-- The tree with a directory and all that its path leads through. -/
def putDirectory (t : Tree) (path : Path) : Tree :=
  { t with directories :=
      t.directories ++ (parents path ++ [path]).filter fun d => !t.isDirectory d }

/-! ## Paths -/

/-- Follows the parts of a path through directories; a part that is followed by others has to be
one. -/
def follow (t : Tree) (here : Path) : List String → Except Fault Path
  | [] => .ok here
  | part :: rest =>
    if (t.find? here).isSome then .error .notDirectory
    else if !t.isDirectory here then .error .notFound
    else if part.isEmpty || part = "." then t.follow here rest
    else if part = ".." then
      if here = [rootPart] then t.follow here rest
      else if here.all (· = "..") then t.follow (here ++ [part]) rest
      else t.follow here.dropLast rest
    else if longestPart < part.utf8ByteSize then .error .nameTooLong
    else t.follow (here ++ [part]) rest

/-- Where a path leads. -/
def resolve (t : Tree) (path : String) : Except Fault Path :=
  if path.isEmpty then .error .notFound
  else if path.toList.contains '\x00' then .error .zeroInName
  else if longestPath < path.utf8ByteSize then .error .nameTooLong
  else t.follow (if path.toList.head? = some '/' then [rootPart] else []) (Text.split '/' path)

/-- The bytes of the file at a path. -/
def read (t : Tree) (path : String) : Except Fault (List UInt8) := do
  let p ← t.resolve path
  match t.find? p with
  | some bytes => pure bytes
  | none => throw (if t.isDirectory p then .isDirectory else .notFound)

/-- The text of the file at a path. -/
def readText (t : Tree) (path : String) : Except Fault String := do
  let bytes ← t.read path
  match Text.decodeUtf8 bytes with
  | .ok text => pure text
  | .error _ => throw .notText

/-- The path without slashes at its end. -/
def withoutSlash (path : String) : String :=
  String.ofList (path.toList.reverse.dropWhile (· = '/')).reverse

/-- The tree with the bytes of the file at a path replaced, or with a new file. A slash at the end
of the path asks for a directory. -/
def write (t : Tree) (path : String) (bytes : List UInt8) : Except Fault Tree := do
  let p ← t.resolve (withoutSlash path)
  if withoutSlash path ≠ path || t.isDirectory p then throw .isDirectory
  else if (t.find? p).isSome || t.isDirectory p.dropLast then
    pure { t with files := t.files.filter (·.1 ≠ p) ++ [(p, bytes)] }
  else throw (if (t.find? p.dropLast).isSome then .notDirectory else .notFound)

/-- Holds of paths that lead to something. -/
def exists? (t : Tree) (path : String) : Bool :=
  match t.resolve path with
  | .ok p => t.isDirectory p || (t.find? p).isSome
  | .error _ => false

/-- The files that other files do not have among them, or have with other bytes. -/
def changedFrom (t before : Tree) : List (Path × List UInt8) :=
  t.files.filter fun f => before.find? f.1 ≠ some f.2

end Tree
end LoginSettings.Files
