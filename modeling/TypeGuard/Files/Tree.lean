import TypeGuard.Files.Path
import TypeGuard.Text.Utf8

/-!
# File trees

The files that a run of the compiler sees, with their contents, and the working directory. A
directory exists if it is listed or if something lies below it.
-/

namespace TypeGuard

inductive FileEntry where
  | file (contents : List UInt8)
  | directory
  deriving DecidableEq, Repr

/-- Why a file cannot be read or written. -/
inductive FileError where
  | notFound (path : String)
  | alreadyExists (path : String)
  | notDirectory (path : String)
  | isDirectory (path : String)
  | nameTooLong (path : String)
  | undecodable (cause : Utf8.DecodeError)
  deriving DecidableEq, Repr

def FileError.message : FileError → String
  | .notFound path => "[Errno 2] No such file or directory: " ++ Text.quoted path
  | .alreadyExists path => "[Errno 17] File exists: " ++ Text.quoted path
  | .notDirectory path => "[Errno 20] Not a directory: " ++ Text.quoted path
  | .isDirectory path => "[Errno 21] Is a directory: " ++ Text.quoted path
  | .nameTooLong path => "[Errno 36] File name too long: " ++ Text.quoted path
  | .undecodable cause => cause.message

structure FileTree where
  /-- The working directory. -/
  directory : Path
  /-- The home directory, if it is known. -/
  home : Option Path := none
  entries : List (Path × FileEntry) := []

namespace FileTree

/-- What is at a path. -/
def lookup (t : FileTree) (p : Path) : Option FileEntry :=
  match t.entries.find? (·.1 == p) with
  | some (_, entry) => some entry
  | none =>
    if p = t.directory || t.directory.isBelow p || t.entries.any (·.1.isBelow p) then
      some .directory
    else none

/-- Some proper part of the path is a file. -/
def runsThroughFile (t : FileTree) (p : Path) : Bool :=
  t.entries.any fun (q, entry) => entry != .directory && p.isBelow q

/-- Reads a text file; `shown` is the path as errors show it. -/
def readText (t : FileTree) (p : Path) (shown : String) : Except FileError String :=
  match t.lookup p with
  | some (.file contents) => (Utf8.readText contents).mapError .undecodable
  | some .directory => .error (.isDirectory shown)
  | none => .error (if t.runsThroughFile p then .notDirectory shown else .notFound shown)

/-- The place that names lead to from `place`, a double dot leading up. All names but the last must
be those of directories. -/
def follow (t : FileTree) (shown : String) (place : Path) : List String → Except FileError Path
  | [] => .ok place
  | part :: parts =>
    match t.lookup place with
    | none => .error (.notFound shown)
    | some (.file _) => .error (.notDirectory shown)
    | some .directory =>
      if Path.isTooLong part then .error (.nameTooLong shown)
      else t.follow shown (if part = ".." then place.parent else place.child part) parts

/-- What is at a path without double dots. It is an error to ask for a name that is too long. -/
def status (t : FileTree) (p : Path) : Except FileError (Option FileEntry) :=
  match t.follow p.render { p with parts := [] } p.parts with
  | .ok place => .ok (t.lookup place)
  | .error (.nameTooLong shown) => .error (.nameTooLong shown)
  | .error _ => .ok none

/-- Opens a text file by a path seen from the working directory. -/
def openText (t : FileTree) (p : Path) : Except FileError String := do
  let start : Path := if p.isAbsolute then { slashes := 1 } else t.directory
  let place ← t.follow p.render start p.parts
  t.readText place p.render

/-- Sets what is at a path. -/
def put (t : FileTree) (p : Path) (entry : FileEntry) : FileTree :=
  if t.entries.any (·.1 == p) then
    { t with entries := t.entries.map fun e => if e.1 == p then (p, entry) else e }
  else { t with entries := t.entries ++ [(p, entry)] }

/-- The path as errors show it if some name in it is too long: as far as that name if the directory
before it is missing and would be made first, and else the whole path. -/
def tooLong? (t : FileTree) (p : Path) : Option String :=
  (p.parts.findIdx? Path.isTooLong).map fun n =>
    let before : Path := { p with parts := p.parts.take n }
    if (t.lookup before).isSome then p.render else { p with parts := p.parts.take (n + 1) }.render

/-- Makes sure that a path is a directory. -/
def makeDirectory (t : FileTree) (p : Path) : Except FileError FileTree :=
  match t.lookup p with
  | some .directory => .ok t
  | some (.file _) => .error (.alreadyExists p.render)
  | none =>
    if t.runsThroughFile p then .error (.notDirectory p.render)
    else
      match t.tooLong? p with
      | some shown => .error (.nameTooLong shown)
      | none => .ok (t.put p .directory)

/-- Writes a text file into a directory that exists. -/
def write (t : FileTree) (p : Path) (text : String) : Except FileError FileTree :=
  match t.lookup p, t.tooLong? p with
  | _, some shown => .error (.nameTooLong shown)
  | some .directory, _ => .error (.isDirectory p.render)
  | _, _ => .ok (t.put p (.file text.toUTF8.toList))

/-- The files of a tree that are new or differ from those of an earlier tree. -/
def changes (t earlier : FileTree) : List (Path × List UInt8) :=
  t.entries.filterMap fun (p, entry) =>
    match entry with
    | .file contents => if earlier.lookup p = some (.file contents) then none else some (p, contents)
    | .directory => none

end FileTree

end TypeGuard
