import TypeGuard.Text.Lines

/-!
# Paths

A path is a sequence of names behind no slash, one slash, or two slashes. Empty segments and single
dots do not count, and three slashes or more are one.
-/

namespace TypeGuard

structure Path where
  /-- The number of slashes in front: none, one or two. -/
  slashes : Nat := 0
  parts : List String := []
  deriving DecidableEq, Repr

namespace Path

def ofString (s : String) : Path where
  slashes :=
    let count := (s.toList.takeWhile (· == '/')).length
    if count ≤ 2 then count else 1
  parts := (Text.split '/' s).filter fun part => part ≠ "" ∧ part ≠ "."

/-- A path behind a slash is absolute. -/
def isAbsolute (p : Path) : Bool := p.slashes ≠ 0

def render (p : Path) : String :=
  if p.isAbsolute then "".pushn '/' p.slashes ++ "/".intercalate p.parts
  else if p.parts.isEmpty then "."
  else "/".intercalate p.parts

/-- The path seen from a directory, with double dots taken as the way up. -/
def resolve (directory p : Path) : Path :=
  let climb (kept : List String) (part : String) : List String :=
    if part = ".." then kept.dropLast else kept ++ [part]
  if p.isAbsolute then ⟨1, p.parts.foldl climb []⟩
  else ⟨directory.slashes, (directory.parts ++ p.parts).foldl climb []⟩

/-- The path with a tilde in front taken as the home directory. The home directories of other users
are not known. -/
def expandHome (home : Option Path) (p : Path) : Option Path :=
  match p.parts with
  | [] => some p
  | first :: rest =>
    if p.isAbsolute || first.toList.head? ≠ some '~' then some p
    else if first = "~" then home.map fun h => { h with parts := h.parts ++ rest }
    else none

/-- The most bytes a name may have. -/
def maxName : Nat := 255

def isTooLong (name : String) : Bool := name.utf8ByteSize > maxName

def child (p : Path) (name : String) : Path := { p with parts := p.parts ++ [name] }

def parent (p : Path) : Path := { p with parts := p.parts.dropLast }

/-- The path lies below the directory, at whatever depth. -/
def isBelow (p directory : Path) : Bool :=
  p.slashes == directory.slashes && p.parts.length > directory.parts.length
    && directory.parts.isPrefixOf p.parts

/-- The directories above a path, from the root down, and the path itself. -/
def lineage (p : Path) : List Path :=
  (List.range (p.parts.length + 1)).map fun n => { p with parts := p.parts.take n }

/-- The last name without its extension. A dot at either end does not begin an extension. -/
def stem (p : Path) : String :=
  let name := (p.parts.getLast?.getD "").toList
  let extension := (name.reverse.takeWhile (· != '.')).length
  let kept := name.length - extension - 1
  if extension = 0 ∨ name.length ≤ extension ∨ kept = 0 then .ofList name
  else .ofList (name.take kept)

end Path

end TypeGuard
