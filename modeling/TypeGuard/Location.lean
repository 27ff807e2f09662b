/-!
# Source locations

A place in a text is a line and a column, both counted from one; a location adds the file. Line and
column zero stand for a place that is not known.
-/

namespace TypeGuard

structure Position where
  line : Nat := 0
  col : Nat := 0
  deriving DecidableEq, Repr, Inhabited

structure Location where
  file : String := "<unknown>"
  line : Nat := 0
  col : Nat := 0
  deriving DecidableEq, Repr, Inhabited

namespace Location

/-- The location of a tree that was not read from a source text. -/
def unknown : Location := {}

def render (l : Location) : String := s!"{l.file}:{l.line}:{l.col}"

end Location

def Position.inFile (file : String) (p : Position) : Location := ⟨file, p.line, p.col⟩

end TypeGuard
