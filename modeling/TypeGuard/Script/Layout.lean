import TypeGuard.Text.Blank
import TypeGuard.Text.Lines

/-!
# Indented output

Output grows by whole lines. Each line that is not blank is indented to the current level, and a
blank one is left empty. A block is a header, indented lines, and a footer.
-/

namespace TypeGuard.Script

structure Layout where
  /-- The indentation of one level. -/
  unit : String := "    "
  level : Nat := 0
  text : String := ""
  /-- The footers of the open blocks, the innermost first. -/
  footers : List String := []
  deriving DecidableEq, Repr

namespace Layout

/-- The indentation of the current level. -/
def margin (l : Layout) : String := String.join (List.replicate l.level l.unit)

/-- One line of output, with its line feed. -/
def line (l : Layout) (s : String) : String :=
  (if Text.isBlankText s then "" else l.margin ++ s) ++ "\n"

/-- Adds the lines of `code` at the current level. -/
def emit (code : String) (l : Layout) : Layout :=
  { l with text := l.text ++ String.join ((Text.lines code).map l.line) }

def indent (l : Layout) : Layout := { l with level := l.level + 1 }

def dedent (l : Layout) : Layout := { l with level := l.level - 1 }

/-- Opens a block. -/
def enter (header footer : String) (l : Layout) : Layout :=
  { (l.emit header).indent with footers := footer :: l.footers }

/-- Closes the innermost block, if there is one. -/
def leave? (l : Layout) : Option Layout :=
  match l.footers with
  | [] => none
  | footer :: footers => some ({ l with footers }.dedent.emit footer)

/-- Writes a whole block. -/
def wrap (header footer : String) (body : Layout → Layout) (l : Layout) : Layout :=
  (body (l.emit header).indent).dedent.emit footer

/-- Writes a whole block whose body may fail. -/
def block {ε : Type} (header footer : String) (body : Layout → Except ε Layout) (l : Layout) :
    Except ε Layout := do
  return ((← body (l.emit header).indent).dedent).emit footer

end Layout

/-- The text without the line feeds at its end. -/
def trimEnd (cs : List Char) : List Char := (cs.reverse.dropWhile (· == '\n')).reverse

/-- The text without the line feeds at its ends. -/
def trimLines (s : String) : String := .ofList (trimEnd (s.toList.dropWhile (· == '\n')))

end TypeGuard.Script
