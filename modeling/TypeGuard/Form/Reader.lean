import TypeGuard.Form.Position
import TypeGuard.Form.Token

/-!
# Reading forms

A source text holds exactly one form. Tokens are assembled on a stack of the forms that are still
open. An apostrophe opens a level of its own that ends with the enclosing form: its first item is
quoted and the others are not.
-/

namespace TypeGuard

/-- Why a text is no form. -/
inductive ReadError where
  /-- A bracket is open where another one, or the end of the text, stands. -/
  | unclosed (expected : Bracket) (got : Option Bracket)
  /-- A closing bracket has no opening one; the text from it on. -/
  | unopened (rest : List Char)
  /-- Nothing follows the apostrophe at this offset. -/
  | nothingQuoted (offset : Nat)
  | unterminated
  | danglingEscape
  /-- The text holds no form, or several. -/
  | notOne
  deriving DecidableEq, Repr

namespace ReadError

def reason : ReadError → String
  | .unclosed expected got =>
    "Not enough closing brackets. Expected " ++ Text.quoted (.singleton expected.closer)
      ++ " to be the last letter in the sexp. Got: "
      ++ (match got with
          | some bracket => Text.quoted (.singleton bracket.closer)
          | none => "None")
  | .unopened rest =>
    "Too many closing brackets. Expected no character left in the sexp. Got: "
      ++ Text.quoted (.ofList rest)
  | .nothingQuoted offset => s!"No s-exp is found after an apostrophe at position {offset}"
  | .unterminated => "'NoneType' object has no attribute 'start'"
  | .danglingEscape => "string index out of range"
  | .notOne => ""

end ReadError

namespace Form

/-- What opened a level: a bracket, or the apostrophe at an offset. -/
inductive Opener where
  | bracket (bracket : Bracket)
  | apostrophe (offset : Nat)
  deriving DecidableEq, Repr

/-- The forms read so far: those of the innermost level, and the enclosing levels from the inside
out, each with its opener and the forms in front of it. All forms are kept in reverse. -/
structure Levels where
  current : List Form := []
  outer : List (Opener × List Form) := []

/-- An atom is a number if it can be read as one, and a symbol otherwise. -/
def ofAtom (cs : List Char) : Form :=
  match Numeral.read? cs with
  | some value => .number value
  | none => .symbol (.ofList cs)

namespace Levels

def push (form : Form) (l : Levels) : Levels := { l with current := form :: l.current }

/-- Opens a level. -/
def enter (opener : Opener) (l : Levels) : Levels := ⟨[], (opener, l.current) :: l.outer⟩

/-- Ends the levels of apostrophes around the innermost forms, up to the next bracket. -/
def closeQuotes (current : List Form) : List (Opener × List Form) → Except ReadError Levels
  | (.apostrophe offset, before) :: outer =>
    match current.reverse with
    | [] => .error (.nothingQuoted offset)
    | first :: others => closeQuotes (others.reverse ++ .quoted first :: before) outer
  | outer => .ok ⟨current, outer⟩

/-- Ends the innermost bracket, at an offset of the text `cs`. -/
def close (bracket : Bracket) (cs : List Char) (offset : Nat) (l : Levels) :
    Except ReadError Levels := do
  match ← closeQuotes l.current l.outer with
  | ⟨current, (.bracket expected, before) :: outer⟩ =>
    if bracket = expected then
      let form : Form := match expected with
        | .round => .list current.reverse {}
        | .square => .brackets current.reverse
      return ⟨form :: before, outer⟩
    else throw (.unclosed expected (some bracket))
  | _ => throw (.unopened (cs.drop offset))

/-- The forms of a text whose tokens are used up. -/
def finish (l : Levels) : Except ReadError (List Form) := do
  match ← closeQuotes l.current l.outer with
  | ⟨_, (.bracket expected, _) :: _⟩ => throw (.unclosed expected none)
  | ⟨current, _⟩ => return current.reverse

/-- Takes the next token of the text `cs`. -/
def step (cs : List Char) (l : Levels) (lexeme : Lexeme) : Except ReadError Levels :=
  match lexeme.token with
  | .opening bracket => .ok (l.enter (.bracket bracket))
  | .apostrophe => .ok (l.enter (.apostrophe lexeme.offset))
  | .closing bracket => l.close bracket cs lexeme.offset
  | .text value => .ok (l.push (.text (.ofList value)))
  | .atom value => .ok (l.push (ofAtom value))
  | .unterminated => .error .unterminated
  | .danglingEscape => .error .danglingEscape

end Levels

/-- The forms that the tokens of a text make up. -/
def ofLexemes (cs : List Char) (lexemes : List Lexeme) : Except ReadError (List Form) := do
  (← lexemes.foldlM (Levels.step cs) {}).finish

/-- Reads the one form of a text, with the positions of its lists. -/
def read (source : String) : Except ReadError Form := do
  match ← ofLexemes source.toList (Token.scan source.toList) with
  | [form] => return (form.locate (Position.openings source.toList)).1
  | _ => throw .notOne

end Form

end TypeGuard
