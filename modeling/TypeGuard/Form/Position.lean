import TypeGuard.Form.Basic

/-!
# Positions of lists

The opening parentheses of a text outside strings and comments are numbered in order, and so are the
lists of a form, each before the lists inside it. The list with a given number gets the position of
the parenthesis with that number. Lists inside quoted and bracketed forms are not numbered.
-/

namespace TypeGuard

namespace Position

/-- Where the search for parentheses stands in the text. -/
structure Cursor where
  line : Nat := 1
  col : Nat := 0
  inString : Bool := false
  escaped : Bool := false
  inComment : Bool := false
  deriving DecidableEq, Repr

/-- Passes one character, and gives its position if it is an opening parenthesis. A line end closes a
comment and leaves the rest as it is. -/
def Cursor.step (c : Char) (k : Cursor) : Option Position × Cursor :=
  let k := { k with col := k.col + 1 }
  if c = '\n' then (none, { k with line := k.line + 1, col := 0, inComment := false })
  else if k.inComment then (none, k)
  else if k.inString then
    if k.escaped then (none, { k with escaped := false })
    else if c = '\\' then (none, { k with escaped := true })
    else if c = '"' then (none, { k with inString := false })
    else (none, k)
  else if c = '"' then (none, { k with inString := true })
  else if c = ';' then (none, { k with inComment := true })
  else if c = '(' then (some ⟨k.line, k.col⟩, k)
  else (none, k)

def openingsFrom (k : Cursor) : List Char → List Position
  | [] => []
  | c :: cs =>
    let (found, next) := k.step c
    found.toList ++ openingsFrom next cs

/-- The positions of the opening parentheses outside strings and comments. -/
def openings (cs : List Char) : List Position := openingsFrom {} cs

end Position

namespace Form

mutual
/-- Gives each list the next of the positions, a list before the lists inside it, and returns the
positions that are left. A list for which none is left has position zero. -/
def locate (positions : List Position) : Form → Form × List Position
  | .list items _ =>
    let (items', rest) := locateAll (positions.drop 1) items
    (.list items' (positions.headD {}), rest)
  | form => (form, positions)

def locateAll (positions : List Position) : List Form → List Form × List Position
  | [] => ([], positions)
  | form :: forms =>
    let (form', rest) := locate positions form
    let (forms', rest') := locateAll rest forms
    (form' :: forms', rest')
end

end Form

end TypeGuard
