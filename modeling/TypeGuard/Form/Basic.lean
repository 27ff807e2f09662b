import TypeGuard.Location
import TypeGuard.Number.Basic
import TypeGuard.Text.Quoted

/-!
# Forms

The source language is written in parenthesised forms. A list knows where its opening parenthesis
stands; a quoted form and a bracketed group are values of their own and not lists.
-/

namespace TypeGuard

inductive Form where
  | symbol (name : String)
  | text (value : String)
  | number (value : Number)
  | list (items : List Form) (position : Position)
  | quoted (form : Form)
  | brackets (items : List Form)
  deriving Inhabited

namespace Form

/-- The name of a form's kind, as messages give it. -/
def kindName : Form → String
  | .symbol _ => "Symbol"
  | .text _ => "str"
  | .number (.int _) => "int"
  | .number (.float _) => "float"
  | .list _ _ => "list"
  | .quoted _ => "Quoted"
  | .brackets _ => "Brackets"

mutual
/-- A form as messages show it. -/
def render : Form → String
  | .symbol name => "Symbol(" ++ Text.quoted name ++ ")"
  | .text value => Text.quoted value
  | .number value => value.render
  | .list items _ => "[" ++ ", ".intercalate (renderAll items) ++ "]"
  | .quoted form => "Quoted(" ++ render form ++ ")"
  | .brackets items => "Brackets(I=[" ++ ", ".intercalate (renderAll items) ++ "])"

def renderAll : List Form → List String
  | [] => []
  | form :: forms => render form :: renderAll forms
end

/-- The name in front of a list. -/
def head? : Form → Option String
  | .list (.symbol name :: _) _ => some name
  | _ => none

/-- Where a list opens; other forms have no position. -/
def position? : Form → Option Position
  | .list _ position => some position
  | _ => none

end Form

end TypeGuard
