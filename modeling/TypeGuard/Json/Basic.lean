import TypeGuard.Number.Basic
import TypeGuard.Script.Literal

/-!
# JSON values

The values of option files and reports. Objects keep the order of their keys.
-/

namespace TypeGuard

inductive Json where
  | null
  | bool (value : Bool)
  | number (value : Number)
  | string (value : String)
  | array (items : List Json)
  | object (members : List (String × Json))
  deriving Inhabited

namespace Json

def ofNat (n : Nat) : Json := .number (.int n)

/-- The name of a value's kind, as messages give it. -/
def kindName : Json → String
  | .null => "NoneType"
  | .bool _ => "bool"
  | .number (.int _) => "int"
  | .number (.float _) => "float"
  | .string _ => "str"
  | .array _ => "list"
  | .object _ => "dict"

/-- The empty values: null, false, zero, and the text, array and object without contents. -/
def isEmpty : Json → Bool
  | .null => true
  | .bool value => !value
  | .number (.int value) => value == 0
  | .number (.float (.finite _ mantissa _)) => mantissa == 0
  | .number (.float _) => false
  | .string value => value == ""
  | .array items => items.isEmpty
  | .object members => members.isEmpty

mutual
/-- A value as messages show it. -/
def display : Json → String
  | .null => "None"
  | .bool value => if value then "True" else "False"
  | .number value => value.render
  | .string value => Text.quoted value
  | .array items => "[" ++ ", ".intercalate (displayAll items) ++ "]"
  | .object members => "\x7b" ++ ", ".intercalate (displayMembers members) ++ "\x7d"

def displayAll : List Json → List String
  | [] => []
  | item :: items => display item :: displayAll items

def displayMembers : List (String × Json) → List String
  | [] => []
  | (key, value) :: members =>
    (Text.quoted key ++ ": " ++ display value) :: displayMembers members
end

/-- The parts of an array or object, one to a line and indented by two more blanks than the
brackets. -/
def bracketed (opening closing : String) (indent : Nat) (parts : List String) : String :=
  if parts.isEmpty then opening ++ closing
  else
    let margin (n : Nat) := "\n" ++ "".pushn ' ' n
    opening ++ margin (indent + 2) ++ ("," ++ margin (indent + 2)).intercalate parts
      ++ margin indent ++ closing

mutual
/-- A value as ASCII text, an array element or object member to a line. -/
def pretty (indent : Nat) : Json → String
  | .null => "null"
  | .bool value => if value then "true" else "false"
  | .number value => value.render
  | .string value => Script.stringLiteral value
  | .array items => bracketed "[" "]" indent (prettyAll (indent + 2) items)
  | .object members => bracketed "\x7b" "\x7d" indent (prettyMembers (indent + 2) members)

def prettyAll (indent : Nat) : List Json → List String
  | [] => []
  | item :: items => pretty indent item :: prettyAll indent items

def prettyMembers (indent : Nat) : List (String × Json) → List String
  | [] => []
  | (key, value) :: members =>
    (Script.stringLiteral key ++ ": " ++ pretty indent value) :: prettyMembers indent members
end

mutual
/-- A value as ASCII text on one line. -/
def compact : Json → String
  | .null => "null"
  | .bool value => if value then "true" else "false"
  | .number value => value.render
  | .string value => Script.stringLiteral value
  | .array items => "[" ++ ",".intercalate (compactAll items) ++ "]"
  | .object members => "\x7b" ++ ",".intercalate (compactMembers members) ++ "\x7d"

def compactAll : List Json → List String
  | [] => []
  | item :: items => compact item :: compactAll items

def compactMembers : List (String × Json) → List String
  | [] => []
  | (key, value) :: members =>
    (Script.stringLiteral key ++ ":" ++ compact value) :: compactMembers members
end

end Json

end TypeGuard
