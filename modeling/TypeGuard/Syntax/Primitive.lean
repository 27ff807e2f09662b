/-!
# Primitive annotations

The annotation keywords that name a type of the host language directly.
-/

namespace TypeGuard

inductive Primitive where
  | number
  | string
  | boolean
  | void
  | null
  | any
  | mixed
  deriving DecidableEq, Repr, Inhabited

namespace Primitive

def all : List Primitive := [.number, .string, .boolean, .void, .null, .any, .mixed]

/-- The keyword in source texts. -/
def keyword : Primitive → String
  | .number => "number"
  | .string => "string"
  | .boolean => "boolean"
  | .void => "void"
  | .null => "null"
  | .any => "any"
  | .mixed => "mixed"

def ofKeyword? (s : String) : Option Primitive := all.find? (·.keyword == s)

theorem ofKeyword?_keyword (p : Primitive) : ofKeyword? p.keyword = some p := by
  cases p <;> rfl

end Primitive

end TypeGuard
