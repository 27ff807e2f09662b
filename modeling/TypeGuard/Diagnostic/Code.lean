import TypeGuard.Text.Quoted

/-!
# Error codes

Each kind of failure has a code with a number, the phase it belongs to and a title.
-/

namespace TypeGuard

inductive Phase where
  | reading
  | lowering
  | declaration
  | printing
  | configuration
  deriving DecidableEq, Repr

def Phase.name : Phase → String
  | .reading => "syntax"
  | .lowering => "translation"
  | .declaration => "declaration"
  | .printing => "codegen"
  | .configuration => "config"

inductive Code where
  | malformedForm
  | unexpectedForm
  | unsupportedType
  | arrayArity
  | invalidRefinement
  | reservedName
  | unprintable
  | badOption
  deriving DecidableEq, Repr

namespace Code

def number : Code → Nat
  | .malformedForm => 1000
  | .unexpectedForm => 1001
  | .unsupportedType => 2001
  | .arrayArity => 2002
  | .invalidRefinement => 2003
  | .reservedName => 3001
  | .unprintable => 4001
  | .badOption => 5001

def phase : Code → Phase
  | .malformedForm | .unexpectedForm => .reading
  | .unsupportedType | .arrayArity | .invalidRefinement => .lowering
  | .reservedName => .declaration
  | .unprintable => .printing
  | .badOption => .configuration

def title : Code → String
  | .malformedForm => "malformed s-expression"
  | .unexpectedForm => "unexpected form"
  | .unsupportedType => "unsupported type annotation"
  | .arrayArity => "invalid Array arity"
  | .invalidRefinement => "invalid refinement definition"
  | .reservedName => "reserved name"
  | .unprintable => "unprintable node"
  | .badOption => "bad compiler option"

def text (c : Code) : String := s!"FLOW-{c.number}"

def render (c : Code) : String :=
  "ErrorCode(" ++ Text.quoted c.text ++ ", " ++ Text.quoted c.title ++ ")"

theorem number_injective {c d : Code} (h : c.number = d.number) : c = d := by
  cases c <;> cases d <;> first | rfl | (simp [number] at h)

end Code

end TypeGuard
