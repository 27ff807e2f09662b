import TypeGuard.Syntax.Program

/-!
# Type descriptors

A descriptor is what a validator checks, built from irreducible types and references by the
combinators of the validation library. Most descriptors may carry a name, which shows up in the
failures of the validator.
-/

namespace TypeGuard

/-- The irreducible types of the validation library. -/
inductive Irreducible where
  | number
  | string
  | boolean
  | nil
  | any
  | function
  | other (name : String)
  deriving DecidableEq, Repr

namespace Irreducible

def name : Irreducible → String
  | .number => "Number"
  | .string => "String"
  | .boolean => "Boolean"
  | .nil => "Nil"
  | .any => "Any"
  | .function => "Function"
  | .other name => name

def known : List Irreducible := [.number, .string, .boolean, .nil, .any, .function]

def ofName (s : String) : Irreducible := (known.find? (·.name == s)).getD (.other s)

end Irreducible

inductive Descriptor where
  /-- A type of the program, by the expression that stands for it. -/
  | reference (expr : Expr)
  | primitive (base : Irreducible)
  | list (element : Descriptor) (name : Option String)
  | maybe (inner : Descriptor) (name : Option String)
  | tuple (items : List Descriptor) (name : Option String)
  | union (members : List Descriptor) (name : Option String)
  | enums (values : List String) (name : Option String)
  | dict (domain codomain : Descriptor) (name : Option String)
  | refinement (base : Descriptor) (predicate : Expr) (name : Option String)
  | intersection (members : List Descriptor) (name : Option String)
  | interface (props : List (String × Descriptor)) (name : Option String)
  | extend (mixins : List Descriptor) (props : Descriptor) (name : Option String)
  /-- The numbers equal to one value. -/
  | literal (value : Number) (name : Option String)
  deriving Inhabited

namespace Descriptor

/-- The function that accepts exactly the numbers equal to `value`. -/
def equalsPredicate (value : Number) : Expr :=
  .function { params := [{ binding := .ident "n" }] }
    [.ret (some (.binary "===" (.ident "n") (.number value)))] none .unknown

/-- A call of a combinator of the library, with the name of the type as a last argument. -/
def combine (library : Expr) (path : List String) (args : List Expr) (name : Option String) :
    Expr :=
  .call (path.foldl .member library) (args ++ name.toList.map .string)

mutual
/-- The expression that builds the descriptor's validator with the given library. -/
def lower (library : Expr) : Descriptor → Expr
  | .reference expr => expr
  | .primitive base => .member library base.name
  | .list element name => combine library ["list"] [lower library element] name
  | .maybe inner name => combine library ["maybe"] [lower library inner] name
  | .tuple items name => combine library ["tuple"] [.array (lowerAll library items)] name
  | .union members name => combine library ["union"] [.array (lowerAll library members)] name
  | .enums values name => combine library ["enums", "of"] [.array (values.map .string)] name
  | .dict domain codomain name =>
    combine library ["dict"] [lower library domain, lower library codomain] name
  | .refinement base predicate name =>
    combine library ["refinement"] [lower library base, predicate] name
  | .intersection members name =>
    combine library ["intersection"] [.array (lowerAll library members)] name
  | .interface props name =>
    combine library ["interface"] [.object (lowerProps library props)] name
  | .extend mixins props name =>
    combine library ["interface", "extend"]
      [.array (lowerAll library mixins ++ [lower library props])] name
  | .literal value name =>
    combine library ["refinement"]
      [.member library Irreducible.number.name, equalsPredicate value] name

def lowerAll (library : Expr) : List Descriptor → List Expr
  | [] => []
  | d :: ds => lower library d :: lowerAll library ds

def lowerProps (library : Expr) : List (String × Descriptor) → List (Entry Expr)
  | [] => []
  | (key, d) :: props => .pair key (lower library d) :: lowerProps library props
end

end Descriptor

end TypeGuard
