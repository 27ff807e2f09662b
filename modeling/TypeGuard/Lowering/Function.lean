import TypeGuard.Syntax.Binding
import TypeGuard.Lowering.Basic

/-!
# Instrumented functions

A function with annotations gets checks in front of its body, one for each annotated parameter. If
its return type is annotated, the body moves into an inner function that is called with the same
arguments, and its result is checked before it is returned.
-/

namespace TypeGuard

/-- The name under which the result of a function is checked. -/
def returnLabel : String := "return value"

namespace Instrument

/-- The body of a function as statements. -/
def statements : Body Stmt Expr → List Stmt
  | .block stmts => stmts
  | .expression value => [.ret (some value)]

/-- A call of the assertion helper. -/
def assertion (value : Expr) (descriptor : Descriptor) (label : String) :
    Lowering TypeError Stmt := do
  let library ← Lowering.library
  let helper ← Lowering.helperName
  return .expr (.call (.ident helper) [value, descriptor.lower library, .string label])

/-- What is checked for parameter `index`, and the name it is checked under. An arrow function has no
arguments object, and a defaulted pattern is checked after the default applied: there the value is
built again from the names. -/
def subject (param : Param Pattern Expr) (index : Nat) (arrow : Bool) : Expr × String :=
  match param.binding with
  | .ident name => (.ident name, name)
  | binding =>
    let label := s!"arguments[{index}]"
    if arrow || param.default.isSome then (binding.rebuild, label) else (.raw label, label)

/-- The descriptor that an annotated parameter is checked against. -/
def paramDescriptor (scope : Scope) (type : Ty) (optional : Bool) : Except TypeError Descriptor := do
  let descriptor ← type.descriptor scope none
  return if optional then .maybe descriptor none else descriptor

/-- The checks of the parameters from `index` on. -/
def checks (scope : Scope) (arrow : Bool) (index : Nat) :
    List (Param Pattern Expr) → Lowering TypeError (List Stmt)
  | [] => pure []
  | param :: params =>
    match param.type with
    | none => checks scope arrow (index + 1) params
    | some type => do
      let descriptor ← Lowering.ofExcept (paramDescriptor scope type param.optional)
      let (value, label) := subject param index arrow
      let check ← assertion value descriptor label
      return check :: (← checks scope arrow (index + 1) params)

/-- The parameters of the inner function: the same bindings, without annotations and defaults. -/
def innerParams (params : List (Param Pattern Expr)) : List (Param Pattern Expr) :=
  params.map fun param => { binding := param.binding, rest := param.rest }

/-- The arguments that the inner function is called with. -/
def forwarded (params : List (Param Pattern Expr)) : List Expr :=
  params.map fun param =>
    if param.rest then .spread param.binding.rebuild else param.binding.rebuild

/-- Moves the body into an inner function and checks its result. -/
def wrapReturn (scope : Scope) (signature : Signature Pattern Expr) (returnType : Ty)
    (body : List Stmt) : Lowering TypeError (List Stmt) := do
  let result := (← get).freshLocal "ret" signature.boundNames
  let inner := Expr.function { params := innerParams signature.params } body none .unknown
  let call := Expr.call (.member inner "call") (.this :: forwarded signature.params)
  let descriptor ← Lowering.ofExcept (returnType.descriptor scope none)
  let check ← assertion (.ident result) descriptor returnLabel
  return [.var .const (.ident result) (some call) .unknown, check, .ret (some (.ident result))]

/-- The body of a function, wrapped if its return type is annotated. -/
def returning (scope : Scope) (signature : Signature Pattern Expr) (body : List Stmt) :
    Lowering TypeError (List Stmt) :=
  match signature.returnType with
  | some returnType => wrapReturn scope signature returnType body
  | none => pure body

/-- The checks of a function and the body behind them, with all frames open that its annotations are
read in. -/
def parts (signature : Signature Pattern Expr) (body : List Stmt) (arrow : Bool) :
    Lowering TypeError (List Stmt × List Stmt) := do
  let scope := (← get).scope
  let tail ← returning scope signature body
  return (← checks scope arrow 0 signature.params, tail)

end Instrument

open Instrument in
/-- The body of a function with its checks. -/
def instrument (signature : Signature Pattern Expr) (body : Body Stmt Expr) (arrow : Bool) :
    Lowering TypeError (List Stmt) := do
  let (found, tail) ←
    Lowering.inFrame signature.typeParams (parts signature (statements body) arrow)
  Lowering.note (.instrumented (← get).file found.length signature.returnType.isSome)
  return found ++ tail

end TypeGuard
