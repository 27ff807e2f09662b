import TypeGuard.Proofs.Value
import TypeGuard.Syntax.Binding

/-!
# Destructuring

How the arguments of a call are bound to the parameters of a function, and what an expression over
the bound names is worth. Binding goes from left to right, and a default is evaluated in what is
bound so far.
-/

namespace TypeGuard

/-- What is bound, in the order of binding. -/
abbrev Env := List (String × Value)

/-- What destructuring takes from its host: the properties and elements of values that are neither
objects nor arrays, and the values of expressions. -/
structure Host where
  property : Value → String → Value
  own : Value → String → Option Value
  elements : Value → Option (List Value)
  evaluate : Env → Expr → Option Value

namespace Value

variable (host : Host)

/-- The properties of its own that a value has. -/
def own : Value → String → Option Value
  | .object properties => properties
  | v => if v.isNil then fun _ => none else host.own v

/-- The elements that a value is iterated over. -/
def elements : Value → Option (List Value)
  | .array vs => some vs
  | v => host.elements v

/-- The value, or that of a default in the place of an undefined one. -/
def orDefault (env : Env) (default : Option Expr) : Value → Option Value
  | .undefined =>
    match default with
    | some e => host.evaluate env e
    | none => some .undefined
  | v => some v

/-- The object of the properties that are not among the given ones. -/
def without (keys : List String) (v : Value) : Value :=
  .object fun key => if key ∈ keys then none else v.own host key

end Value

section
variable (host : Host)

namespace Pattern

mutual

/-- Binds the names of a pattern to the parts of a value. -/
def bind : Pattern → Value → Env → Option Env
  | .ident name, v, env => some (env ++ [(name, v)])
  | .default target value, v, env => do
    let v ← v.orDefault host env (some value)
    bind target v env
  | .object fields rest, v, env =>
    if v.isNil then none
    else do
      let env ← bindFields fields v env
      return env ++ rest.toList.map fun name => (name, v.without host (fields.map (·.key)))
  | .array elements rest, v, env => do
    let vs ← v.elements host
    let env ← bindElements elements vs env
    return env ++ rest.toList.map fun name => (name, .array (vs.drop elements.length))
  | .stray _, _, _ => none

def bindFields : List (PatternField Pattern) → Value → Env → Option Env
  | [], _, env => some env
  | ⟨key, value⟩ :: fields, v, env => do
    let env ← bind value (v.get host.property key) env
    bindFields fields v env

/-- Where the values run out, the elements are undefined. -/
def bindElements : List (Option Pattern) → List Value → Env → Option Env
  | [], _, env => some env
  | none :: elements, vs, env => bindElements elements vs.tail env
  | some element :: elements, vs, env => do
    let env ← bind element (vs.headD .undefined) env
    bindElements elements vs.tail env

end

end Pattern

/-- Binds the arguments of a call to the parameters of a function. -/
def bindParams : List (Param Pattern Expr) → List Value → Env → Option Env
  | [], _, env => some env
  | param :: params, args, env =>
    if param.rest then do
      let env ← param.binding.bind host (.array args) env
      bindParams params [] env
    else do
      let v ← (args.headD .undefined).orDefault host env param.default
      let env ← param.binding.bind host v env
      bindParams params args.tail env

mutual

/-- The value of an expression over bound names. -/
def Expr.value (env : Env) : Expr → Option Value
  | .ident name =>
    match env.lookup name with
    | some v => some v
    | none => if name = "undefined" then some .undefined else none
  | .array elements => do return .array (← Expr.values env elements)
  | .object entries => do return .object (← Expr.properties env entries)
  | e => host.evaluate env e

/-- The values of a list of expressions, in which some may be spread. -/
def Expr.values (env : Env) : List Expr → Option (List Value)
  | [] => some []
  | .spread e :: es => do
    let v ← Expr.value env e
    let vs ← v.elements host
    return vs ++ (← Expr.values env es)
  | e :: es => do
    let v ← Expr.value env e
    return v :: (← Expr.values env es)

/-- The properties of an object literal; of two entries for one key the later one counts. -/
def Expr.properties (env : Env) : List (Entry Expr) → Option (String → Option Value)
  | [] => some fun _ => none
  | .pair name e :: entries => do
    let v ← Expr.value env e
    let later ← Expr.properties env entries
    return fun key => (later key).or (if key = name then some v else none)
  | .spread e :: entries => do
    let v ← Expr.value env e
    let later ← Expr.properties env entries
    return fun key => (later key).or (v.own host key)

end

end

/-- The expression of a key in an object literal, read as `Expr.properties` reads it: of two entries
for one key the later one counts. What is spread is not looked into. -/
def Expr.entry? (key : String) : List (Entry Expr) → Option Expr
  | [] => none
  | .pair name e :: entries => (Expr.entry? key entries).or (if key = name then some e else none)
  | .spread _ :: entries => Expr.entry? key entries

end TypeGuard
