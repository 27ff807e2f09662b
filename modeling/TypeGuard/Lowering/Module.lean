import TypeGuard.Diagnostic.Basic
import TypeGuard.Lowering.Function

/-!
# Lowering modules

Type declarations become constants that hold their validators, and functions are instrumented. The
statements of a file are lowered in order, and a failure is reported at the innermost declaration
or function around it.
-/

namespace TypeGuard

/-- The constant that holds the validator of a declared type. The type is read with the parameters of
its declaration in scope. -/
def validatorOf (name : String) (loc : Location) (typeParams : List String)
    (read : Scope → Except TypeError Descriptor) : Lowering TypeError Stmt := do
  let descriptor ← Lowering.inFrame typeParams do Lowering.ofExcept (read (← get).scope)
  Lowering.note (.declared loc name)
  let library ← Lowering.library
  return .var .const (.ident name) (some (descriptor.lower library)) loc

/-- Lowers a type declaration. -/
def TypeAlias.lower (decl : TypeAlias) : Lowering TypeError Stmt :=
  validatorOf decl.name decl.loc decl.typeParams decl.descriptorIn

/-- Lowers an interface. -/
def InterfaceDecl.lower (decl : InterfaceDecl) : Lowering TypeError Stmt :=
  validatorOf decl.name decl.loc decl.typeParams decl.descriptorIn

/-- Reports the failure of a step at a location. -/
def Lowering.positioned {α : Type} (loc : Location) (step : Lowering TypeError α) :
    Lowering Diagnostic α :=
  step.adapt fun e => .ofFault e.fault (some loc)

section
variable (options : Options)

/-- The body of a function with its checks, unless functions are to stay as they are. -/
def checkedBody (signature : Signature Pattern Expr) (body : List Stmt) (loc : Location) :
    Lowering Diagnostic (List Stmt) :=
  if options.skipAsserts then pure body
  else (instrument signature (.block body) false).positioned loc

/-- The body of an arrow function with its checks, unless functions are to stay as they are. -/
def checkedArrowBody (signature : Signature Pattern Expr) (body : Body Stmt Expr)
    (loc : Location) : Lowering Diagnostic (Body Stmt Expr) :=
  if options.skipAsserts then pure body
  else do return .block (← (instrument signature body true).positioned loc)

mutual

/-- Lowers an expression: functions, and what stands in calls. -/
def Expr.lower : Expr → Lowering Diagnostic Expr
  | .function signature body name loc => do
    let body ← Stmt.lowerAll body
    return .function signature (← checkedBody options signature body loc) name loc
  | .arrow signature body loc => do
    let body ← Expr.lowerBody body
    return .arrow signature (← checkedArrowBody options signature body loc) loc
  | .call callee args => do
    let callee ← Expr.lower callee
    return .call callee (← Expr.lowerAll args)
  | e => pure e

def Expr.lowerBody : Body Stmt Expr → Lowering Diagnostic (Body Stmt Expr)
  | .block stmts => do return .block (← Stmt.lowerAll stmts)
  | .expression value => do return .expression (← Expr.lower value)

def Expr.lowerAll : List Expr → Lowering Diagnostic (List Expr)
  | [] => pure []
  | e :: es => do
    let e ← Expr.lower e
    return e :: (← Expr.lowerAll es)

/-- Lowers a statement. At the top level of a module it may designate the library. -/
def Stmt.lower (topLevel : Bool) : Stmt → Lowering Diagnostic Stmt
  | .typeAlias decl => decl.lower.positioned decl.loc
  | .interface decl => decl.lower.positioned decl.loc
  | .function name signature body loc => do
    let body ← Stmt.lowerAll body
    return .function name signature (← checkedBody options signature body loc) loc
  | .imports decl => do
    if topLevel then modify fun ctx => (ctx.register (.imports decl)).2
    return .imports decl
  | .var kind target none loc => do
    if topLevel then modify fun ctx => (ctx.register (.var kind target none loc)).2
    return .var kind target none loc
  | .var kind target (some init) loc => do
    if topLevel then modify fun ctx => (ctx.register (.var kind target (some init) loc)).2
    return .var kind target (some (← Expr.lower init)) loc
  | .exports declaration loc => do return .exports (← Stmt.lower topLevel declaration) loc
  | .ret (some argument) => do return .ret (some (← Expr.lower argument))
  | .ret none => pure (.ret none)
  | .expr expression => do return .expr (← Expr.lower expression)
  | .block body => do return .block (← Stmt.lowerAll body)
  | .raw text => pure (.raw text)
  | .stray value => pure (.stray value)

/-- Lowers statements below the top level. -/
def Stmt.lowerAll : List Stmt → Lowering Diagnostic (List Stmt)
  | [] => pure []
  | s :: ss => do
    let s ← Stmt.lower false s
    return s :: (← Stmt.lowerAll ss)

end

/-- Lowers the statements of a module. -/
def Stmt.lowerTop : List Stmt → Lowering Diagnostic (List Stmt)
  | [] => pure []
  | s :: ss => do
    let s ← Stmt.lower options true s
    return s :: (← Stmt.lowerTop ss)

end

/-- The context in which the lowering of a program starts. -/
def Context.prepare (program : Program) (ctx : Context) : Context :=
  (ctx.reset (some program.file)).reserve program.declaredNames

end TypeGuard
