import TypeGuard.Compile
import TypeGuard.Datum.Descriptor

/-!
# Sessions

A session takes requests one after the other on a single context. A request that fails
leaves the context as far as it got, and the session goes on.
-/

namespace TypeGuard

/-- A tree given as a source text or as plain data. -/
inductive Given where
  | source (text : String)
  | tree (value : Datum)

/-- The result of looking at an annotation, with its printed form. -/
structure Mapped where
  operand : Operand
  text : String

inductive Request where
  | prepare (file source : String)
  | statement (stmt : Given)
  | nested (stmt : Given)
  | declaration (stmt : Given)
  | instrument (function : Given) (arrow : Bool)
  | map (type : Given) (name : Option String) (asOperand : Bool)
  | register (stmt : Given)
  | library
  | reset (file : Option String)
  | enter (names : List String)
  | exit
  | isTypeParameter (name : String)
  | reserve (names : List String)
  | freshName (base : String)
  | freshLocal (base : String) (avoid : List String)
  | assertName

/-- Why a request failed. -/
inductive RequestError where
  | fault (fault : Fault)
  | diagnostic (diagnostic : Diagnostic)
  /-- There is no frame to leave. -/
  | noFrame
  /-- The source text holds no statement. -/
  | noStatement
  /-- A tree of this kind lacks a field that the request is about. -/
  | lacking (kind field : String)

inductive Reply where
  | done
  | text (value : String)
  | flag (value : Bool)
  | names (values : List String)
  | mapped (value : Mapped)
  | failed (error : RequestError)

structure Session where
  options : Options := {}
  context : Context := {}
  /-- The number of frames entered by request and not yet left by request. -/
  entered : Nat := 0

namespace Given

/-- The statement that is given; a source text stands for the first statement of a program. -/
def stmt (file : String) : Given → Except RequestError Stmt
  | .tree value => .ok (.ofDatum value)
  | .source text =>
    match Program.parse file ("(program " ++ text ++ ")") with
    | .error e => .error (.fault e.fault)
    | .ok program =>
      match program.body with
      | [] => .error .noStatement
      | stmt :: _ => .ok stmt

/-- The annotation that is given. -/
def type : Given → Except RequestError Ty
  | .tree value => .ok (.ofDatum value)
  | .source text => (Ty.parse text).mapError fun e => .fault e.fault

/-- The function that is given: a declaration, an expression, or the initial value of a variable. -/
def function (file : String) (given : Given) :
    Except RequestError (Signature Pattern Expr × Body Stmt Expr) := do
  let value ← match given with
    | .tree value => pure value
    | .source _ => do pure (← given.stmt file).toDatum
  match Body.ofFunction? value, value with
  | some function, _ => return function
  | none, .record .varDecl _ =>
    throw (.lacking ((value.field? "init").getD .nothing).kindName "signature")
  | none, _ => throw (.lacking value.kindName "signature")

end Given

/-- Why a tree that is no type declaration cannot be taken for one. -/
def Datum.undeclarable (value : Datum) : RequestError :=
  match value.field? "name" with
  | none => .lacking value.kindName "name"
  | some (.text name) =>
    if name = refinementMarker then
      match value.loc? with
      | some loc => .fault (TypeError.reservedName loc).fault
      | none => .lacking value.kindName "loc"
    else .lacking value.kindName "type_params"
  | some _ => .lacking value.kindName "type_params"

/-- What an annotation stands for in a scope, as an operand or as a type. -/
def Ty.lookAt (scope : Scope) (name : Option String) (asOperand : Bool) (type : Ty) :
    Except TypeError Operand :=
  if asOperand then type.operand scope name
  else (type.descriptor scope name).map .type

/-- A step of a session. -/
abbrev SessionStep := ExceptT RequestError (StateM Context)

namespace SessionStep

def ofExcept {α : Type} (r : Except RequestError α) : SessionStep α := ExceptT.mk (pure r)

/-- Runs a lowering step; its failures are plain faults. -/
def plain {α : Type} (step : Lowering TypeError α) : SessionStep α :=
  step.adapt fun e => .fault e.fault

/-- Runs a lowering step; its failures are diagnostics. -/
def reported {α : Type} (step : Lowering Diagnostic α) : SessionStep α :=
  step.adapt .diagnostic

/-- The printed form of something. -/
def printed (r : Except PrintError String) : SessionStep String :=
  ofExcept (r.mapError fun e => .fault e.fault)

/-- The printed form of a statement. -/
def printedStmt (stmt : Stmt) : SessionStep Reply := do
  return .text (← printed (Program.print { body := [stmt] }))

def given {α : Type} (f : String → Except RequestError α) : SessionStep α := do
  ofExcept (f (← get).file)

/-- What an annotation stands for, with its printed form. -/
def mapped (operand : Operand) : SessionStep Mapped := do
  match operand with
  | .type descriptor =>
    let library ← plain Lowering.library
    return ⟨operand, ← printed (descriptor.lower library).print⟩
  | .refinement predicate _ => return ⟨operand, ← printed predicate.print⟩

/-- Answers a request that leaves the count of entered frames alone. -/
def answer (options : Options) : Request → SessionStep Reply
  | .prepare file source => do
    match Program.parse file source with
    | .error e => throw (.fault e.fault)
    | .ok program =>
      modify (Context.prepare program)
      return .done
  | .statement stmt => do
    let stmt ← given stmt.stmt
    printedStmt (← reported (Stmt.lower options true stmt))
  | .nested stmt => do
    let stmt ← given stmt.stmt
    printedStmt (← reported (Stmt.lower options false stmt))
  | .declaration stmt => do
    match ← given stmt.stmt with
    | .typeAlias decl => printedStmt (← plain decl.lower)
    | .interface decl => printedStmt (← plain decl.lower)
    | stmt => throw stmt.toDatum.undeclarable
  | .instrument function arrow => do
    let (signature, body) ← given function.function
    let body ← plain (TypeGuard.instrument signature body arrow)
    return .text (← printed (Expr.function signature body none .unknown).print)
  | .map type name asOperand => do
    let type ← ofExcept type.type
    match type.lookAt (← get).scope name asOperand with
    | .error e => throw (.fault e.fault)
    | .ok operand => return .mapped (← mapped operand)
  | .register stmt => do
    let stmt ← given stmt.stmt
    return .flag (← modifyGet (Context.register stmt))
  | .library => do return .text (← printed (← plain Lowering.library).print)
  | .reset file => do
    modify (Context.reset file)
    return .done
  | .enter names => do
    modify (Context.enter names)
    return .names (Context.sortedNames names)
  | .exit => do
    match (← get).leave? with
    | some context =>
      set context
      return .done
    | none => throw .noFrame
  | .isTypeParameter name => do return .flag ((← get).scope.binds name)
  | .reserve names => do
    modify (Context.reserve names)
    return .done
  | .freshName base => do return .text (← modifyGet (Context.freshName base))
  | .freshLocal base avoid => do return .text ((← get).freshLocal base avoid)
  | .assertName => do return .text (← plain Lowering.helperName)

end SessionStep

namespace Session

/-- The frames entered by request after a request. -/
def enteredAfter (entered : Nat) : Request → Nat
  | .enter _ => entered + 1
  | .exit => entered - 1
  | _ => entered

/-- Answers a request. To leave a frame, one must have been entered by request, and it counts as left
even if the context has no frame any more. -/
def handle (s : Session) (request : Request) : Reply × Session :=
  let entered := enteredAfter s.entered request
  match request, s.entered with
  | .exit, 0 => (.failed .noFrame, s)
  | request, _ =>
    let (reply, context) := (SessionStep.answer s.options request).run s.context
    let reply := match reply with
      | .ok reply => reply
      | .error e => .failed e
    (reply, { s with context, entered })

end Session

end TypeGuard
