import TypeGuard.Proofs.Syntax.Nodes
import TypeGuard.Script.Printer

/-!
# What can be printed

A tree has a printed form exactly if nothing that is printed is a type declaration or a stray.
-/

namespace TypeGuard

def Node.isFunction : Node → Bool
  | .function _ _ _ _ => true
  | .typeDecl _ | .stray => false

section
variable {ε α β : Type}

/-- A step whose success does not depend on what it is given. -/
theorem isOk_bind {x : Except ε α} {f : α → Except ε β} {succeeds : Bool}
    (h : ∀ a, (f a).isOk = succeeds) : (x >>= f).isOk = (x.isOk && succeeds) := by
  cases x with
  | error e => rfl
  | ok a => exact (h a).trans (Bool.true_and _).symm

theorem isOk_bind_pure {x : Except ε α} (f : α → β) :
    (x >>= fun a => pure (f a) : Except ε β).isOk = x.isOk := by
  cases x <;> rfl

end

namespace Script

variable (unit : String)

theorem isOk_block {ε : Type} (header footer : String) (body : Layout → Except ε Layout)
    (out : Layout) :
    (out.block header footer body).isOk = (body (out.emit header).indent).isOk :=
  isOk_bind_pure _

/-- However a field is written, it can be if its pattern can. -/
theorem isOk_printFields_cons (key : String) (value : Pattern)
    (fields : List (PatternField Pattern)) :
    (printFields unit (⟨key, value⟩ :: fields)).isOk
      = ((printPattern unit value).isOk && (printFields unit fields).isOk) := by
  cases value with
  | ident name => exact (isOk_bind_pure _).trans (Bool.true_and _).symm
  | default target value =>
    cases target with
    | ident name =>
      have whole : (printPattern unit (.default (.ident name) value)).isOk
          = (printExpr unit value).isOk := isOk_bind_pure _
      rw [whole]
      exact isOk_bind fun _ => isOk_bind_pure _
    | object | array | default | stray => exact isOk_bind fun _ => isOk_bind_pure _
  | object | array | stray => exact isOk_bind fun _ => isOk_bind_pure _

theorem isOk_printEntries_pair (key : String) (value : Expr) (entries : List (Entry Expr)) :
    (printEntries unit (.pair key value :: entries)).isOk
      = ((printExpr unit value).isOk && (printEntries unit entries).isOk) := by
  cases value with
  | ident name => exact (isOk_bind_pure _).trans (Bool.true_and _).symm
  | raw | this | member | call | string | number | array | object | spread | binary | function
  | arrow | stray => exact isOk_bind fun _ => isOk_bind_pure _

mutual

theorem isOk_printPattern : ∀ (p : Pattern) (b : Binders),
    (printPattern unit p).isOk = (p.nodes .printed b).all Node.isFunction
  | .ident _, _ | .stray _, _ => rfl
  | .object fields _, b => (isOk_bind_pure _).trans (isOk_printFields fields b)
  | .array elements _, b => (isOk_bind_pure _).trans (isOk_printElements elements b)
  | .default target value, b => by
    rw [printPattern, isOk_bind fun _ => isOk_bind_pure _, isOk_printPattern target b,
      isOk_printExpr value b, Pattern.nodes, List.all_append]
    rfl
termination_by structural p => p

theorem isOk_printFields : ∀ (fields : List (PatternField Pattern)) (b : Binders),
    (printFields unit fields).isOk = (Pattern.fieldNodes .printed b fields).all Node.isFunction
  | [], _ => rfl
  | ⟨key, value⟩ :: fields, b => by
    rw [isOk_printFields_cons, isOk_printPattern value b, isOk_printFields fields b,
      Pattern.fieldNodes, List.all_append]
termination_by structural fields => fields

theorem isOk_printElements : ∀ (elements : List (Option Pattern)) (b : Binders),
    (printElements unit elements).isOk
      = (Pattern.elementNodes .printed b elements).all Node.isFunction
  | [], _ => rfl
  | none :: elements, b => (isOk_bind_pure _).trans (isOk_printElements elements b)
  | some element :: elements, b => by
    rw [printElements, isOk_bind fun _ => isOk_bind_pure _, isOk_printPattern element b,
      isOk_printElements elements b, Pattern.elementNodes, List.all_append]
termination_by structural elements => elements

theorem isOk_printParam : ∀ (param : Param Pattern Expr) (b : Binders),
    (printParam unit param).isOk = (param.nodes .printed b).all Node.isFunction
  | ⟨binding, _, _, none, false⟩, b => isOk_printPattern binding b
  | ⟨binding, _, _, none, true⟩, b => (isOk_bind_pure _).trans (isOk_printPattern binding b)
  | ⟨binding, _, _, some value, false⟩, b => by
    rw [printParam, isOk_bind fun _ => isOk_bind_pure _, isOk_printPattern binding b,
      isOk_printExpr value b, Param.nodes, List.all_append]
    rfl
  | ⟨binding, _, _, some value, true⟩, b => by
    rw [printParam, isOk_bind_pure, isOk_printPattern binding b, Param.nodes, List.all_append]
    exact (Bool.and_true _).symm
termination_by structural param => param

theorem isOk_printParams : ∀ (params : List (Param Pattern Expr)) (b : Binders),
    (printParams unit params).isOk = (Param.allNodes .printed b params).all Node.isFunction
  | [], _ => rfl
  | param :: params, b => by
    rw [printParams, isOk_bind fun _ => isOk_bind_pure _, isOk_printParam param b,
      isOk_printParams params b, Param.allNodes, List.all_append]
termination_by structural params => params

theorem isOk_printExpr : ∀ (e : Expr) (b : Binders),
    (printExpr unit e).isOk = (e.nodes .printed b).all Node.isFunction
  | .raw _, _ | .ident _, _ | .this, _ | .string _, _ | .number _, _ | .stray _, _ => rfl
  | .member object _, b => (isOk_bind_pure _).trans (isOk_printExpr object b)
  | .call callee args, b => by
    rw [printExpr, isOk_bind fun _ => isOk_bind_pure _, isOk_printExpr callee b,
      isOk_printExprs args b, Expr.nodes, List.all_append, Bool.and_comm]
  | .array elements, b => (isOk_bind_pure _).trans (isOk_printExprs elements b)
  | .object entries, b => (isOk_bind_pure _).trans (isOk_printEntries entries b)
  | .spread argument, b => (isOk_bind_pure _).trans (isOk_printExpr argument b)
  | .binary _ left right, b => by
    rw [printExpr, isOk_bind fun _ => isOk_bind_pure _, isOk_printExpr left b,
      isOk_printExpr right b, Expr.nodes, List.all_append]
  | .function ⟨params, _, _⟩ body _ _, b => by
    rw [printExpr, isOk_bind fun _ => isOk_bind_pure _, isOk_printParams params,
      isOk_printStmts body, Expr.nodes, List.all_cons, List.all_append]
    rfl
  | .arrow ⟨params, _, _⟩ (.block stmts) _, b => by
    rw [printExpr, isOk_bind fun _ => isOk_bind_pure _, isOk_printParams params,
      isOk_printStmts stmts, Expr.nodes, List.all_cons, List.all_append]
    rfl
  | .arrow ⟨params, _, _⟩ (.expression value) _, b => by
    rw [printExpr, isOk_bind fun _ => isOk_bind_pure _, isOk_printParams params,
      isOk_printExpr value, Expr.nodes, List.all_cons, List.all_append]
    rfl
termination_by structural e => e

theorem isOk_printExprs : ∀ (es : List Expr) (b : Binders),
    (printExprs unit es).isOk = (Expr.allNodes .printed b es).all Node.isFunction
  | [], _ => rfl
  | e :: es, b => by
    rw [printExprs, isOk_bind fun _ => isOk_bind_pure _, isOk_printExpr e b, isOk_printExprs es b,
      Expr.allNodes, List.all_append]
termination_by structural es => es

theorem isOk_printEntries : ∀ (entries : List (Entry Expr)) (b : Binders),
    (printEntries unit entries).isOk = (Expr.entryNodes .printed b entries).all Node.isFunction
  | [], _ => rfl
  | .pair key value :: entries, b => by
    rw [isOk_printEntries_pair, isOk_printExpr value b, isOk_printEntries entries b,
      Expr.entryNodes, List.all_append]
  | .spread argument :: entries, b => by
    rw [printEntries, isOk_bind fun _ => isOk_bind_pure _, isOk_printExpr argument b,
      isOk_printEntries entries b, Expr.entryNodes, List.all_append]
termination_by structural entries => entries

theorem isOk_printStmt : ∀ (s : Stmt) (b : Binders) (out : Layout),
    (printStmt unit s out).isOk = (s.nodes .printed b).all Node.isFunction
  | .ret none, _, _ | .raw _, _, _ | .imports _, _, _ | .typeAlias _, _, _ | .interface _, _, _
  | .stray _, _, _ => rfl
  | .block body, b, out => (isOk_block _ _ _ out).trans (isOk_printStmts body b _)
  | .ret (some argument), b, _ => (isOk_bind_pure _).trans (isOk_printExpr argument b)
  | .expr expression, b, _ => (isOk_bind_pure _).trans (isOk_printExpr expression b)
  | .var _ target none _, b, _ => (isOk_bind_pure _).trans (isOk_printPattern target b)
  | .var _ target (some init) _, b, _ => by
    rw [printStmt, isOk_bind fun _ => isOk_bind_pure _, isOk_printPattern target b,
      isOk_printExpr init b, Stmt.nodes, List.all_append]
  | .function _ ⟨params, returnType, typeParams⟩ body _, b, out => by
    let inside := Signature.boundNames ⟨params, returnType, typeParams⟩ :: [] :: b
    have inBody (header : String) :
        (out.block header closeBrace (printStmts unit body)).isOk
          = (Stmt.allNodes .printed (Stmt.allLocalNames body :: inside) body).all Node.isFunction :=
      (isOk_block _ _ _ out).trans (isOk_printStmts body _ _)
    rw [printStmt, isOk_bind fun _ => inBody _, isOk_printParams params inside, Stmt.nodes,
      List.all_cons, List.all_append]
    rfl
  | .exports declaration _, b, _ => (isOk_bind_pure _).trans (isOk_printStmt declaration b _)
termination_by structural s => s

theorem isOk_printStmts : ∀ (ss : List Stmt) (b : Binders) (out : Layout),
    (printStmts unit ss out).isOk = (Stmt.allNodes .printed b ss).all Node.isFunction
  | [], _, _ => rfl
  | s :: ss, b, out => by
    rw [printStmts, isOk_bind fun _ => isOk_printStmts ss b _, isOk_printStmt s b out,
      Stmt.allNodes, List.all_append]
termination_by structural ss => ss

end

end Script

/-- A program has a printed form exactly if nothing that is printed is a type declaration or a
stray. -/
theorem Program.isOk_print (program : Program) (b : Binders) :
    program.print.isOk = (Stmt.allNodes .printed b program.body).all Node.isFunction :=
  (isOk_bind_pure _).trans (Script.isOk_printStmts _ program.body b _)

end TypeGuard
