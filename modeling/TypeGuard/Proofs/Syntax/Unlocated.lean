import TypeGuard.Syntax.Program

/-!
# Trees without locations

Two trees are the same up to source locations if they are the same once all locations are unknown.
-/

namespace TypeGuard

mutual

/-- The annotation without its locations. -/
def Ty.unlocated : Ty → Ty
  | .named ⟨id, none, _⟩ => .named ⟨id, none, .unknown⟩
  | .named ⟨id, some args, _⟩ => .named ⟨id, some (Ty.unlocatedAll args), .unknown⟩
  | .array element _ => .array (Ty.unlocated element) .unknown
  | .nullable inner _ => .nullable (Ty.unlocated inner) .unknown
  | .tuple types _ => .tuple (Ty.unlocatedAll types) .unknown
  | .union types _ => .union (Ty.unlocatedAll types) .unknown
  | .intersection types _ => .intersection (Ty.unlocatedAll types) .unknown
  | .object ⟨properties, indexers, _⟩ =>
    .object ⟨Ty.unlocatedProperties properties, Ty.unlocatedIndexers indexers, .unknown⟩
  | .function params result _ =>
    .function (Ty.unlocatedParams params) (Ty.unlocated result) .unknown
  | .primitive value _ => .primitive value .unknown
  | .string value _ => .string value .unknown
  | .number value _ => .number value .unknown
  | .boolean value _ => .boolean value .unknown
  | .typeof ⟨id, none, _⟩ _ => .typeof ⟨id, none, .unknown⟩ .unknown
  | .typeof ⟨id, some args, _⟩ _ => .typeof ⟨id, some (Ty.unlocatedAll args), .unknown⟩ .unknown
  | .stray value => .stray value

def Ty.unlocatedAll : List Ty → List Ty
  | [] => []
  | type :: types => Ty.unlocated type :: Ty.unlocatedAll types

def Ty.unlocatedProperties : List (Property Ty) → List (Property Ty)
  | [] => []
  | ⟨key, value, optional, _⟩ :: properties =>
    ⟨key, Ty.unlocated value, optional, .unknown⟩ :: Ty.unlocatedProperties properties

def Ty.unlocatedIndexers : List (Indexer Ty) → List (Indexer Ty)
  | [] => []
  | ⟨key, value, id, _⟩ :: indexers =>
    ⟨Ty.unlocated key, Ty.unlocated value, id, .unknown⟩ :: Ty.unlocatedIndexers indexers

def Ty.unlocatedParams : List (FunctionTypeParam Ty) → List (FunctionTypeParam Ty)
  | [] => []
  | ⟨type, name⟩ :: params => ⟨Ty.unlocated type, name⟩ :: Ty.unlocatedParams params

end

def TypeRef.unlocated (ref : TypeRef Ty) : TypeRef Ty :=
  { ref with args := ref.args.map Ty.unlocatedAll, loc := .unknown }

def TypeAlias.unlocated (decl : TypeAlias) : TypeAlias :=
  { decl with right := decl.right.unlocated, loc := .unknown }

def InterfaceDecl.unlocated (decl : InterfaceDecl) : InterfaceDecl :=
  { decl with
    body := decl.body.unlocated
    supertypes := decl.supertypes.map TypeRef.unlocated
    loc := .unknown }

def ImportDecl.unlocated (decl : ImportDecl) : ImportDecl := { decl with loc := .unknown }

mutual

/-- The pattern without its locations. -/
def Pattern.unlocated : Pattern → Pattern
  | .ident name => .ident name
  | .object fields rest => .object (Pattern.unlocatedFields fields) rest
  | .array elements rest => .array (Pattern.unlocatedElements elements) rest
  | .default target value => .default (Pattern.unlocated target) (Expr.unlocated value)
  | .stray value => .stray value

def Pattern.unlocatedFields : List (PatternField Pattern) → List (PatternField Pattern)
  | [] => []
  | ⟨key, value⟩ :: fields => ⟨key, Pattern.unlocated value⟩ :: Pattern.unlocatedFields fields

def Pattern.unlocatedElements : List (Option Pattern) → List (Option Pattern)
  | [] => []
  | none :: elements => none :: Pattern.unlocatedElements elements
  | some element :: elements =>
    some (Pattern.unlocated element) :: Pattern.unlocatedElements elements

def Param.unlocated : Param Pattern Expr → Param Pattern Expr
  | ⟨binding, type, optional, none, rest⟩ =>
    ⟨Pattern.unlocated binding, type.map Ty.unlocated, optional, none, rest⟩
  | ⟨binding, type, optional, some value, rest⟩ =>
    ⟨Pattern.unlocated binding, type.map Ty.unlocated, optional, some (Expr.unlocated value), rest⟩

def Param.unlocatedAll : List (Param Pattern Expr) → List (Param Pattern Expr)
  | [] => []
  | param :: params => Param.unlocated param :: Param.unlocatedAll params

/-- The expression without its locations. -/
def Expr.unlocated : Expr → Expr
  | .member object prop => .member (Expr.unlocated object) prop
  | .call callee args => .call (Expr.unlocated callee) (Expr.unlocatedAll args)
  | .array elements => .array (Expr.unlocatedAll elements)
  | .object entries => .object (Expr.unlocatedEntries entries)
  | .spread argument => .spread (Expr.unlocated argument)
  | .binary op left right => .binary op (Expr.unlocated left) (Expr.unlocated right)
  | .function ⟨params, returnType, typeParams⟩ body name _ =>
    .function ⟨Param.unlocatedAll params, returnType.map Ty.unlocated, typeParams⟩
      (Stmt.unlocatedAll body) name .unknown
  | .arrow ⟨params, returnType, typeParams⟩ body _ =>
    .arrow ⟨Param.unlocatedAll params, returnType.map Ty.unlocated, typeParams⟩
      (Expr.unlocatedBody body) .unknown
  | .raw text => .raw text
  | .ident name => .ident name
  | .this => .this
  | .string value => .string value
  | .number value => .number value
  | .stray value => .stray value

def Expr.unlocatedAll : List Expr → List Expr
  | [] => []
  | e :: es => Expr.unlocated e :: Expr.unlocatedAll es

def Expr.unlocatedEntries : List (Entry Expr) → List (Entry Expr)
  | [] => []
  | .pair key value :: entries => .pair key (Expr.unlocated value) :: Expr.unlocatedEntries entries
  | .spread argument :: entries =>
    .spread (Expr.unlocated argument) :: Expr.unlocatedEntries entries

def Expr.unlocatedBody : Body Stmt Expr → Body Stmt Expr
  | .block stmts => .block (Stmt.unlocatedAll stmts)
  | .expression value => .expression (Expr.unlocated value)

/-- The statement without its locations. -/
def Stmt.unlocated : Stmt → Stmt
  | .block body => .block (Stmt.unlocatedAll body)
  | .ret none => .ret none
  | .ret (some argument) => .ret (some (Expr.unlocated argument))
  | .expr expression => .expr (Expr.unlocated expression)
  | .raw text => .raw text
  | .var kind target none _ => .var kind (Pattern.unlocated target) none .unknown
  | .var kind target (some init) _ =>
    .var kind (Pattern.unlocated target) (some (Expr.unlocated init)) .unknown
  | .function name ⟨params, returnType, typeParams⟩ body _ =>
    .function name ⟨Param.unlocatedAll params, returnType.map Ty.unlocated, typeParams⟩
      (Stmt.unlocatedAll body) .unknown
  | .typeAlias decl => .typeAlias decl.unlocated
  | .interface decl => .interface decl.unlocated
  | .imports decl => .imports decl.unlocated
  | .exports declaration _ => .exports (Stmt.unlocated declaration) .unknown
  | .stray value => .stray value

def Stmt.unlocatedAll : List Stmt → List Stmt
  | [] => []
  | s :: ss => Stmt.unlocated s :: Stmt.unlocatedAll ss

end

def Signature.unlocated (signature : Signature Pattern Expr) : Signature Pattern Expr :=
  ⟨Param.unlocatedAll signature.params, signature.returnType.map Ty.unlocated,
    signature.typeParams⟩

@[simp] theorem Expr.unlocated_function (signature : Signature Pattern Expr) (body : List Stmt)
    (name : Option String) (loc : Location) :
    (Expr.function signature body name loc).unlocated
      = .function signature.unlocated (Stmt.unlocatedAll body) name .unknown := rfl

@[simp] theorem Expr.unlocated_arrow (signature : Signature Pattern Expr) (body : Body Stmt Expr)
    (loc : Location) :
    (Expr.arrow signature body loc).unlocated
      = .arrow signature.unlocated (Expr.unlocatedBody body) .unknown := rfl

@[simp] theorem Stmt.unlocated_function (name : String) (signature : Signature Pattern Expr)
    (body : List Stmt) (loc : Location) :
    (Stmt.function name signature body loc).unlocated
      = .function name signature.unlocated (Stmt.unlocatedAll body) .unknown := rfl

/-- The program without its locations. -/
def Program.unlocated (program : Program) : Program :=
  { program with body := Stmt.unlocatedAll program.body }

end TypeGuard
