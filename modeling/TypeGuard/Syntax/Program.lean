import TypeGuard.Syntax.Ty

/-!
# Programs

Binding patterns, expressions, statements and programs. Expressions and statements that need not be
looked into are kept as raw text. As with annotations, a place for a pattern, an expression or a
statement may hold a stray.
-/

namespace TypeGuard

/-- A field of an object pattern. -/
structure PatternField (π : Type) where
  key : String
  value : π

/-- A formal parameter. -/
structure Param (π ε : Type) where
  binding : π
  type : Option Ty := none
  optional : Bool := false
  default : Option ε := none
  rest : Bool := false

structure Signature (π ε : Type) where
  params : List (Param π ε) := []
  returnType : Option Ty := none
  typeParams : List String := []

/-- An entry of an object literal. -/
inductive Entry (ε : Type) where
  | pair (key : String) (value : ε)
  | spread (argument : ε)

/-- The body of an arrow function. -/
inductive Body (σ ε : Type) where
  | block (stmts : List σ)
  | expression (value : ε)

inductive VarKind where
  | const
  | lexical
  | var
  | other (keyword : String)
  deriving DecidableEq, Repr

def VarKind.keyword : VarKind → String
  | .const => "const"
  | .lexical => "let"
  | .var => "var"
  | .other keyword => keyword

def VarKind.ofKeyword (s : String) : VarKind :=
  if s = "const" then .const else if s = "let" then .lexical else if s = "var" then .var else .other s

inductive ImportKind where
  | default
  | named
  | everything
  | other (keyword : String)
  deriving DecidableEq, Repr

def ImportKind.keyword : ImportKind → String
  | .default => "default"
  | .named => "named"
  | .everything => "namespace"
  | .other keyword => keyword

def ImportKind.ofKeyword (s : String) : ImportKind :=
  if s = "default" then .default
  else if s = "named" then .named
  else if s = "namespace" then .everything
  else .other s

/-- One binding of an import; the imported name matters to named bindings only. -/
structure ImportSpecifier where
  kind : ImportKind
  localName : String
  imported : Option String := none
  deriving DecidableEq, Repr

structure TypeAlias where
  name : String
  right : Ty
  typeParams : List String := []
  loc : Location := .unknown

structure InterfaceDecl where
  name : String
  /-- The members, as an object annotation. -/
  body : Ty
  supertypes : List (TypeRef Ty) := []
  typeParams : List String := []
  loc : Location := .unknown

structure ImportDecl where
  source : String
  specifiers : List ImportSpecifier := []
  loc : Location := .unknown
  deriving DecidableEq, Repr

mutual

inductive Pattern where
  | ident (name : String)
  | object (fields : List (PatternField Pattern)) (rest : Option String)
  /-- An absent element is a hole. -/
  | array (elements : List (Option Pattern)) (rest : Option String)
  | default (target : Pattern) (value : Expr)
  | stray (value : Datum)

inductive Expr where
  | raw (text : String)
  | ident (name : String)
  | this
  | member (object : Expr) (prop : String)
  | call (callee : Expr) (args : List Expr)
  | string (value : String)
  | number (value : Number)
  | array (elements : List Expr)
  | object (entries : List (Entry Expr))
  | spread (argument : Expr)
  | binary (op : String) (left right : Expr)
  | function (signature : Signature Pattern Expr) (body : List Stmt) (name : Option String)
      (loc : Location)
  | arrow (signature : Signature Pattern Expr) (body : Body Stmt Expr) (loc : Location)
  | stray (value : Datum)

inductive Stmt where
  | block (body : List Stmt)
  | ret (argument : Option Expr)
  | expr (expression : Expr)
  | raw (text : String)
  | var (kind : VarKind) (target : Pattern) (init : Option Expr) (loc : Location)
  | function (name : String) (signature : Signature Pattern Expr) (body : List Stmt)
      (loc : Location)
  | typeAlias (decl : TypeAlias)
  | interface (decl : InterfaceDecl)
  | imports (decl : ImportDecl)
  | exports (declaration : Stmt) (loc : Location)
  | stray (value : Datum)

end

instance : Inhabited Pattern := ⟨.stray .nothing⟩
instance : Inhabited Expr := ⟨.stray .nothing⟩
instance : Inhabited Stmt := ⟨.stray .nothing⟩

/-- A compilation unit. -/
structure Program where
  body : List Stmt := []
  file : String := "<string>"

namespace Expr

/-- The expression that a dotted name stands for. -/
def ofName (q : QualifiedName) : Expr :=
  match q.parts with
  | [] => .ident ""
  | first :: others => others.foldl .member (.ident first)

end Expr

end TypeGuard
