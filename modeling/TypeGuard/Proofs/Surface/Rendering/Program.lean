import TypeGuard.Proofs.Surface.Rendering.Ty
import TypeGuard.Surface.Program

/-!
# Programs as texts

Which programs the surface syntax has, and a form for each of them, and from the form a text.
-/

namespace TypeGuard

/-! ## What can be read -/

/-- Whether the field of an object pattern is written with its key in front of the target. -/
def Pattern.isKeyed (key : String) : Pattern → Bool
  | .ident name => name ≠ key
  | .object _ _ | .array _ _ => true
  | .default _ _ | .stray _ => false

/-- The annotation of a parameter can be read. An optional parameter has one, and only a name can be
optional or take the remaining arguments. -/
def Param.MarksReadable (binding : Pattern) (type : Option Ty) (optional rest : Bool) : Prop :=
  (∀ t ∈ type, t.Readable) ∧ (optional = true → type.isSome = true ∧ rest = false) ∧
    (optional = true ∨ rest = true → ∃ name, binding = .ident name)

/-- The parts of a signature besides its parameters can be read. -/
def Signature.PartsReadable (returnType : Option Ty) (typeParams : List String) : Prop :=
  (∀ t ∈ returnType, t.Readable) ∧ ∀ name ∈ typeParams, IsPlainName name

/-- The binding of an import can be read: the imported name goes with named bindings. -/
def ImportSpecifier.Readable (s : ImportSpecifier) : Prop :=
  IsPlainName s.localName ∧
    match s.kind with
    | .default | .everything => s.imported = none
    | .named => ∃ name, s.imported = some name ∧ IsPlainName name
    | .other _ => False

def TypeAlias.Readable (decl : TypeAlias) : Prop :=
  IsPlainName decl.name ∧ decl.right.Readable ∧ ∀ name ∈ decl.typeParams, IsPlainName name

/-- The interface can be read: its members are an object shape. -/
def InterfaceDecl.Readable (decl : InterfaceDecl) : Prop :=
  IsPlainName decl.name ∧ (∃ shape, decl.body = .object shape) ∧ decl.body.Readable ∧
    (∀ ref ∈ decl.supertypes, (Ty.named ref).Readable) ∧
    ∀ name ∈ decl.typeParams, IsPlainName name

mutual

/-- The binding target can be read. -/
def Pattern.Readable : Pattern → Prop
  | .ident name => IsPlainName name
  | .object fields rest => Pattern.FieldsReadable fields ∧ ∀ name ∈ rest, IsPlainName name
  | .array elements rest => Pattern.ElementsReadable elements ∧ ∀ name ∈ rest, IsPlainName name
  | .default _ _ => False
  | .stray _ => False

/-- A key in front of its target is not the word for the rest. -/
def Pattern.FieldsReadable : List (PatternField Pattern) → Prop
  | [] => True
  | ⟨key, value⟩ :: fields =>
    (Pattern.FieldReadable key value ∧ (value.isKeyed key = true → key ≠ "rest")) ∧
      Pattern.FieldsReadable fields

/-- A field is a target or has defaults around it; a key in front of its target is not the word for
defaults. -/
def Pattern.FieldReadable (key : String) : Pattern → Prop
  | .ident name => (IsPlainName key ∧ IsPlainName name) ∧ (name ≠ key → key ≠ "default")
  | .object fields rest =>
    (IsPlainName key ∧ key ≠ "default") ∧
      (Pattern.FieldsReadable fields ∧ ∀ name ∈ rest, IsPlainName name)
  | .array elements rest =>
    (IsPlainName key ∧ key ≠ "default") ∧
      (Pattern.ElementsReadable elements ∧ ∀ name ∈ rest, IsPlainName name)
  | .default target value => Pattern.FieldReadable key target ∧ Expr.Readable value
  | .stray _ => False

/-- An element is a hole, or a target other than the word for holes, or a target with a default. -/
def Pattern.ElementsReadable : List (Option Pattern) → Prop
  | [] => True
  | none :: elements => Pattern.ElementsReadable elements
  | some (.default target value) :: elements =>
    (Pattern.Readable target ∧ Expr.Readable value) ∧ Pattern.ElementsReadable elements
  | some element :: elements =>
    (Pattern.Readable element ∧ element ≠ .ident "_") ∧ Pattern.ElementsReadable elements

def Param.Readable : Param Pattern Expr → Prop
  | ⟨binding, type, optional, none, rest⟩ =>
    Pattern.Readable binding ∧ Param.MarksReadable binding type optional rest
  | ⟨binding, type, optional, some value, rest⟩ =>
    (Pattern.Readable binding ∧ Param.MarksReadable binding type optional rest) ∧
      Expr.Readable value

def Param.AllReadable : List (Param Pattern Expr) → Prop
  | [] => True
  | param :: params => Param.Readable param ∧ Param.AllReadable params

/-- The expression can be read: raw text, a name, an integer, a call that loads a module, or a
function. -/
def Expr.Readable : Expr → Prop
  | .raw _ => True
  | .ident name => IsPlainName name
  | .number value => value.IsShort
  | .call callee args => ∃ module, Expr.call callee args = .require module
  | .function ⟨params, returnType, typeParams⟩ body name _ =>
    (Param.AllReadable params ∧ Signature.PartsReadable returnType typeParams) ∧
      Stmt.AllReadable body ∧ ∀ s ∈ name, IsPlainName s
  | .arrow ⟨params, returnType, typeParams⟩ body _ =>
    (Param.AllReadable params ∧ Signature.PartsReadable returnType typeParams) ∧
      Expr.BodyReadable body
  | _ => False

def Expr.BodyReadable : Body Stmt Expr → Prop
  | .block stmts => Stmt.AllReadable stmts
  | .expression value => Expr.Readable value

/-- The statement can be read. -/
def Stmt.Readable : Stmt → Prop
  | .ret none => True
  | .ret (some argument) => Expr.Readable argument
  | .raw _ => True
  | .var kind target none _ => (kind = .lexical ∨ kind = .var) ∧ Pattern.Readable target
  | .var kind target (some init) _ =>
    (kind = .const ∨ kind = .lexical ∨ kind = .var) ∧ Pattern.Readable target ∧ Expr.Readable init
  | .function name ⟨params, returnType, typeParams⟩ body _ =>
    (Param.AllReadable params ∧ Signature.PartsReadable returnType typeParams) ∧
      Stmt.AllReadable body ∧ IsPlainName name
  | .typeAlias decl => decl.Readable
  | .interface decl => decl.Readable
  | .imports decl => ∀ s ∈ decl.specifiers, s.Readable
  | .exports declaration _ => Stmt.Readable declaration
  | _ => False

def Stmt.AllReadable : List Stmt → Prop
  | [] => True
  | s :: ss => Stmt.Readable s ∧ Stmt.AllReadable ss

end

/-- The program can be read. -/
def Program.Readable (program : Program) : Prop := Stmt.AllReadable program.body

/-! ## Forms -/

/-- The word and the name for the rest of a pattern. -/
def Pattern.restForms (rest : Option String) : List Form :=
  rest.toList.map fun name => .tagged "rest" [.symbol name]

/-- The form of a parameter without a default, given that of its target. -/
def Param.targetForm (target : Form) (type : Option Ty) (optional rest : Bool) : Form :=
  .tagged (if optional then "param?" else if rest then "rest" else "pattern")
    (target :: type.toList.map Ty.toForm)

/-- The forms of a signature, given those of its parameters. -/
def Signature.forms (params : List Form) (returnType : Option Ty) (typeParams : List String) :
    List Form :=
  .tagged "generics" (typeParams.map .symbol) :: .list params {}
    :: returnType.toList.map fun type => .tagged "returns" [type.toForm]

def ImportSpecifier.toForm (s : ImportSpecifier) : Form :=
  match s.imported with
  | none => .tagged s.kind.keyword [.symbol s.localName]
  | some imported => .tagged s.kind.keyword [.symbol imported, .symbol s.localName]

def TypeAlias.toForm (decl : TypeAlias) : Form :=
  .tagged "type"
    [.symbol decl.name, .tagged "generics" (decl.typeParams.map .symbol), decl.right.toForm]

def InterfaceDecl.toForm (decl : InterfaceDecl) : Form :=
  .tagged "interface"
    [.symbol decl.name, .tagged "generics" (decl.typeParams.map .symbol),
      .tagged "extends" (decl.supertypes.map fun ref => (Ty.named ref).toForm), decl.body.toForm]

def ImportDecl.toForm (decl : ImportDecl) : Form :=
  .tagged "import" (.text decl.source :: decl.specifiers.map ImportSpecifier.toForm)

mutual

/-- The form of a binding target. -/
def Pattern.toForm : Pattern → Form
  | .ident name => .symbol name
  | .object fields rest => .tagged "obj" (Pattern.fieldForms fields ++ Pattern.restForms rest)
  | .array elements rest => .tagged "arr" (Pattern.elementForms elements ++ Pattern.restForms rest)
  | .default _ _ => .list [] {}
  | .stray _ => .list [] {}

def Pattern.fieldForms : List (PatternField Pattern) → List Form
  | [] => []
  | ⟨key, value⟩ :: fields => Pattern.fieldForm key value :: Pattern.fieldForms fields

/-- The form of a field of an object pattern; a name under its own key is written once. -/
def Pattern.fieldForm (key : String) : Pattern → Form
  | .ident name => if name = key then .symbol key else .tagged key [.symbol name]
  | .object fields rest =>
    .tagged key [.tagged "obj" (Pattern.fieldForms fields ++ Pattern.restForms rest)]
  | .array elements rest =>
    .tagged key [.tagged "arr" (Pattern.elementForms elements ++ Pattern.restForms rest)]
  | .default target value => .tagged "default" [Pattern.fieldForm key target, Expr.toForm value]
  | .stray _ => .list [] {}

def Pattern.elementForms : List (Option Pattern) → List Form
  | [] => []
  | none :: elements => .symbol "_" :: Pattern.elementForms elements
  | some (.default target value) :: elements =>
    .tagged "default" [Pattern.toForm target, Expr.toForm value] :: Pattern.elementForms elements
  | some element :: elements => Pattern.toForm element :: Pattern.elementForms elements

def Param.toForm : Param Pattern Expr → Form
  | ⟨binding, type, optional, none, rest⟩ =>
    Param.targetForm (Pattern.toForm binding) type optional rest
  | ⟨binding, type, optional, some value, rest⟩ =>
    .tagged "default"
      [Param.targetForm (Pattern.toForm binding) type optional rest, Expr.toForm value]

def Param.toForms : List (Param Pattern Expr) → List Form
  | [] => []
  | param :: params => Param.toForm param :: Param.toForms params

/-- The form of an expression. -/
def Expr.toForm : Expr → Form
  | .raw text => .text text
  | .ident name => .symbol name
  | .number value => .number value
  | .call _ [.string module] => .tagged "require" [.text module]
  | .function ⟨params, returnType, typeParams⟩ body name _ =>
    .tagged "function-expr" (name.toList.map .symbol
      ++ (Signature.forms (Param.toForms params) returnType typeParams
        ++ [.tagged "body" (Stmt.toForms body)]))
  | .arrow ⟨params, returnType, typeParams⟩ body _ =>
    .tagged "arrow" (Signature.forms (Param.toForms params) returnType typeParams
      ++ [Expr.bodyForm body])
  | _ => .list [] {}

def Expr.bodyForm : Body Stmt Expr → Form
  | .block stmts => .tagged "body" (Stmt.toForms stmts)
  | .expression value => Expr.toForm value

/-- The form of a statement. -/
def Stmt.toForm : Stmt → Form
  | .ret none => .tagged "return" []
  | .ret (some argument) => .tagged "return" [Expr.toForm argument]
  | .raw text => .tagged "stmt" [.text text]
  | .var kind target none _ => .tagged kind.keyword [Pattern.toForm target]
  | .var kind target (some init) _ =>
    .tagged kind.keyword [Pattern.toForm target, Expr.toForm init]
  | .function name ⟨params, returnType, typeParams⟩ body _ =>
    .tagged "function" (.symbol name
      :: (Signature.forms (Param.toForms params) returnType typeParams
        ++ [.tagged "body" (Stmt.toForms body)]))
  | .typeAlias decl => decl.toForm
  | .interface decl => decl.toForm
  | .imports decl => decl.toForm
  | .exports declaration _ => .tagged "export" [Stmt.toForm declaration]
  | _ => .list [] {}

def Stmt.toForms : List Stmt → List Form
  | [] => []
  | s :: ss => Stmt.toForm s :: Stmt.toForms ss

end

/-- The form of a program. -/
def Program.toForm (program : Program) : Form := .tagged "program" (Stmt.toForms program.body)

/-- The text of a program. -/
def Program.render (program : Program) : String := program.toForm.source

end TypeGuard
