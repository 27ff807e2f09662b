import TypeGuard.Surface.Ty
import TypeGuard.Syntax.Program

/-!
# Programs from forms

Patterns, parameters, expressions, statements and programs. Where a form has several faults, the
first one in the order in which its parts are read is reported; the parts of most forms are read from
left to right.
-/

namespace TypeGuard

/-- Where the parts of a function form stand among its items: type parameters, parameter list and
return type in this order, the first and the last of them optional. -/
structure FunctionLayout where
  generics : Option Form
  params : Nat
  returns : Option Form
  body : Nat

/-- The layout of a function form whose signature begins with item `start`. -/
def FunctionLayout.ofItems (start : Nat) (items : List Form) : FunctionLayout :=
  let generics := items[start]?.filter (·.head? == some "generics")
  let params := if generics.isSome then start + 1 else start
  let returns := items[params + 1]?.filter (·.head? == some "returns")
  ⟨generics, params, returns, if returns.isSome then params + 2 else params + 1⟩

/-- The names in a `generics` form. -/
def typeParamsOfForm : Option Form → Except ParseError (List String)
  | some (.list (_ :: names) _) => names.mapM Form.asSymbol
  | _ => .ok []

/-- The annotation in a `returns` form. -/
def returnTypeOfForm (file : String) : Option Form → Except ParseError (Option Ty)
  | none => .ok none
  | some (.list (_ :: type :: _) _) => do return some (← Ty.ofForm file type)
  | some form => form.refuse file (.tooShort 2 1)

/-- A signature from its parameters and the other parts of its form. -/
def FunctionLayout.signature (file : String) (layout : FunctionLayout)
    (params : List (Param Pattern Expr)) : Except ParseError (Signature Pattern Expr) := do
  let returnType ← returnTypeOfForm file layout.returns
  return ⟨params, returnType, ← typeParamsOfForm layout.generics⟩

/-- Reads one binding of an import form. -/
def ImportSpecifier.ofForm (file : String) : Form → Except ParseError ImportSpecifier
  | .list items position =>
    match items with
    | head :: name :: more =>
      match ImportKind.ofKeyword ((Form.list items position).head?.getD "") with
      | .named => do
        let imported ← name.asSymbol
        match more with
        | [] => return ⟨.named, imported, some imported⟩
        | localName :: _ => return ⟨.named, ← localName.asSymbol, some imported⟩
      | .other _ => position.refuse file (.unknownSpecifier (.list (head :: name :: more) position))
      | kind => do return ⟨kind, ← name.asSymbol, none⟩
    | items => position.refuse file (.tooShort 2 items.length)
  | form => form.refuse file (.notList none form)

/-- Reads an import form from its items after the tag. -/
def ImportDecl.ofItems (file : String) (position : Position) :
    List Form → Except ParseError ImportDecl
  | [] => position.refuse file (.tooShort 2 1)
  | source :: specifiers => do
    let specifiers ← specifiers.mapM (ImportSpecifier.ofForm file)
    return ⟨← source.asString, specifiers, position.inFile file⟩

/-- Reads a type alias form from its items after the tag. -/
def TypeAlias.ofItems (file : String) (position : Position) :
    List Form → Except ParseError TypeAlias
  | name :: first :: more => do
    let name ← name.asSymbol
    let (generics, types) :=
      if first.head? = some "generics" then (some first, more) else (none, first :: more)
    match types with
    | [type] =>
      let right ← Ty.ofForm file type
      return ⟨name, right, ← typeParamsOfForm generics, position.inFile file⟩
    | _ => position.refuse file (.notOneType name)
  | items => position.refuse file (.tooShort 3 (items.length + 1))

/-- Reads an interface form from its items after the tag. -/
def InterfaceDecl.ofItems (file : String) (position : Position) :
    List Form → Except ParseError InterfaceDecl
  | name :: first :: more => do
    let name ← name.asSymbol
    let items := first :: more
    let generics := items.head?.filter (·.head? == some "generics")
    let items := if generics.isSome then items.drop 1 else items
    let supertypes := items.head?.filter (·.head? == some "extends")
    let items := if supertypes.isSome then items.drop 1 else items
    match items with
    | [body] =>
      let body ← ObjectShape.ofForm file body
      let supertypes ← match supertypes with
        | some (.list (_ :: refs) _) => refs.mapM (TypeRef.ofForm file)
        | _ => pure []
      return ⟨name, .object body, supertypes, ← typeParamsOfForm generics, position.inFile file⟩
    | _ => position.refuse file (.noInterfaceBody name)
  | items => position.refuse file (.tooShort 3 (items.length + 1))

/-- The tags of statement forms. -/
inductive StmtTag where
  | imports
  | typeAlias
  | interface
  | function
  | var (kind : VarKind)
  | exports
  | ret
  | raw
  deriving DecidableEq, Repr

def StmtTag.ofName? (s : String) : Option StmtTag :=
  if s = "import" then some .imports
  else if s = "type" then some .typeAlias
  else if s = "interface" then some .interface
  else if s = "function" then some .function
  else if s = "const" then some (.var .const)
  else if s = "let" then some (.var .lexical)
  else if s = "var" then some (.var .var)
  else if s = "export" then some .exports
  else if s = "return" then some .ret
  else if s = "stmt" then some .raw
  else none

/-- The tags of expression forms. -/
inductive ExprTag where
  | require
  | function
  | arrow
  deriving DecidableEq, Repr

def ExprTag.ofName? (s : String) : Option ExprTag :=
  if s = "require" then some .require
  else if s = "function-expr" then some .function
  else if s = "arrow" then some .arrow
  else none

/-- The call that loads a module. -/
def Expr.require (module : String) : Expr := .call (.ident "require") [.string module]

section
variable (file : String)

mutual

/-- Reads a binding target: a name, an object pattern or an array pattern. -/
def Pattern.ofForm : Form → Except ParseError Pattern
  | .symbol name => .ok (.ident name)
  | .list (.symbol tag :: items) position =>
    if tag = "obj" then do
      let (fields, rest) ← Pattern.fieldsOfForms items
      return .object fields rest
    else if tag = "arr" then do
      let (elements, rest) ← Pattern.elementsOfForms items
      return .array elements rest
    else position.refuse file (.notTarget (.list (.symbol tag :: items) position))
  | form => form.refuse file (.notTarget form)

/-- Reads the fields of an object pattern and the name for the rest, the last one given. -/
def Pattern.fieldsOfForms :
    List Form → Except ParseError (List (PatternField Pattern) × Option String)
  | [] => .ok ([], none)
  | form :: forms => do
    if form.head? = some "rest" then
      let name ← Pattern.restOfForm form
      let (fields, rest) ← Pattern.fieldsOfForms forms
      return (fields, some (rest.getD name))
    else
      let field ← Pattern.fieldOfForm form
      let (fields, rest) ← Pattern.fieldsOfForms forms
      return (field :: fields, rest)

/-- Reads the name in a `rest` form. -/
def Pattern.restOfForm : Form → Except ParseError String
  | .list (_ :: name :: _) _ => name.asSymbol
  | form => form.refuse file (.tooShort 2 1)

def Pattern.fieldOfForm : Form → Except ParseError (PatternField Pattern)
  | .symbol name => .ok ⟨name, .ident name⟩
  | .list [] position => position.refuse file (.tooShort 2 0)
  | .list [_] position => position.refuse file (.tooShort 2 1)
  | .list (key :: target :: more) position =>
    match key with
    | .symbol name =>
      if name = "default" then
        match more with
        | [] => position.refuse file (.tooShort 3 2)
        | value :: _ => do
          let field ← Pattern.fieldOfForm target
          return ⟨field.key, .default field.value (← Expr.ofForm value)⟩
      else do return ⟨name, ← Pattern.ofForm target⟩
    | _ => .error (.misshapen (.notSymbol key) none)
  | form => form.refuse file (.notList none form)

/-- Reads the elements of an array pattern and the name for the rest, the last one given. -/
def Pattern.elementsOfForms :
    List Form → Except ParseError (List (Option Pattern) × Option String)
  | [] => .ok ([], none)
  | form :: forms => do
    if form.head? = some "rest" then
      let name ← Pattern.restOfForm form
      let (elements, rest) ← Pattern.elementsOfForms forms
      return (elements, some (rest.getD name))
    else
      let element ← Pattern.elementOfForm form
      let (elements, rest) ← Pattern.elementsOfForms forms
      return (element :: elements, rest)

/-- Reads an element of an array pattern; a low line is a hole. -/
def Pattern.elementOfForm : Form → Except ParseError (Option Pattern)
  | .symbol name => .ok (if name = "_" then none else some (.ident name))
  | .list (.symbol tag :: items) position =>
    if tag = "default" then
      match items with
      | target :: value :: _ => do
        return some (.default (← Pattern.ofForm target) (← Expr.ofForm value))
      | items => position.refuse file (.tooShort 3 (items.length + 1))
    else if tag = "obj" then do
      let (fields, rest) ← Pattern.fieldsOfForms items
      return some (.object fields rest)
    else if tag = "arr" then do
      let (elements, rest) ← Pattern.elementsOfForms items
      return some (.array elements rest)
    else position.refuse file (.notTarget (.list (.symbol tag :: items) position))
  | form => form.refuse file (.notTarget form)

/-- Reads a parameter. -/
def Param.ofForm : Form → Except ParseError (Param Pattern Expr)
  | .symbol name => .ok { binding := .ident name }
  | .list [] position => position.refuse file (.tooShort 2 0)
  | .list [_] position => position.refuse file (.tooShort 2 1)
  | .list (head :: target :: more) position =>
    match head, more with
    | .symbol "default", [] => position.refuse file (.tooShort 3 2)
    | .symbol "default", value :: _ => do
      let param ← Param.ofForm target
      return { param with default := some (← Expr.ofForm value) }
    | head, more => do
      let type ← match more with
        | [] => pure none
        | type :: _ => pure (some (← Ty.ofForm file type))
      match head with
      | .symbol "param" => return { binding := .ident (← target.asSymbol), type }
      | .symbol "param?" =>
        if type.isNone then position.refuse file .optionalWithoutType
        else return { binding := .ident (← target.asSymbol), type, optional := true }
      | .symbol "pattern" => return { binding := ← Pattern.ofForm target, type }
      | .symbol "rest" => return { binding := .ident (← target.asSymbol), type, rest := true }
      | .symbol tag => position.refuse file (.unknownParam (some tag))
      | _ => position.refuse file (.unknownParam none)
  | form => form.refuse file (.notList none form)

def Param.ofForms : List Form → Except ParseError (List (Param Pattern Expr))
  | [] => .ok []
  | form :: forms => do return (← Param.ofForm form) :: (← Param.ofForms forms)

/-- Reads the parameter list that is item `n` of the form at `position`. -/
def Param.listAt (position : Position) : Nat → List Form →
    Except ParseError (List (Param Pattern Expr))
  | _, [] => position.refuse file .noParams
  | 0, .list params _ :: _ => Param.ofForms params
  | 0, form :: _ => form.refuse file (.notList none form)
  | n + 1, _ :: forms => Param.listAt position n forms

/-- Reads an expression. -/
def Expr.ofForm : Form → Except ParseError Expr
  | .text value => .ok (.raw value)
  | .symbol name => .ok (.ident name)
  | .number value => .ok (.number value)
  | .list (.symbol tag :: items) position =>
    match ExprTag.ofName? tag with
    | some .require =>
      match items with
      | [] => position.refuse file (.tooShort 2 1)
      | module :: _ => do return .require (← module.asString)
    | some .function => do
      let name := match items with
        | .symbol name :: _ => some name
        | _ => none
      let layout := FunctionLayout.ofItems (if name.isSome then 1 else 0) items
      let params ← Param.listAt position layout.params items
      let signature ← layout.signature file params
      let body ← Stmt.bodyAt position layout.body items
      return .function signature body name (position.inFile file)
    | some .arrow => do
      let layout := FunctionLayout.ofItems 0 items
      let params ← Param.listAt position layout.params items
      let signature ← layout.signature file params
      let body ← Expr.bodyAt position layout.body items
      return .arrow signature body (position.inFile file)
    | none => position.refuse file (.unknownExpr (.list (.symbol tag :: items) position))
  | form => form.refuse file (.unknownExpr form)

/-- Reads the arrow body that is item `n` of the form at `position`. -/
def Expr.bodyAt (position : Position) : Nat → List Form → Except ParseError (Body Stmt Expr)
  | _, [] => position.refuse file .noArrowBody
  | 0, form :: _ =>
    match form with
    | .list (.symbol "body" :: stmts) _ => do return .block (← Stmt.ofForms stmts)
    | form => do return .expression (← Expr.ofForm form)
  | n + 1, _ :: forms => Expr.bodyAt position n forms

/-- Reads the body that is item `n` of the form at `position`. -/
def Stmt.bodyAt (position : Position) : Nat → List Form → Except ParseError (List Stmt)
  | _, [] => position.refuse file .noBody
  | 0, form :: _ => Stmt.bodyOfForm form
  | n + 1, _ :: forms => Stmt.bodyAt position n forms

/-- Reads a `body` form. -/
def Stmt.bodyOfForm : Form → Except ParseError (List Stmt)
  | .list (.symbol tag :: stmts) position =>
    if tag = "body" then Stmt.ofForms stmts
    else position.refuse file (.wrongTag "body" (some tag))
  | .list _ position => position.refuse file (.wrongTag "body" none)
  | form => form.refuse file (.notList (some "body") form)

/-- Reads a statement. -/
def Stmt.ofForm : Form → Except ParseError Stmt
  | .list (.symbol tag :: items) position =>
    let loc := position.inFile file
    match StmtTag.ofName? tag, items with
    | some .imports, items => do return .imports (← ImportDecl.ofItems file position items)
    | some .typeAlias, items => do return .typeAlias (← TypeAlias.ofItems file position items)
    | some .interface, items => do return .interface (← InterfaceDecl.ofItems file position items)
    | some .function, name :: second :: third :: more => do
      let name ← name.asSymbol
      let items := second :: third :: more
      let layout := FunctionLayout.ofItems 0 items
      let params ← Param.listAt position layout.params (second :: third :: more)
      let signature ← layout.signature file params
      if layout.body + 1 = items.length then
        let body ← Stmt.bodyAt position layout.body (second :: third :: more)
        return .function name signature body loc
      else position.refuse file (.bodyNotLast name)
    | some .function, items => position.refuse file (.tooShort 4 (items.length + 1))
    | some (.var kind), [target] => do
      if kind = .const then position.refuse file .constWithoutValue
      else return .var kind (← Pattern.ofForm target) none loc
    | some (.var kind), target :: init :: _ => do
      let init ← Expr.ofForm init
      return .var kind (← Pattern.ofForm target) (some init) loc
    | some .exports, declaration :: _ => do return .exports (← Stmt.ofForm declaration) loc
    | some .ret, [] => .ok (.ret none)
    | some .ret, argument :: _ => do return .ret (some (← Expr.ofForm argument))
    | some .raw, text :: _ => do return .raw (← text.asString)
    | some _, items => position.refuse file (.tooShort 2 (items.length + 1))
    | none, _ => position.refuse file (.unknownStmt (some tag))
  | form => form.refuse file (.unknownStmt none)

def Stmt.ofForms : List Form → Except ParseError (List Stmt)
  | [] => .ok []
  | form :: forms => do return (← Stmt.ofForm form) :: (← Stmt.ofForms forms)

end

end

/-- Reads a program form. -/
def Program.ofForm (file : String) : Form → Except ParseError Program
  | .list items position => do
    let form := Form.list items position
    if form.head? = some "program" then
      return ⟨← Stmt.ofForms file (items.drop 1), file⟩
    else position.refuse file (.wrongTag "program" form.head?)
  | form => form.refuse file (.notList (some "program") form)

/-- Parses a source text. -/
def Program.parse (file source : String) : Except ParseError Program :=
  match Form.read source with
  | .error e => .error (.unreadable e)
  | .ok form => Program.ofForm file form

end TypeGuard
