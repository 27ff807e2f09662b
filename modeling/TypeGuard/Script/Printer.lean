import TypeGuard.Script.Layout
import TypeGuard.Script.Literal
import TypeGuard.Syntax.Program

/-!
# Printing programs

Programs are printed as JavaScript. Type declarations have no printed form, and neither have strays;
the first of them in printing order is the error.
-/

namespace TypeGuard

/-- What cannot be printed, by the name of its kind. -/
inductive PrintError where
  | expression (kind : String)
  | pattern (kind : String)
  | statement (kind : String) (loc : Option Location)
  deriving DecidableEq, Repr

namespace PrintError

def message : PrintError → String
  | .expression kind => "Cannot print expression node " ++ kind
  | .pattern kind => "Cannot print pattern " ++ kind
  | .statement kind _ => "Cannot print " ++ kind ++ ": untranslated declaration"

def loc? : PrintError → Option Location
  | .statement _ loc => loc
  | _ => none

end PrintError

namespace Script

def openBrace : String := "\x7b"

def closeBrace : String := "\x7d"

def commas (parts : List String) : String := ", ".intercalate parts

def inBraces (s : String) : String := openBrace ++ s ++ closeBrace

/-- Whether a line comment begins somewhere in the text. -/
def hasCommentMark : List Char → Bool
  | '/' :: '/' :: _ => true
  | _ :: cs => hasCommentMark cs
  | [] => false

/-- A function body behind its header. It stays on the header's line if it is a single line, does not
begin with raw text, and holds no comment mark. -/
def braced (unit header : String) (body : List Stmt) (code : String) : String :=
  if body.isEmpty then header ++ " " ++ inBraces ""
  else
    let lines := Text.lines (.ofList (trimEnd code.toList))
    let startsRaw := match body with
      | .raw _ :: _ => true
      | _ => false
    match lines with
    | [line] =>
      if startsRaw || hasCommentMark line.toList then
        header ++ " " ++ openBrace ++ "\n" ++ (if line = "" then line else unit ++ line) ++ "\n"
          ++ closeBrace
      else header ++ " " ++ openBrace ++ " " ++ line ++ " " ++ closeBrace
    | lines =>
      header ++ " " ++ openBrace ++ "\n"
        ++ "\n".intercalate (lines.map fun line => if line = "" then line else unit ++ line) ++ "\n"
        ++ closeBrace

/-- The name for the rest of a pattern, as its last part. -/
def restPart (rest : Option String) : List String := rest.toList.map ("..." ++ ·)

/-- Whether an expression is parenthesised in front of a member access or a call. -/
def needsParens : Expr → Bool
  | .function .. | .arrow .. | .binary .. => true
  | _ => false

def printImport (d : ImportDecl) : String :=
  let binding (s : ImportSpecifier) : String :=
    match s.imported with
    | none => s.localName
    | some imported =>
      if imported = s.localName then s.localName else imported ++ " as " ++ s.localName
  let clauses := d.specifiers.filterMap fun s =>
    match s.kind with
    | .default => some s.localName
    | .everything => some ("* as " ++ s.localName)
    | _ => none
  let named := (d.specifiers.filter fun s => s.kind ≠ .default ∧ s.kind ≠ .everything).map binding
  let clauses := clauses ++ if named.isEmpty then [] else [inBraces (commas named)]
  "import " ++ (if clauses.isEmpty then "" else commas clauses ++ " from ")
    ++ stringLiteral d.source ++ ";"

section
variable (unit : String)

mutual

/-- Prints a binding pattern. -/
def printPattern : Pattern → Except PrintError String
  | .ident name => .ok name
  | .default target value => do
    return (← printPattern target) ++ " = " ++ (← printExpr value)
  | .object fields rest => do
    return inBraces (commas ((← printFields fields) ++ restPart rest))
  | .array elements rest => do
    return "[" ++ commas ((← printElements elements) ++ restPart rest) ++ "]"
  | .stray value => .error (.pattern value.kindName)

/-- Prints the fields of an object pattern. A field that binds its own key is written once. -/
def printFields : List (PatternField Pattern) → Except PrintError (List String)
  | [] => .ok []
  | ⟨key, .ident name⟩ :: fields => do
    let field := if name = key then key else propertyKey key ++ ": " ++ name
    return field :: (← printFields fields)
  | ⟨key, .default (.ident name) value⟩ :: fields => do
    let value ← printExpr value
    let field := (if name = key then key else propertyKey key ++ ": " ++ name) ++ " = " ++ value
    return field :: (← printFields fields)
  | ⟨key, value⟩ :: fields => do
    let field := propertyKey key ++ ": " ++ (← printPattern value)
    return field :: (← printFields fields)

def printElements : List (Option Pattern) → Except PrintError (List String)
  | [] => .ok []
  | none :: elements => do return "" :: (← printElements elements)
  | some element :: elements => do
    return (← printPattern element) :: (← printElements elements)

/-- Prints a parameter. The default of a rest parameter is not written. -/
def printParam : Param Pattern Expr → Except PrintError String
  | ⟨binding, _, _, _, true⟩ => do return "..." ++ (← printPattern binding)
  | ⟨binding, _, _, none, false⟩ => printPattern binding
  | ⟨binding, _, _, some value, false⟩ => do
    return (← printPattern binding) ++ " = " ++ (← printExpr value)

def printParams : List (Param Pattern Expr) → Except PrintError (List String)
  | [] => .ok []
  | param :: params => do return (← printParam param) :: (← printParams params)

/-- Prints an expression. -/
def printExpr : Expr → Except PrintError String
  | .raw text => .ok text
  | .ident name => .ok name
  | .this => .ok "this"
  | .member object prop => do
    let text ← printExpr object
    return (if needsParens object then "(" ++ text ++ ")" else text) ++ "." ++ prop
  | .call callee args => do
    let args ← printExprs args
    let text ← printExpr callee
    return (if needsParens callee then "(" ++ text ++ ")" else text) ++ "(" ++ commas args ++ ")"
  | .string value => .ok (stringLiteral value)
  | .number value => .ok value.render
  | .array elements => do return "[" ++ commas (← printExprs elements) ++ "]"
  | .object entries => do return inBraces (commas (← printEntries entries))
  | .spread argument => do return "..." ++ (← printExpr argument)
  | .binary op left right => do
    return (← printExpr left) ++ " " ++ op ++ " " ++ (← printExpr right)
  | .function ⟨params, _, _⟩ body name _ => do
    let params ← printParams params
    let out ← printStmts body { unit }
    return braced unit ("function " ++ name.getD "" ++ "(" ++ commas params ++ ")") body out.text
  | .arrow ⟨params, _, _⟩ body _ => do
    let params ← printParams params
    let header := "(" ++ commas params ++ ") =>"
    match body with
    | .block stmts => do
      let out ← printStmts stmts { unit }
      return braced unit header stmts out.text
    | .expression value => do return header ++ " " ++ (← printExpr value)
  | .stray value => .error (.expression value.kindName)

def printExprs : List Expr → Except PrintError (List String)
  | [] => .ok []
  | e :: es => do return (← printExpr e) :: (← printExprs es)

/-- Prints the entries of an object literal. An identifier under its own name is written once. -/
def printEntries : List (Entry Expr) → Except PrintError (List String)
  | [] => .ok []
  | .spread argument :: entries => do
    return ("..." ++ (← printExpr argument)) :: (← printEntries entries)
  | .pair key (.ident name) :: entries => do
    let entry := if name = key then key else propertyKey key ++ ": " ++ name
    return entry :: (← printEntries entries)
  | .pair key value :: entries => do
    let entry := propertyKey key ++ ": " ++ (← printExpr value)
    return entry :: (← printEntries entries)

/-- Prints a statement. -/
def printStmt : Stmt → Layout → Except PrintError Layout
  | .block body, out => out.block openBrace closeBrace (printStmts body)
  | .ret none, out => .ok (out.emit "return;")
  | .ret (some argument), out => do
    return out.emit ("return " ++ (← printExpr argument) ++ ";")
  | .expr expression, out => do return out.emit ((← printExpr expression) ++ ";")
  | .raw text, out => .ok (out.emit (trimLines text))
  | .var kind target none _, out => do
    return out.emit (kind.keyword ++ " " ++ (← printPattern target) ++ ";")
  | .var kind target (some init) _, out => do
    let target ← printPattern target
    return out.emit (kind.keyword ++ " " ++ target ++ " = " ++ (← printExpr init) ++ ";")
  | .function name ⟨params, _, _⟩ body _, out => do
    let params ← printParams params
    let header := "function " ++ name ++ "(" ++ commas params ++ ") " ++ openBrace
    out.block header closeBrace (printStmts body)
  | .typeAlias decl, _ => .error (.statement "TypeAlias" (some decl.loc))
  | .interface decl, _ => .error (.statement "InterfaceDecl" (some decl.loc))
  | .imports decl, out => .ok (out.emit (printImport decl))
  | .exports declaration _, out => do
    let inner ← printStmt declaration { unit }
    return out.emit ("export " ++ .ofList (trimEnd inner.text.toList))
  | .stray value, _ => .error (.statement value.kindName value.loc?)

def printStmts : List Stmt → Layout → Except PrintError Layout
  | [], out => .ok out
  | stmt :: stmts, out => do printStmts stmts (← printStmt stmt out)

end

end

/-- The indentation of printed programs. -/
def defaultUnit : String := "    "

end Script

/-- Prints a program. -/
def Program.print (program : Program) (unit : String := Script.defaultUnit) :
    Except PrintError String := do
  return (← Script.printStmts unit program.body { unit }).text

/-- Prints an expression that stands on its own. -/
def Expr.print (e : Expr) (unit : String := Script.defaultUnit) : Except PrintError String :=
  Script.printExpr unit e

end TypeGuard
