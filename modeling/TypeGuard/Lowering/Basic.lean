import TypeGuard.Descriptor.OfTy
import TypeGuard.Journal
import TypeGuard.Surface.Program

/-!
# Lowering state

What the lowering of one file has settled so far: its reference to the validation library, the
open frames of type parameters, and the names that new names must avoid.
-/

namespace TypeGuard

/-- A file's reference to the validation library. -/
structure LibraryBinding where
  expression : Expr
  origin : Origin
  loc : Location := .unknown

/-- The packages whose import designates the validation library. -/
def libraryPackages : List String :=
  ["tcomb", "tcomb-validation", "tcomb-react", "tcomb-form", "redux-tcomb"]

/-- The name under which the other packages export the library. -/
def libraryExport : String := "t"

/-- The reference to the library that an import designates: its first default binding or binding of
the library's export. -/
def ImportDecl.library? (decl : ImportDecl) : Option LibraryBinding :=
  if libraryPackages.contains decl.source then
    (decl.specifiers.find? fun s =>
        s.kind = .default ∨ (s.kind = .named ∧ s.imported = some libraryExport)).map
      fun s => ⟨.ident s.localName, .imported, decl.loc⟩
  else none

/-- The module that a call of `require` loads. -/
def Expr.required? : Expr → Option String
  | .call (.ident "require") (.string source :: _) => some source
  | _ => none

/-- The name that the library's export is bound to in an object pattern. -/
def exportBinding? : List (PatternField Pattern) → Option String
  | [] => none
  | ⟨key, .ident name⟩ :: fields =>
    if key = libraryExport then some name else exportBinding? fields
  | ⟨key, .default (.ident name) _⟩ :: fields =>
    if key = libraryExport then some name else exportBinding? fields
  | _ :: fields => exportBinding? fields

/-- The reference to the library that a variable designates if `source` is loaded into `target`. -/
def Pattern.library? (source : String) (loc : Location) : Pattern → Option LibraryBinding
  | .ident name =>
    let expression : Expr :=
      if source = defaultPackage then .ident name else .member (.ident name) libraryExport
    some ⟨expression, .required, loc⟩
  | .object fields _ => (exportBinding? fields).map fun name => ⟨.ident name, .required, loc⟩
  | _ => none

/-- The reference to the library that a statement designates. -/
def Stmt.library? : Stmt → Option LibraryBinding
  | .imports decl => decl.library?
  | .var _ target (some init) loc =>
    match init.required? with
    | some source => if libraryPackages.contains source then target.library? source loc else none
    | none => none
  | _ => none

structure Context where
  file : String := "<string>"
  binding : Option LibraryBinding := none
  /-- The open frames of type parameters, the innermost first. -/
  scope : Scope := []
  /-- Names that a new name of the whole file must avoid. -/
  taken : List String := []
  /-- The name of the assertion helper, once it is needed. -/
  assertName : Option String := none
  journal : List Event := []

/-- The `n`-th name that is tried for a new name: the stem itself, then the stem with a number from
two on. -/
def candidate (stem : String) (n : Nat) : String := if n = 0 then stem else stem ++ toString (n + 1)

/-- The stem of new names: the base behind exactly one low line. -/
def freshStem (base : String) : String := .ofList ('_' :: base.toList.dropWhile (· == '_'))

/-- The first candidate from the `n`-th on that is not blocked, among one more than `fuel`. -/
def firstFreeFrom (blocked : List String) (stem : String) : Nat → Nat → String
  | 0, n => candidate stem n
  | fuel + 1, n =>
    if blocked.contains (candidate stem n) then firstFreeFrom blocked stem fuel (n + 1)
    else candidate stem n

/-- The first candidate that is not blocked. One more candidate than there are blocked names is
enough. -/
def firstFree (blocked : List String) (stem : String) : String :=
  firstFreeFrom blocked stem blocked.length 0

namespace Context

/-- Forgets everything about the file. -/
def reset (file : Option String) (ctx : Context) : Context := { file := file.getD ctx.file }

def note (event : Event) (ctx : Context) : Context :=
  { ctx with journal := ctx.journal ++ [event] }

/-- Offers a statement as the one that designates the library; the first that does wins. -/
def register (stmt : Stmt) (ctx : Context) : Bool × Context :=
  match ctx.binding, stmt.library? with
  | none, some found =>
    (true, { ctx with binding := some found }.note (.libraryBound ctx.file found.origin found.loc))
  | _, _ => (false, ctx)

/-- The reference to the library. A file that has designated none so far loads the default
package. -/
def library (ctx : Context) : Expr × Context :=
  match ctx.binding with
  | some binding => (binding.expression, ctx)
  | none =>
    let expression := Expr.require defaultPackage
    (expression,
      { ctx with binding := some ⟨expression, .default, .unknown⟩ }.note
        (.libraryDefaulted ctx.file))

def enter (names : List String) (ctx : Context) : Context := { ctx with scope := names :: ctx.scope }

/-- Closes the innermost frame. -/
def leave (ctx : Context) : Context := { ctx with scope := ctx.scope.tail }

/-- Closes the innermost frame, if there is one. -/
def leave? (ctx : Context) : Option Context :=
  match ctx.scope with
  | [] => none
  | _ :: _ => some ctx.leave

/-- Names in ascending order, each once. -/
def sortedNames (names : List String) : List String :=
  (names.foldl (fun kept name => if kept.contains name then kept else kept ++ [name]) []).mergeSort
    fun a b => decide (a < b) || a == b

/-- The type parameters in scope. -/
def visible (ctx : Context) : List String := sortedNames ctx.scope.flatten

def reserve (names : List String) (ctx : Context) : Context :=
  { ctx with taken := ctx.taken ++ names }

/-- A new name for use inside one function. -/
def freshLocal (base : String) (avoid : List String) (ctx : Context) : String :=
  firstFree (ctx.taken ++ avoid) (freshStem base)

/-- A new name for the whole file. -/
def freshName (base : String) (ctx : Context) : String × Context :=
  let name := ctx.freshLocal base []
  (name, ctx.reserve [name])

/-- The name of the assertion helper, chosen at its first use. -/
def helperName (ctx : Context) : String × Context :=
  match ctx.assertName with
  | some name => (name, ctx)
  | none =>
    let (name, ctx) := ctx.freshName "assert"
    (name, { ctx with assertName := some name })

end Context

/-- A step of lowering a file: it may fail, and keeps what it has settled even then. -/
abbrev Lowering (ε : Type) := ExceptT ε (StateM Context)

namespace Lowering

variable {ε : Type}

def library : Lowering ε Expr := modifyGet Context.library

def helperName : Lowering ε String := modifyGet Context.helperName

def note (event : Event) : Lowering ε Unit := modify (Context.note event)

/-- Takes the outcome of a step that settles nothing. -/
def ofExcept {α : Type} (r : Except ε α) : Lowering ε α := ExceptT.mk (pure r)

/-- Takes a step with a frame of type parameters open. The frame is closed again however the step
ends. -/
def inFrame {α : Type} (names : List String) (step : Lowering ε α) : Lowering ε α := do
  modify (Context.enter names)
  try step finally modify Context.leave

end Lowering

end TypeGuard
