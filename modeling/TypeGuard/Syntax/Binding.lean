import TypeGuard.Syntax.Program

/-!
# Bound names

The names that a pattern binds, the expression that builds the matched value again from those names,
and all names that a program binds at any depth.
-/

namespace TypeGuard

namespace Pattern

mutual
/-- The names that a pattern binds, from left to right. -/
def boundNames : Pattern → List String
  | .ident name => [name]
  | .default target _ => boundNames target
  | .object fields rest => fieldNames fields ++ rest.toList
  | .array elements rest => elementNames elements ++ rest.toList
  | .stray _ => []

def fieldNames : List (PatternField Pattern) → List String
  | [] => []
  | ⟨_, value⟩ :: fields => boundNames value ++ fieldNames fields

def elementNames : List (Option Pattern) → List String
  | [] => []
  | none :: elements => elementNames elements
  | some element :: elements => boundNames element ++ elementNames elements
end

mutual
/-- An expression for the matched value, built from the names that the pattern binds. Defaults are
left out, since the names already hold the defaulted values, and a hole is undefined. -/
def rebuild : Pattern → Expr
  | .ident name => .ident name
  | .default target _ => rebuild target
  | .object fields rest =>
    .object (rebuildFields fields ++ rest.toList.map fun name => .spread (.ident name))
  | .array elements rest =>
    .array (rebuildElements elements ++ rest.toList.map fun name => .spread (.ident name))
  | .stray value => .stray value

def rebuildFields : List (PatternField Pattern) → List (Entry Expr)
  | [] => []
  | ⟨key, value⟩ :: fields => .pair key (rebuild value) :: rebuildFields fields

def rebuildElements : List (Option Pattern) → List Expr
  | [] => []
  | none :: elements => .ident "undefined" :: rebuildElements elements
  | some element :: elements => rebuild element :: rebuildElements elements
end

end Pattern

/-- The names that the parameters of a signature bind. -/
def Signature.boundNames (signature : Signature Pattern Expr) : List String :=
  signature.params.flatMap fun param => param.binding.boundNames

mutual
/-- The names bound in an expression: of functions and of what stands in calls. -/
def Expr.declaredNames : Expr → List String
  | .function signature body name _ =>
    (name.toList.filter (· ≠ "")) ++ signature.boundNames ++ Stmt.allDeclaredNames body
  | .arrow signature (.block body) _ => signature.boundNames ++ Stmt.allDeclaredNames body
  | .arrow signature (.expression value) _ => signature.boundNames ++ value.declaredNames
  | .call callee args => callee.declaredNames ++ Expr.allDeclaredNames args
  | _ => []

def Expr.allDeclaredNames : List Expr → List String
  | [] => []
  | e :: es => e.declaredNames ++ Expr.allDeclaredNames es

/-- The names bound by a statement and inside it. -/
def Stmt.declaredNames : Stmt → List String
  | .typeAlias decl => [decl.name]
  | .interface decl => [decl.name]
  | .function name signature body _ =>
    name :: signature.boundNames ++ Stmt.allDeclaredNames body
  | .var _ target none _ => target.boundNames
  | .var _ target (some init) _ => target.boundNames ++ init.declaredNames
  | .imports decl => decl.specifiers.map (·.localName)
  | .exports declaration _ => declaration.declaredNames
  | .block body => Stmt.allDeclaredNames body
  | .ret (some argument) => argument.declaredNames
  | .ret none => []
  | .expr expression => expression.declaredNames
  | .raw _ => []
  | .stray _ => []

def Stmt.allDeclaredNames : List Stmt → List String
  | [] => []
  | s :: ss => s.declaredNames ++ Stmt.allDeclaredNames ss
end

/-- All names that a program binds, at any depth. -/
def Program.declaredNames (program : Program) : List String :=
  Stmt.allDeclaredNames program.body

end TypeGuard
