import TypeGuard.Lowering.Function
import TypeGuard.Proofs.Surface.Trees

/-!
# The functions of a tree

Every function and every type declaration that stands somewhere in a tree, each function with the
names that are bound around it. Default values of parameters and patterns can hold functions too, so
a walk is told how far it goes into them.
-/

namespace TypeGuard

/-- How far a walk goes into default values. -/
inductive Reach where
  /-- Not at all. -/
  | none
  /-- Into those that are printed, which the default of a rest parameter is not. -/
  | printed
  | all

/-- What is found in the default value of a parameter, or of a pattern if `rest` is not set. -/
def Reach.enter {α : Type} (rest : Bool) (found : List α) : Reach → List α
  | .none => []
  | .printed => if rest then [] else found
  | .all => found

theorem Reach.enter_subset {α : Type} (rest : Bool) (found : List α) (reach : Reach) :
    reach.enter rest found ⊆ found := by
  cases reach <;> cases rest <;> simp [enter]

theorem Reach.map_enter {α β : Type} (f : α → β) (rest : Bool) (found : List α) (reach : Reach) :
    (reach.enter rest found).map f = reach.enter rest (found.map f) := by
  cases reach <;> cases rest <;> rfl

/-- The names bound around a place, a frame for each scope, the innermost first. -/
abbrev Binders := List (List String)

/-- The frame that a name refers to, counted from the innermost. -/
def Binders.resolve (binders : Binders) (name : String) : Option Nat :=
  binders.findIdx? (·.contains name)

mutual

/-- The names that a statement binds in the function or module that it is a statement of. Raw text is
not looked into. -/
def Stmt.localNames : Stmt → List String
  | .typeAlias decl => [decl.name]
  | .interface decl => [decl.name]
  | .function name _ _ _ => [name]
  | .var _ target _ _ => target.boundNames
  | .imports decl => decl.specifiers.map (·.localName)
  | .exports declaration _ => Stmt.localNames declaration
  | .block body => Stmt.allLocalNames body
  | .ret _ | .expr _ | .raw _ | .stray _ => []

def Stmt.allLocalNames : List Stmt → List String
  | [] => []
  | s :: ss => Stmt.localNames s ++ Stmt.allLocalNames ss

end

/-- What a walk finds. -/
inductive Node where
  /-- A function, with the frames around it and the frame of the name that only it sees. -/
  | function (outer : Binders) (own : List String) (signature : Signature Pattern Expr)
      (body : List Stmt)
  | typeDecl (name : String)
  | stray

namespace Node

/-- The names that a function binds. -/
def names : Node → List String
  | .function _ own signature body => own ++ signature.boundNames ++ Stmt.allLocalNames body
  | .typeDecl _ | .stray => []

/-- The node without the frames around it. -/
def bare : Node → Node
  | .function _ own signature body => .function [] own signature body
  | .typeDecl name => .typeDecl name
  | .stray => .stray

/-- The node can be read. -/
def Surface : Node → Prop
  | .function _ _ _ body => Stmt.AllSurface body
  | .typeDecl _ => True
  | .stray => False

end Node

/-- The frame of the name that a function expression has for itself. An empty name is none. -/
def ownFrame (name : Option String) : List String := name.toList.filter (· ≠ "")

/-- The frames inside a function. -/
def bodyBinders (outer : Binders) (own : List String) (signature : Signature Pattern Expr)
    (body : List Stmt) : Binders :=
  Stmt.allLocalNames body :: signature.boundNames :: own :: outer

section
variable (reach : Reach)

mutual

/-- What stands in the default values of a pattern. -/
def Pattern.nodes : Binders → Pattern → List Node
  | _, .ident _ => []
  | b, .object fields _ => Pattern.fieldNodes b fields
  | b, .array elements _ => Pattern.elementNodes b elements
  | b, .default target value => Pattern.nodes b target ++ reach.enter false (Expr.nodes b value)
  | _, .stray _ => [.stray]
termination_by structural _ p => p

def Pattern.fieldNodes : Binders → List (PatternField Pattern) → List Node
  | _, [] => []
  | b, ⟨_, value⟩ :: fields => Pattern.nodes b value ++ Pattern.fieldNodes b fields
termination_by structural _ fields => fields

def Pattern.elementNodes : Binders → List (Option Pattern) → List Node
  | _, [] => []
  | b, none :: elements => Pattern.elementNodes b elements
  | b, some element :: elements => Pattern.nodes b element ++ Pattern.elementNodes b elements
termination_by structural _ elements => elements

/-- What stands in the default values of a parameter. -/
def Param.nodes : Binders → Param Pattern Expr → List Node
  | b, ⟨binding, _, _, none, _⟩ => Pattern.nodes b binding
  | b, ⟨binding, _, _, some value, rest⟩ =>
    Pattern.nodes b binding ++ reach.enter rest (Expr.nodes b value)
termination_by structural _ param => param

def Param.allNodes : Binders → List (Param Pattern Expr) → List Node
  | _, [] => []
  | b, param :: params => Param.nodes b param ++ Param.allNodes b params
termination_by structural _ params => params

/-- What stands in an expression. -/
def Expr.nodes : Binders → Expr → List Node
  | _, .raw _ | _, .ident _ | _, .this | _, .string _ | _, .number _ => []
  | b, .member object _ => Expr.nodes b object
  | b, .call callee args => Expr.nodes b callee ++ Expr.allNodes b args
  | b, .array elements => Expr.allNodes b elements
  | b, .object entries => Expr.entryNodes b entries
  | b, .spread argument => Expr.nodes b argument
  | b, .binary _ left right => Expr.nodes b left ++ Expr.nodes b right
  | b, .function ⟨params, returnType, typeParams⟩ body name _ =>
    let inside := Signature.boundNames ⟨params, returnType, typeParams⟩ :: ownFrame name :: b
    .function b (ownFrame name) ⟨params, returnType, typeParams⟩ body ::
      (Param.allNodes inside params ++ Stmt.allNodes (Stmt.allLocalNames body :: inside) body)
  | b, .arrow ⟨params, returnType, typeParams⟩ body _ =>
    let inside := Signature.boundNames ⟨params, returnType, typeParams⟩ :: [] :: b
    .function b [] ⟨params, returnType, typeParams⟩ (Instrument.statements body) ::
      (Param.allNodes inside params ++
        Expr.bodyNodes (Stmt.allLocalNames (Instrument.statements body) :: inside) body)
  | _, .stray _ => [.stray]
termination_by structural _ e => e

def Expr.allNodes : Binders → List Expr → List Node
  | _, [] => []
  | b, e :: es => Expr.nodes b e ++ Expr.allNodes b es
termination_by structural _ es => es

def Expr.entryNodes : Binders → List (Entry Expr) → List Node
  | _, [] => []
  | b, .pair _ value :: entries => Expr.nodes b value ++ Expr.entryNodes b entries
  | b, .spread argument :: entries => Expr.nodes b argument ++ Expr.entryNodes b entries
termination_by structural _ entries => entries

def Expr.bodyNodes : Binders → Body Stmt Expr → List Node
  | b, .block stmts => Stmt.allNodes b stmts
  | b, .expression value => Expr.nodes b value
termination_by structural _ body => body

/-- What stands in a statement, the statement itself included. -/
def Stmt.nodes : Binders → Stmt → List Node
  | b, .block body => Stmt.allNodes b body
  | _, .ret none | _, .raw _ | _, .imports _ => []
  | b, .ret (some argument) => Expr.nodes b argument
  | b, .expr expression => Expr.nodes b expression
  | b, .var _ target none _ => Pattern.nodes b target
  | b, .var _ target (some init) _ => Pattern.nodes b target ++ Expr.nodes b init
  | b, .function _ ⟨params, returnType, typeParams⟩ body _ =>
    let inside := Signature.boundNames ⟨params, returnType, typeParams⟩ :: [] :: b
    .function b [] ⟨params, returnType, typeParams⟩ body ::
      (Param.allNodes inside params ++ Stmt.allNodes (Stmt.allLocalNames body :: inside) body)
  | _, .typeAlias decl => [.typeDecl decl.name]
  | _, .interface decl => [.typeDecl decl.name]
  | b, .exports declaration _ => Stmt.nodes b declaration
  | _, .stray _ => [.stray]
termination_by structural _ s => s

def Stmt.allNodes : Binders → List Stmt → List Node
  | _, [] => []
  | b, s :: ss => Stmt.nodes b s ++ Stmt.allNodes b ss
termination_by structural _ ss => ss

end

end

/-! ## Trees that are read -/

section
variable (reach : Reach)

open List (forall_mem_append forall_mem_cons)

mutual

theorem Pattern.nodes_surface : ∀ (p : Pattern) (b : Binders), p.Surface →
    ∀ n ∈ p.nodes reach b, n.Surface
  | .ident _, _, _ => by simp [Pattern.nodes]
  | .object fields _, b, h => Pattern.fieldNodes_surface fields b h
  | .array elements _, b, h => Pattern.elementNodes_surface elements b h
  | .default target value, b, h => by
    have inValue := Expr.nodes_surface value b h.2
    refine forall_mem_append.2 ⟨Pattern.nodes_surface target b h.1, fun n member => ?_⟩
    exact inValue n (reach.enter_subset false _ member)
  | .stray _, _, h => h.elim
termination_by structural p => p

theorem Pattern.fieldNodes_surface : ∀ (fields : List (PatternField Pattern)) (b : Binders),
    Pattern.FieldsSurface fields → ∀ n ∈ Pattern.fieldNodes reach b fields, n.Surface
  | [], _, _ => by simp [Pattern.fieldNodes]
  | ⟨_, value⟩ :: fields, b, h =>
    forall_mem_append.2 ⟨Pattern.nodes_surface value b h.1,
      Pattern.fieldNodes_surface fields b h.2⟩
termination_by structural fields => fields

theorem Pattern.elementNodes_surface : ∀ (elements : List (Option Pattern)) (b : Binders),
    Pattern.ElementsSurface elements → ∀ n ∈ Pattern.elementNodes reach b elements, n.Surface
  | [], _, _ => by simp [Pattern.elementNodes]
  | none :: elements, b, h => Pattern.elementNodes_surface elements b h
  | some element :: elements, b, h =>
    forall_mem_append.2 ⟨Pattern.nodes_surface element b h.1,
      Pattern.elementNodes_surface elements b h.2⟩
termination_by structural elements => elements

theorem Param.nodes_surface : ∀ (param : Param Pattern Expr) (b : Binders), param.Surface →
    ∀ n ∈ param.nodes reach b, n.Surface
  | ⟨binding, _, _, none, _⟩, b, h => Pattern.nodes_surface binding b h
  | ⟨binding, _, _, some value, rest⟩, b, h => by
    have inValue := Expr.nodes_surface value b h.2
    refine forall_mem_append.2 ⟨Pattern.nodes_surface binding b h.1, fun n member => ?_⟩
    exact inValue n (reach.enter_subset rest _ member)
termination_by structural param => param

theorem Param.allNodes_surface : ∀ (params : List (Param Pattern Expr)) (b : Binders),
    Param.AllSurface params → ∀ n ∈ Param.allNodes reach b params, n.Surface
  | [], _, _ => by simp [Param.allNodes]
  | param :: params, b, h =>
    forall_mem_append.2 ⟨Param.nodes_surface param b h.1, Param.allNodes_surface params b h.2⟩
termination_by structural params => params

theorem Expr.nodes_surface : ∀ (e : Expr) (b : Binders), e.Surface →
    ∀ n ∈ e.nodes reach b, n.Surface
  | .raw _, _, _ | .ident _, _, _ | .number _, _, _ => by simp [Expr.nodes]
  | .call callee args, b, ⟨module, h⟩ => by
    cases h
    simp [Expr.nodes, Expr.allNodes]
  | .function ⟨params, _, _⟩ body _ _, b, h =>
    forall_mem_cons.2 ⟨h.2, forall_mem_append.2
      ⟨Param.allNodes_surface params _ h.1, Stmt.allNodes_surface body _ h.2⟩⟩
  | .arrow ⟨params, _, _⟩ (.block stmts) _, b, h =>
    forall_mem_cons.2 ⟨h.2, forall_mem_append.2
      ⟨Param.allNodes_surface params _ h.1, Stmt.allNodes_surface stmts _ h.2⟩⟩
  | .arrow ⟨params, _, _⟩ (.expression value) _, b, h =>
    forall_mem_cons.2 ⟨⟨h.2, trivial⟩, forall_mem_append.2
      ⟨Param.allNodes_surface params _ h.1, Expr.nodes_surface value _ h.2⟩⟩
  | .this, _, h | .member _ _, _, h | .string _, _, h | .array _, _, h | .object _, _, h
  | .spread _, _, h | .binary _ _ _, _, h | .stray _, _, h => h.elim
termination_by structural e => e

theorem Stmt.nodes_surface : ∀ (s : Stmt) (b : Binders), s.Surface →
    ∀ n ∈ s.nodes reach b, n.Surface
  | .ret none, _, _ | .raw _, _, _ | .imports _, _, _ => by simp [Stmt.nodes]
  | .ret (some argument), b, h => Expr.nodes_surface argument b h
  | .var _ target none _, b, h => Pattern.nodes_surface target b h
  | .var _ target (some init) _, b, h =>
    forall_mem_append.2 ⟨Pattern.nodes_surface target b h.1, Expr.nodes_surface init b h.2⟩
  | .function _ ⟨params, _, _⟩ body _, b, h =>
    forall_mem_cons.2 ⟨h.2, forall_mem_append.2
      ⟨Param.allNodes_surface params _ h.1, Stmt.allNodes_surface body _ h.2⟩⟩
  | .typeAlias _, _, _ | .interface _, _, _ => by simp [Stmt.nodes, Node.Surface]
  | .exports declaration _, b, h => Stmt.nodes_surface declaration b h
  | .block _, _, h | .expr _, _, h | .stray _, _, h => h.elim
termination_by structural s => s

theorem Stmt.allNodes_surface : ∀ (ss : List Stmt) (b : Binders), Stmt.AllSurface ss →
    ∀ n ∈ Stmt.allNodes reach b ss, n.Surface
  | [], _, _ => by simp [Stmt.allNodes]
  | s :: ss, b, h =>
    forall_mem_append.2 ⟨Stmt.nodes_surface s b h.1, Stmt.allNodes_surface ss b h.2⟩
termination_by structural ss => ss

end

/-! ## The frames around nodes do not matter to what is found -/

mutual

theorem Pattern.bare_nodes : ∀ (p : Pattern) (b b' : Binders),
    (p.nodes reach b).map Node.bare = (p.nodes reach b').map Node.bare
  | .ident _, _, _ | .stray _, _, _ => rfl
  | .object fields _, b, b' => Pattern.bare_fieldNodes fields b b'
  | .array elements _, b, b' => Pattern.bare_elementNodes elements b b'
  | .default target value, b, b' => by
    simp only [Pattern.nodes, List.map_append, Reach.map_enter, Pattern.bare_nodes target b b',
      Expr.bare_nodes value b b']
termination_by structural p => p

theorem Pattern.bare_fieldNodes : ∀ (fields : List (PatternField Pattern)) (b b' : Binders),
    (Pattern.fieldNodes reach b fields).map Node.bare
      = (Pattern.fieldNodes reach b' fields).map Node.bare
  | [], _, _ => rfl
  | ⟨_, value⟩ :: fields, b, b' => by
    simp only [Pattern.fieldNodes, List.map_append, Pattern.bare_nodes value b b',
      Pattern.bare_fieldNodes fields b b']
termination_by structural fields => fields

theorem Pattern.bare_elementNodes : ∀ (elements : List (Option Pattern)) (b b' : Binders),
    (Pattern.elementNodes reach b elements).map Node.bare
      = (Pattern.elementNodes reach b' elements).map Node.bare
  | [], _, _ => rfl
  | none :: elements, b, b' => Pattern.bare_elementNodes elements b b'
  | some element :: elements, b, b' => by
    simp only [Pattern.elementNodes, List.map_append, Pattern.bare_nodes element b b',
      Pattern.bare_elementNodes elements b b']
termination_by structural elements => elements

theorem Param.bare_nodes : ∀ (param : Param Pattern Expr) (b b' : Binders),
    (param.nodes reach b).map Node.bare = (param.nodes reach b').map Node.bare
  | ⟨binding, _, _, none, _⟩, b, b' => Pattern.bare_nodes binding b b'
  | ⟨binding, _, _, some value, _⟩, b, b' => by
    simp only [Param.nodes, List.map_append, Reach.map_enter, Pattern.bare_nodes binding b b',
      Expr.bare_nodes value b b']
termination_by structural param => param

theorem Param.bare_allNodes : ∀ (params : List (Param Pattern Expr)) (b b' : Binders),
    (Param.allNodes reach b params).map Node.bare = (Param.allNodes reach b' params).map Node.bare
  | [], _, _ => rfl
  | param :: params, b, b' => by
    simp only [Param.allNodes, List.map_append, Param.bare_nodes param b b',
      Param.bare_allNodes params b b']
termination_by structural params => params

theorem Expr.bare_nodes : ∀ (e : Expr) (b b' : Binders),
    (e.nodes reach b).map Node.bare = (e.nodes reach b').map Node.bare
  | .raw _, _, _ | .ident _, _, _ | .this, _, _ | .string _, _, _ | .number _, _, _
  | .stray _, _, _ => rfl
  | .member object _, b, b' => Expr.bare_nodes object b b'
  | .call callee args, b, b' => by
    simp only [Expr.nodes, List.map_append, Expr.bare_nodes callee b b',
      Expr.bare_allNodes args b b']
  | .array elements, b, b' => Expr.bare_allNodes elements b b'
  | .object entries, b, b' => Expr.bare_entryNodes entries b b'
  | .spread argument, b, b' => Expr.bare_nodes argument b b'
  | .binary _ left right, b, b' => by
    simp only [Expr.nodes, List.map_append, Expr.bare_nodes left b b', Expr.bare_nodes right b b']
  | .function ⟨params, _, _⟩ body name _, b, b' => by
    simp only [Expr.nodes, List.map_cons, List.map_append, Node.bare]
    rw [Param.bare_allNodes params _ (_ :: ownFrame name :: b'), Stmt.bare_allNodes body]
  | .arrow ⟨params, _, _⟩ body _, b, b' => by
    simp only [Expr.nodes, List.map_cons, List.map_append, Node.bare]
    rw [Param.bare_allNodes params _ (_ :: [] :: b'), Expr.bare_bodyNodes body]
termination_by structural e => e

theorem Expr.bare_allNodes : ∀ (es : List Expr) (b b' : Binders),
    (Expr.allNodes reach b es).map Node.bare = (Expr.allNodes reach b' es).map Node.bare
  | [], _, _ => rfl
  | e :: es, b, b' => by
    simp only [Expr.allNodes, List.map_append, Expr.bare_nodes e b b', Expr.bare_allNodes es b b']
termination_by structural es => es

theorem Expr.bare_entryNodes : ∀ (entries : List (Entry Expr)) (b b' : Binders),
    (Expr.entryNodes reach b entries).map Node.bare
      = (Expr.entryNodes reach b' entries).map Node.bare
  | [], _, _ => rfl
  | .pair _ value :: entries, b, b' | .spread value :: entries, b, b' => by
    simp only [Expr.entryNodes, List.map_append, Expr.bare_nodes value b b',
      Expr.bare_entryNodes entries b b']
termination_by structural entries => entries

theorem Expr.bare_bodyNodes : ∀ (body : Body Stmt Expr) (b b' : Binders),
    (Expr.bodyNodes reach b body).map Node.bare = (Expr.bodyNodes reach b' body).map Node.bare
  | .block stmts, b, b' => Stmt.bare_allNodes stmts b b'
  | .expression value, b, b' => Expr.bare_nodes value b b'
termination_by structural body => body

theorem Stmt.bare_nodes : ∀ (s : Stmt) (b b' : Binders),
    (s.nodes reach b).map Node.bare = (s.nodes reach b').map Node.bare
  | .ret none, _, _ | .raw _, _, _ | .imports _, _, _ | .typeAlias _, _, _ | .interface _, _, _
  | .stray _, _, _ => rfl
  | .block body, b, b' => Stmt.bare_allNodes body b b'
  | .ret (some argument), b, b' => Expr.bare_nodes argument b b'
  | .expr expression, b, b' => Expr.bare_nodes expression b b'
  | .var _ target none _, b, b' => Pattern.bare_nodes target b b'
  | .var _ target (some init) _, b, b' => by
    simp only [Stmt.nodes, List.map_append, Pattern.bare_nodes target b b',
      Expr.bare_nodes init b b']
  | .function _ ⟨params, _, _⟩ body _, b, b' => by
    simp only [Stmt.nodes, List.map_cons, List.map_append, Node.bare]
    rw [Param.bare_allNodes params _ (_ :: [] :: b'), Stmt.bare_allNodes body]
  | .exports declaration _, b, b' => Stmt.bare_nodes declaration b b'
termination_by structural s => s

theorem Stmt.bare_allNodes : ∀ (ss : List Stmt) (b b' : Binders),
    (Stmt.allNodes reach b ss).map Node.bare = (Stmt.allNodes reach b' ss).map Node.bare
  | [], _, _ => rfl
  | s :: ss, b, b' => by
    simp only [Stmt.allNodes, List.map_append, Stmt.bare_nodes s b b', Stmt.bare_allNodes ss b b']
termination_by structural ss => ss

end

end

/-! ## Declared names -/

mutual

theorem Stmt.localNames_subset : ∀ s : Stmt, s.localNames ⊆ s.declaredNames
  | .typeAlias _ | .interface _ | .function _ _ _ _ | .imports _ | .ret _ | .expr _ | .raw _
  | .stray _ => by simp [Stmt.localNames, Stmt.declaredNames]
  | .var _ _ none _ => List.Subset.refl _
  | .var _ _ (some _) _ => List.subset_append_left _ _
  | .exports declaration _ => Stmt.localNames_subset declaration
  | .block body => Stmt.allLocalNames_subset body
termination_by structural s => s

theorem Stmt.allLocalNames_subset : ∀ ss : List Stmt,
    Stmt.allLocalNames ss ⊆ Stmt.allDeclaredNames ss
  | [] => List.Subset.refl _
  | s :: ss => List.append_subset.2
    ⟨List.subset_append_of_subset_left _ (Stmt.localNames_subset s),
      List.subset_append_of_subset_right _ (Stmt.allLocalNames_subset ss)⟩
termination_by structural ss => ss

end

mutual

theorem Pattern.nodes_none : ∀ (p : Pattern) (b : Binders), p.Surface → p.nodes .none b = []
  | .ident _, _, _ => rfl
  | .object fields _, b, h => Pattern.fieldNodes_none fields b h
  | .array elements _, b, h => Pattern.elementNodes_none elements b h
  | .default target _, b, h => by rw [Pattern.nodes, Pattern.nodes_none target b h.1]; rfl
  | .stray _, _, h => h.elim
termination_by structural p => p

theorem Pattern.fieldNodes_none : ∀ (fields : List (PatternField Pattern)) (b : Binders),
    Pattern.FieldsSurface fields → Pattern.fieldNodes .none b fields = []
  | [], _, _ => rfl
  | ⟨_, value⟩ :: fields, b, h => by
    rw [Pattern.fieldNodes, Pattern.nodes_none value b h.1, Pattern.fieldNodes_none fields b h.2]
    rfl
termination_by structural fields => fields

theorem Pattern.elementNodes_none : ∀ (elements : List (Option Pattern)) (b : Binders),
    Pattern.ElementsSurface elements → Pattern.elementNodes .none b elements = []
  | [], _, _ => rfl
  | none :: elements, b, h => Pattern.elementNodes_none elements b h
  | some element :: elements, b, h => by
    rw [Pattern.elementNodes, Pattern.nodes_none element b h.1,
      Pattern.elementNodes_none elements b h.2]
    rfl
termination_by structural elements => elements

end

theorem Param.allNodes_none : ∀ (params : List (Param Pattern Expr)) (b : Binders),
    Param.AllSurface params → Param.allNodes .none b params = []
  | [], _, _ => rfl
  | ⟨binding, _, _, none, _⟩ :: params, b, h => by
    rw [Param.allNodes, Param.nodes, Pattern.nodes_none binding b h.1,
      Param.allNodes_none params b h.2]
    rfl
  | ⟨binding, _, _, some _, _⟩ :: params, b, h => by
    rw [Param.allNodes, Param.nodes, Pattern.nodes_none binding b h.1.1,
      Param.allNodes_none params b h.2]
    rfl

section
open List (forall_mem_append forall_mem_cons)

/-- The names in a function form a part of those declared in it. -/
theorem Node.names_subset {outer : Binders} {own : List String}
    {signature : Signature Pattern Expr} {body : List Stmt} :
    (Node.function outer own signature body).names
      ⊆ own ++ signature.boundNames ++ Stmt.allDeclaredNames body :=
  List.append_subset.2 ⟨List.subset_append_left _ _,
    List.subset_append_of_subset_right _ (Stmt.allLocalNames_subset body)⟩

mutual

/-- The names that are bound where a walk outside the default values comes through are declared. -/
theorem Expr.names_nodes_subset : ∀ (e : Expr) (b : Binders), e.Surface →
    ∀ n ∈ e.nodes .none b, n.names ⊆ e.declaredNames
  | .raw _, _, _ | .ident _, _, _ | .number _, _, _ => by simp [Expr.nodes]
  | .call callee args, b, ⟨module, h⟩ => by
    cases h
    simp [Expr.nodes, Expr.allNodes]
  | .function ⟨params, _, _⟩ body _ _, b, h => by
    refine forall_mem_cons.2 ⟨Node.names_subset, ?_⟩
    rw [Param.allNodes_none params _ h.1, List.nil_append]
    intro n member
    exact List.subset_append_of_subset_right _ (Stmt.names_allNodes_subset body _ h.2 n member)
  | .arrow ⟨params, _, _⟩ (.block stmts) _, b, h => by
    refine forall_mem_cons.2 ⟨Node.names_subset, ?_⟩
    rw [Param.allNodes_none params _ h.1, List.nil_append]
    intro n member
    exact List.subset_append_of_subset_right _ (Stmt.names_allNodes_subset stmts _ h.2 n member)
  | .arrow ⟨params, _, _⟩ (.expression value) _, b, h => by
    refine forall_mem_cons.2 ⟨?_, ?_⟩
    · exact List.append_subset.2 ⟨List.subset_append_left _ _, List.nil_subset _⟩
    rw [Param.allNodes_none params _ h.1, List.nil_append]
    intro n member
    exact List.subset_append_of_subset_right _ (Expr.names_nodes_subset value _ h.2 n member)
  | .this, _, h | .member _ _, _, h | .string _, _, h | .array _, _, h | .object _, _, h
  | .spread _, _, h | .binary _ _ _, _, h | .stray _, _, h => h.elim
termination_by structural e => e

theorem Stmt.names_nodes_subset : ∀ (s : Stmt) (b : Binders), s.Surface →
    ∀ n ∈ s.nodes .none b, n.names ⊆ s.declaredNames
  | .ret none, _, _ | .raw _, _, _ | .imports _, _, _ => by simp [Stmt.nodes]
  | .typeAlias _, _, _ | .interface _, _, _ => by simp [Stmt.nodes, Node.names]
  | .ret (some argument), b, h => Expr.names_nodes_subset argument b h
  | .var _ target none _, b, h => by simp [Stmt.nodes, Pattern.nodes_none target b h]
  | .var _ target (some init) _, b, h => by
    rw [Stmt.nodes, Pattern.nodes_none target b h.1, List.nil_append]
    intro n member
    exact List.subset_append_of_subset_right _ (Expr.names_nodes_subset init b h.2 n member)
  | .function _ ⟨params, _, _⟩ body _, b, h => by
    refine forall_mem_cons.2 ⟨List.subset_cons_of_subset _ Node.names_subset, ?_⟩
    rw [Param.allNodes_none params _ h.1, List.nil_append]
    intro n member
    exact List.subset_cons_of_subset _ (List.subset_append_of_subset_right _
      (Stmt.names_allNodes_subset body _ h.2 n member))
  | .exports declaration _, b, h => Stmt.names_nodes_subset declaration b h
  | .block _, _, h | .expr _, _, h | .stray _, _, h => h.elim
termination_by structural s => s

theorem Stmt.names_allNodes_subset : ∀ (ss : List Stmt) (b : Binders), Stmt.AllSurface ss →
    ∀ n ∈ Stmt.allNodes .none b ss, n.names ⊆ Stmt.allDeclaredNames ss
  | [], _, _ => by simp [Stmt.allNodes]
  | s :: ss, b, h => forall_mem_append.2
    ⟨fun n member =>
      List.subset_append_of_subset_left _ (Stmt.names_nodes_subset s b h.1 n member),
    fun n member =>
      List.subset_append_of_subset_right _ (Stmt.names_allNodes_subset ss b h.2 n member)⟩
termination_by structural ss => ss

end

end

/-- The names that a program binds where lowering comes through: those of the module, and those of
every function outside default values. -/
def Program.boundNames (program : Program) : List String :=
  Stmt.allLocalNames program.body ++ (Stmt.allNodes .none [] program.body).flatMap Node.names

theorem Program.boundNames_subset {program : Program} (h : Stmt.AllSurface program.body) :
    program.boundNames ⊆ program.declaredNames := by
  refine List.append_subset.2 ⟨Stmt.allLocalNames_subset _, fun name member => ?_⟩
  obtain ⟨n, found, bound⟩ := List.mem_flatMap.1 member
  exact Stmt.names_allNodes_subset program.body [] h n found bound

end TypeGuard
