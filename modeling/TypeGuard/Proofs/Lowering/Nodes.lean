import TypeGuard.Proofs.Lowering.Erasure
import TypeGuard.Proofs.Lowering.Reference
import TypeGuard.Proofs.Syntax.Nodes

/-!
# The functions in what lowering makes

Lowering adds paths, calls, rebuilt values and validators to a program. The only functions among them
are those that a validator compares numbers with, which check nothing. The default values of
parameters and patterns are left as they are, with the functions that stand in them.
-/

namespace TypeGuard

/-! ## Expressions without functions -/

section
variable {reach : Reach} {b : Binders}

@[simp] theorem Expr.allNodes_append (es es' : List Expr) :
    Expr.allNodes reach b (es ++ es') = Expr.allNodes reach b es ++ Expr.allNodes reach b es' := by
  induction es with
  | nil => rfl
  | cons e es ih => simp [Expr.allNodes, ih]

@[simp] theorem Expr.entryNodes_append (entries entries' : List (Entry Expr)) :
    Expr.entryNodes reach b (entries ++ entries')
      = Expr.entryNodes reach b entries ++ Expr.entryNodes reach b entries' := by
  induction entries with
  | nil => rfl
  | cons entry entries ih => cases entry <;> simp [Expr.entryNodes, ih]

@[simp] theorem Stmt.allNodes_append (ss ss' : List Stmt) :
    Stmt.allNodes reach b (ss ++ ss') = Stmt.allNodes reach b ss ++ Stmt.allNodes reach b ss' := by
  induction ss with
  | nil => rfl
  | cons s ss ih => simp [Stmt.allNodes, ih]

@[simp] theorem Stmt.allLocalNames_append (ss ss' : List Stmt) :
    Stmt.allLocalNames (ss ++ ss') = Stmt.allLocalNames ss ++ Stmt.allLocalNames ss' := by
  induction ss with
  | nil => rfl
  | cons s ss ih => simp [Stmt.allLocalNames, ih]

theorem Expr.nodes_path (e : Expr) (path : List String) :
    (path.foldl Expr.member e).nodes reach b = e.nodes reach b := by
  induction path generalizing e with
  | nil => rfl
  | cons part path ih => exact ih (.member e part)

theorem Expr.nodes_ofName (q : QualifiedName) : (Expr.ofName q).nodes reach b = [] := by
  unfold Expr.ofName
  split
  · rfl
  · exact Expr.nodes_path _ _

theorem Expr.allNodes_strings (texts : List String) :
    Expr.allNodes reach b (texts.map .string) = [] := by
  induction texts with
  | nil => rfl
  | cons text texts ih => exact ih

theorem Pattern.nodes_library? {source : String} {loc : Location} {p : Pattern}
    {found : LibraryBinding} (h : p.library? source loc = some found) :
    found.expression.nodes reach b = [] := by
  unfold Pattern.library? at h
  split at h
  · cases h
    dsimp only
    split <;> rfl
  · obtain ⟨name, -, rfl⟩ := Option.map_eq_some_iff.1 h
    rfl
  · cases h

theorem Stmt.nodes_library? {s : Stmt} {found : LibraryBinding} (h : s.library? = some found) :
    found.expression.nodes reach b = [] := by
  unfold Stmt.library? at h
  split at h
  next decl =>
    unfold ImportDecl.library? at h
    split at h
    · obtain ⟨specifier, -, rfl⟩ := Option.map_eq_some_iff.1 h
      rfl
    · cases h
  · split at h
    · split at h
      · exact Pattern.nodes_library? h
      · cases h
    · cases h
  · cases h

theorem Stmt.nodes_settles {options : Options} : ∀ (s : Stmt) {found : LibraryBinding},
    s.settles options true = some found → found.expression.nodes reach b = []
  | .exports declaration _, _, h => Stmt.nodes_settles declaration h
  | .typeAlias _, _, h | .interface _, _, h | .function _ _ _ _, _, h | .imports _, _, h
  | .var _ _ _ _, _, h | .ret _, _, h | .expr _, _, h | .block _, _, h | .raw _, _, h
  | .stray _, _, h => by
    obtain designated | ⟨-, needed⟩ := Option.or_eq_some_iff.1 h
    · rw [if_pos rfl] at designated
      exact Stmt.nodes_library? designated
    · rw [LibraryBinding.eq_standard_of_neededFor needed]
      rfl

/-- The library reference of a file holds no function. -/
theorem Program.nodes_libraryReference (options : Options) (program : Program) :
    (program.libraryReference options).nodes reach b = [] := by
  unfold Program.libraryReference
  cases found : program.body.findSome? (Stmt.settles options true) with
  | none => rfl
  | some binding =>
    obtain ⟨s, -, settled⟩ := List.exists_of_findSome?_eq_some found
    exact Stmt.nodes_settles s settled

mutual

theorem Pattern.nodes_rebuild : ∀ p : Pattern, p.Surface → p.rebuild.nodes reach b = []
  | .ident _, _ => rfl
  | .default target _, h => Pattern.nodes_rebuild target h.1
  | .object fields rest, h => by
    rw [Pattern.rebuild, Expr.nodes, Expr.entryNodes_append, Pattern.entryNodes_rebuild fields h]
    cases rest <;> rfl
  | .array elements rest, h => by
    rw [Pattern.rebuild, Expr.nodes, Expr.allNodes_append, Pattern.allNodes_rebuild elements h]
    cases rest <;> rfl
  | .stray _, h => h.elim
termination_by structural p => p

theorem Pattern.entryNodes_rebuild : ∀ fields : List (PatternField Pattern),
    Pattern.FieldsSurface fields → Expr.entryNodes reach b (Pattern.rebuildFields fields) = []
  | [], _ => rfl
  | ⟨_, value⟩ :: fields, h => by
    rw [Pattern.rebuildFields, Expr.entryNodes, Pattern.nodes_rebuild value h.1,
      Pattern.entryNodes_rebuild fields h.2]
    rfl
termination_by structural fields => fields

theorem Pattern.allNodes_rebuild : ∀ elements : List (Option Pattern),
    Pattern.ElementsSurface elements → Expr.allNodes reach b (Pattern.rebuildElements elements) = []
  | [], _ => rfl
  | none :: elements, h => Pattern.allNodes_rebuild elements h
  | some element :: elements, h => by
    rw [Pattern.rebuildElements, Expr.allNodes, Pattern.nodes_rebuild element h.1,
      Pattern.allNodes_rebuild elements h.2]
    rfl
termination_by structural elements => elements

end

namespace Instrument

theorem nodes_subject {param : Param Pattern Expr} (h : param.Surface) (index : Nat)
    (arrow : Bool) : (subject param index arrow).1.nodes reach b = [] := by
  unfold subject
  split
  · rfl
  · dsimp only
    split
    · exact Pattern.nodes_rebuild _ h.binding
    · rfl

theorem allNodes_forwarded {params : List (Param Pattern Expr)} (h : Param.AllSurface params) :
    Expr.allNodes reach b (forwarded params) = [] := by
  induction params with
  | nil => rfl
  | cons param params ih =>
    have first : param.binding.rebuild.nodes reach b = [] := Pattern.nodes_rebuild _ h.1.binding
    rw [forwarded, List.map_cons, Expr.allNodes]
    split
    · rw [Expr.nodes, first]
      exact ih h.2
    · rw [first]
      exact ih h.2

theorem boundNames_innerParams (params : List (Param Pattern Expr)) :
    Signature.boundNames { params := innerParams params } = Signature.boundNames { params } := by
  simp [Signature.boundNames, innerParams, List.flatMap_map]

theorem allNodes_innerParams_subset (params : List (Param Pattern Expr)) :
    Param.allNodes reach b (innerParams params) ⊆ Param.allNodes reach b params := by
  induction params with
  | nil => exact List.Subset.refl _
  | cons param params ih =>
    have first : param.binding.nodes reach b ⊆ param.nodes reach b := by
      obtain ⟨_, _, _, _ | _, _⟩ := param
      · exact List.Subset.refl _
      · exact List.subset_append_left _ _
    exact List.append_subset.2 ⟨List.subset_append_of_subset_left _ first,
      List.subset_append_of_subset_right _ ih⟩

end Instrument

end

/-! ## Functions that check nothing -/

/-- The node is a function without annotations that calls no helper. -/
def Node.Plain : Node → Prop
  | .function _ _ signature body =>
    signature.annotated = 0 ∧ signature.returnType = none ∧ ∀ e, Stmt.expr e ∉ body
  | .typeDecl _ | .stray => False

namespace Descriptor

section
variable {reach : Reach} {b : Binders} {library : Expr}

theorem nodes_combine (h : library.nodes reach b = []) (path : List String) (args : List Expr)
    (name : Option String) :
    (combine library path args name).nodes reach b = Expr.allNodes reach b args := by
  rw [combine, Expr.nodes, Expr.nodes_path, h, Expr.allNodes_append, Expr.allNodes_strings]
  simp

open List (forall_mem_append)

mutual

/-- The only functions in the validator of a type are those that compare with a number. -/
theorem plain_lower (h : library.nodes reach b = []) :
    ∀ d : Descriptor, d.Dotted → ∀ n ∈ (d.lower library).nodes reach b, n.Plain
  | .reference expr, dotted => by
    obtain ⟨q, rfl⟩ := dotted expr (List.mem_singleton_self expr)
    simp [lower, Expr.nodes_ofName]
  | .primitive _, _ => by simp [lower, Expr.nodes, h]
  | .list element _, dotted | .maybe element _, dotted => by
    simpa [lower, nodes_combine h, Expr.allNodes] using plain_lower h element dotted
  | .tuple members _, dotted | .union members _, dotted | .intersection members _, dotted => by
    simpa [lower, nodes_combine h, Expr.allNodes, Expr.nodes] using plain_lowerAll h members dotted
  | .enums values _, _ => by
    simp [lower, nodes_combine h, Expr.allNodes, Expr.nodes, Expr.allNodes_strings]
  | .dict domain codomain _, dotted => by
    rw [lower, nodes_combine h, Expr.allNodes, Expr.allNodes, Expr.allNodes, List.append_nil]
    exact forall_mem_append.2
      ⟨plain_lower h domain fun e he => dotted e (List.mem_append_left _ he),
        plain_lower h codomain fun e he => dotted e (List.mem_append_right _ he)⟩
  | .refinement base predicate _, dotted => by
    obtain ⟨q, rfl⟩ := dotted predicate (List.mem_append_right _ (List.mem_singleton_self _))
    have inBase := plain_lower h base fun e he => dotted e (List.mem_append_left _ he)
    simpa [lower, nodes_combine h, Expr.allNodes, Expr.nodes_ofName] using inBase
  | .interface props _, dotted => by
    simpa [lower, nodes_combine h, Expr.allNodes, Expr.nodes] using plain_lowerProps h props dotted
  | .extend mixins props _, dotted => by
    have inMixins := plain_lowerAll h mixins fun e he => dotted e (List.mem_append_left _ he)
    have inProps := plain_lower h props fun e he => dotted e (List.mem_append_right _ he)
    rw [lower, nodes_combine h, Expr.allNodes, Expr.nodes, Expr.allNodes_append]
    simpa [Expr.allNodes] using forall_mem_append.2 ⟨inMixins, inProps⟩
  | .literal value _, _ => by
    simp [lower, nodes_combine h, Expr.allNodes, Expr.nodes, h, equalsPredicate, Param.allNodes,
      Param.nodes, Pattern.nodes, Stmt.allNodes, Stmt.nodes, Node.Plain, Signature.annotated]
termination_by structural d => d

theorem plain_lowerAll (h : library.nodes reach b = []) : ∀ ds : List Descriptor,
    (∀ e ∈ allExpressions ds, ∃ q, e = .ofName q) →
    ∀ n ∈ Expr.allNodes reach b (lowerAll library ds), n.Plain
  | [], _ => by simp [lowerAll, Expr.allNodes]
  | d :: ds, dotted => forall_mem_append.2
    ⟨plain_lower h d fun e he => dotted e (List.mem_append_left _ he),
      plain_lowerAll h ds fun e he => dotted e (List.mem_append_right _ he)⟩
termination_by structural ds => ds

theorem plain_lowerProps (h : library.nodes reach b = []) :
    ∀ props : List (String × Descriptor), (∀ e ∈ propExpressions props, ∃ q, e = .ofName q) →
    ∀ n ∈ Expr.entryNodes reach b (lowerProps library props), n.Plain
  | [], _ => by simp [lowerProps, Expr.entryNodes]
  | (_, d) :: props, dotted => forall_mem_append.2
    ⟨plain_lower h d fun e he => dotted e (List.mem_append_left _ he),
      plain_lowerProps h props fun e he => dotted e (List.mem_append_right _ he)⟩
termination_by structural props => props

end

end

end Descriptor

/-! ## What is left as it is -/

section
variable (reach : Reach)

mutual

/-- What stands in the default values that lowering passes by in an expression. -/
def Expr.defaultNodes : Expr → List Node
  | .function ⟨params, _, _⟩ body _ _ => Param.allNodes reach [] params ++ Stmt.allDefaultNodes body
  | .arrow ⟨params, _, _⟩ body _ => Param.allNodes reach [] params ++ Expr.bodyDefaultNodes body
  | _ => []
termination_by structural e => e

def Expr.bodyDefaultNodes : Body Stmt Expr → List Node
  | .block stmts => Stmt.allDefaultNodes stmts
  | .expression value => Expr.defaultNodes value
termination_by structural body => body

/-- What stands in the default values that lowering passes by in a statement. -/
def Stmt.defaultNodes : Stmt → List Node
  | .function _ ⟨params, _, _⟩ body _ => Param.allNodes reach [] params ++ Stmt.allDefaultNodes body
  | .var _ target none _ => Pattern.nodes reach [] target
  | .var _ target (some init) _ => Pattern.nodes reach [] target ++ Expr.defaultNodes init
  | .exports declaration _ => Stmt.defaultNodes declaration
  | .ret (some argument) => Expr.defaultNodes argument
  | _ => []
termination_by structural s => s

def Stmt.allDefaultNodes : List Stmt → List Node
  | [] => []
  | s :: ss => Stmt.defaultNodes s ++ Stmt.allDefaultNodes ss
termination_by structural ss => ss

end

open List (forall_mem_append)

mutual

theorem Expr.defaultNodes_surface : ∀ e : Expr, e.Surface → ∀ n ∈ e.defaultNodes reach, n.Surface
  | .function ⟨params, _, _⟩ body _ _, h =>
    forall_mem_append.2 ⟨Param.allNodes_surface reach params [] h.1,
      Stmt.allDefaultNodes_surface body h.2⟩
  | .arrow ⟨params, _, _⟩ (.block stmts) _, h =>
    forall_mem_append.2 ⟨Param.allNodes_surface reach params [] h.1,
      Stmt.allDefaultNodes_surface stmts h.2⟩
  | .arrow ⟨params, _, _⟩ (.expression value) _, h =>
    forall_mem_append.2 ⟨Param.allNodes_surface reach params [] h.1,
      Expr.defaultNodes_surface value h.2⟩
  | .raw _, _ | .ident _, _ | .this, _ | .member _ _, _ | .call _ _, _ | .string _, _ | .number _, _
  | .array _, _ | .object _, _ | .spread _, _ | .binary _ _ _, _ | .stray _, _ => by
    simp [Expr.defaultNodes]
termination_by structural e => e

theorem Stmt.defaultNodes_surface : ∀ s : Stmt, s.Surface → ∀ n ∈ s.defaultNodes reach, n.Surface
  | .function _ ⟨params, _, _⟩ body _, h =>
    forall_mem_append.2 ⟨Param.allNodes_surface reach params [] h.1,
      Stmt.allDefaultNodes_surface body h.2⟩
  | .var _ target none _, h => Pattern.nodes_surface reach target [] h
  | .var _ target (some init) _, h =>
    forall_mem_append.2 ⟨Pattern.nodes_surface reach target [] h.1,
      Expr.defaultNodes_surface init h.2⟩
  | .exports declaration _, h => Stmt.defaultNodes_surface declaration h
  | .ret (some argument), h => Expr.defaultNodes_surface argument h
  | .ret none, _ | .raw _, _ | .imports _, _ | .typeAlias _, _ | .interface _, _ | .expr _, _
  | .block _, _ | .stray _, _ => by simp [Stmt.defaultNodes]
termination_by structural s => s

theorem Stmt.allDefaultNodes_surface : ∀ ss : List Stmt, Stmt.AllSurface ss →
    ∀ n ∈ Stmt.allDefaultNodes reach ss, n.Surface
  | [], _ => by simp [Stmt.allDefaultNodes]
  | s :: ss, h =>
    forall_mem_append.2 ⟨Stmt.defaultNodes_surface s h.1, Stmt.allDefaultNodes_surface ss h.2⟩
termination_by structural ss => ss

end

end

/-! ## Lowered statements -/

section
variable {g : Setting} {frames : Scope}

mutual

theorem Stmt.localNames_of_lowers : ∀ (s : Stmt) {s' : Stmt}, Stmt.Lowers g frames s s' →
    s'.localNames = s.localNames
  | .typeAlias _, _, ⟨_, _, _, rfl⟩ | .interface _, _, ⟨_, _, _, rfl⟩ => rfl
  | .function _ _ _ _, _, ⟨_, _, _, _, rfl⟩ => rfl
  | .var _ _ (some _) _, _, ⟨_, _, rfl⟩ | .ret (some _), _, ⟨_, _, rfl⟩ | .expr _, _, ⟨_, _, rfl⟩ =>
    rfl
  | .exports declaration _, _, ⟨_, h, rfl⟩ => by
    rw [Stmt.localNames, Stmt.localNames, Stmt.localNames_of_lowers declaration h]
  | .block body, _, ⟨_, h, rfl⟩ => Stmt.allLocalNames_of_allLower body h
  | .imports _, _, h | .var _ _ none _, _, h | .ret none, _, h | .raw _, _, h | .stray _, _, h => by
    cases h
    rfl
termination_by structural s => s

theorem Stmt.allLocalNames_of_allLower : ∀ (ss : List Stmt) {ss' : List Stmt},
    Stmt.AllLower g frames ss ss' → Stmt.allLocalNames ss' = Stmt.allLocalNames ss
  | [], _, h => by
    cases h
    rfl
  | s :: ss, _, ⟨s', rest, first, others, h⟩ => by
    rw [h, Stmt.allLocalNames, Stmt.allLocalNames, Stmt.localNames_of_lowers s first,
      Stmt.allLocalNames_of_allLower ss others]
termination_by structural ss => ss

end

theorem Stmt.ne_expr_of_lowers (e : Expr) : ∀ (s : Stmt) {s' : Stmt}, Stmt.Lowers g frames s s' →
    s.Surface → Stmt.expr e ≠ s'
  | .typeAlias _, _, ⟨_, _, _, rfl⟩, _ | .interface _, _, ⟨_, _, _, rfl⟩, _
  | .function _ _ _ _, _, ⟨_, _, _, _, rfl⟩, _ | .var _ _ (some _) _, _, ⟨_, _, rfl⟩, _
  | .ret (some _), _, ⟨_, _, rfl⟩, _ | .exports _ _, _, ⟨_, _, rfl⟩, _ => by simp
  | .imports _, _, h, _ | .var _ _ none _, _, h, _ | .ret none, _, h, _ | .raw _, _, h, _ => by
    cases h
    simp
  | .expr _, _, _, surface | .block _, _, _, surface | .stray _, _, _, surface => surface.elim

theorem Stmt.expr_not_mem_of_allLower (e : Expr) : ∀ (ss : List Stmt) {ss' : List Stmt},
    Stmt.AllLower g frames ss ss' → Stmt.AllSurface ss → Stmt.expr e ∉ ss'
  | [], _, h, _ => by
    cases h
    simp
  | s :: ss, _, ⟨_, _, first, others, h⟩, surface => by
    rw [h, List.mem_cons, not_or]
    exact ⟨Stmt.ne_expr_of_lowers e s first surface.1,
      Stmt.expr_not_mem_of_allLower e ss others surface.2⟩

end

end TypeGuard
