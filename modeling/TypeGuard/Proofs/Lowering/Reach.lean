import TypeGuard.Proofs.Lowering.Hygiene
import TypeGuard.Proofs.Script.Printable

/-!
# What lowering reaches

Lowering goes through statements, function bodies and calls, and passes by the default values of
parameters and patterns. `Program.reached_of_lower` says that this is all it leaves out: every
function elsewhere has its checks and no type declaration is left, so the lowered program can be
printed unless a default value that is printed holds a type declaration.
-/

namespace TypeGuard

/-- What stands in a program, default values included as far as `reach` says. -/
def Program.nodes (reach : Reach) (program : Program) : List Node :=
  Stmt.allNodes reach [Stmt.allLocalNames program.body] program.body

/-- What stands in the default values of a program, those in default values included. -/
def Program.defaultNodes (reach : Reach) (program : Program) : List Node :=
  Stmt.allDefaultNodes reach program.body

namespace Node

/-- The node is a function that begins with one check for each annotated parameter. -/
def reached (helper : String) : Node → Bool
  | .function _ _ signature body =>
    (body.takeWhile (·.isCheck helper)).length == signature.annotated
  | .typeDecl _ | .stray => false

/-- The node is a function without annotated parameters. -/
def unannotated : Node → Bool
  | .function _ _ signature _ => signature.annotated == 0
  | .typeDecl _ | .stray => false

variable {helper : String} {n : Node}

theorem reached_bare (helper : String) (n : Node) : n.bare.reached helper = n.reached helper := by
  cases n <;> rfl

theorem isFunction_bare (n : Node) : n.bare.isFunction = n.isFunction := by
  cases n <;> rfl

theorem isFunction_of_reached (h : n.reached helper = true) : n.isFunction = true := by
  cases n with
  | function => rfl
  | typeDecl | stray => exact h

/-- Without an expression statement there is no check at the beginning. -/
theorem takeWhile_isCheck_eq_nil {ss : List Stmt} (quiet : ∀ e, Stmt.expr e ∉ ss) :
    ss.takeWhile (·.isCheck helper) = [] := by
  cases ss with
  | nil => rfl
  | cons s ss =>
    cases s with
    | expr e => exact absurd (List.mem_cons_self ..) (quiet e)
    | block | ret | raw | var | function | typeAlias | interface | imports | exports | stray => rfl

/-- A function that was read begins with no check. -/
theorem Surface.reached_eq (h : n.Surface) : n.reached helper = n.unannotated := by
  cases n with
  | function outer own signature body =>
    have quiet e : Stmt.expr e ∉ body := Stmt.expr_not_mem_of_allSurface e h
    rw [reached, unannotated, takeWhile_isCheck_eq_nil quiet, List.length_nil]
    exact BEq.comm
  | typeDecl | stray => rfl

theorem Plain.reached (h : n.Plain) : n.reached helper = true := by
  cases n with
  | function outer own signature body =>
    obtain ⟨unannotated, -, quiet⟩ := h
    rw [Node.reached, takeWhile_isCheck_eq_nil quiet, unannotated]
    rfl
  | typeDecl | stray => exact h.elim

end Node

theorem Setting.Checked.reached {g : Setting} {module : List String} {outer : Binders}
    {own : List String} {signature : Signature Pattern Expr} {core body : List Stmt}
    (h : g.Checked module outer own signature core body) :
    (Node.function outer own signature body).reached g.helper = true := by
  obtain ⟨frames, arrow, checks, tail, arguments, returned, rfl⟩ := h.guards
  have none : tail.takeWhile (·.isCheck g.helper) = [] := by
    unfold Setting.Returns at returned
    split at returned
    · rw [returned]
      exact Node.takeWhile_isCheck_eq_nil h.quiet
    · obtain ⟨ctx, d, -, -, -, rfl⟩ := returned
      rfl
  rw [Node.reached, List.takeWhile_append_of_pos arguments.isCheck, none, List.append_nil,
    arguments.length_eq]
  exact BEq.rfl

/-! ## Default values stay -/

section
variable {g : Setting} {reach : Reach}

namespace Setting

variable {frames : Scope} {signature : Signature Pattern Expr} {arrow : Bool}
  {core tail body : List Stmt} {found : List Node}

theorem Returns.bare_subset (h : g.Returns frames signature core tail)
    (inside : ∀ b, found.map Node.bare ⊆ (Stmt.allNodes reach b core).map Node.bare)
    (b : Binders) : found.map Node.bare ⊆ (Stmt.allNodes reach b tail).map Node.bare := by
  unfold Returns at h
  split at h
  · rw [h]
    exact inside b
  · obtain ⟨ctx, d, -, -, -, rfl⟩ := h
    intro n member
    -- The body is that of the inner function, the first function in the checked return.
    simp only [checkedReturn, Stmt.allNodes, Stmt.nodes, Expr.nodes, List.map_append, List.map_cons,
      List.mem_append, List.mem_cons]
    exact .inl (.inr (.inl (.inr (.inr (inside _ member)))))

theorem Guards.bare_subset (h : g.Guards frames signature arrow core body)
    (inside : ∀ b, found.map Node.bare ⊆ (Stmt.allNodes reach b core).map Node.bare)
    (n : Node) (b b' : Binders) :
    (Param.allNodes reach [] signature.params ++ found).map Node.bare ⊆
      (n :: (Param.allNodes reach b signature.params ++ Stmt.allNodes reach b' body)).map
        Node.bare := by
  obtain ⟨checks, tail, -, returned, rfl⟩ := h
  rw [List.map_append, List.map_cons, List.map_append, Param.bare_allNodes reach _ [] b,
    Stmt.allNodes_append, List.map_append]
  refine List.subset_cons_of_subset _ (List.append_subset.2 ⟨List.subset_append_left _ _, ?_⟩)
  refine List.subset_append_of_subset_right _ (List.subset_append_of_subset_right _ ?_)
  exact returned.bare_subset inside b'

end Setting

mutual

theorem Expr.bare_defaultNodes_subset (apt : g.Apt) : ∀ (e : Expr) {e' : Expr} {frames : Scope}
    (b : Binders), Expr.Lowers g frames e e' →
      (e.defaultNodes reach).map Node.bare ⊆ (e'.nodes reach b).map Node.bare
  | .function ⟨_, _, _⟩ body _ _, _, _, _, ⟨_, _, lowered, bodies, h⟩ => by
    obtain ⟨_, _, guards⟩ := apt.guards bodies
    rw [h]
    exact guards.bare_subset (fun b => Stmt.bare_allDefaultNodes_subset apt body b lowered) _ _ _
  | .arrow ⟨_, _, _⟩ (.block stmts) _, _, _, _, ⟨_, _, ⟨_, lowered, same⟩, bodies, h⟩ => by
    obtain ⟨_, rfl, _, _, guards⟩ := apt.arrowGuards bodies
    rw [same] at guards
    rw [h]
    exact guards.bare_subset (fun b => Stmt.bare_allDefaultNodes_subset apt stmts b lowered) _ _ _
  | .arrow ⟨_, _, _⟩ (.expression value) _, _, _, _, ⟨_, _, ⟨_, lowered, same⟩, bodies, h⟩ => by
    obtain ⟨_, rfl, _, _, guards⟩ := apt.arrowGuards bodies
    rw [same] at guards
    rw [h]
    refine guards.bare_subset (fun b => ?_) _ _ _
    simpa [Instrument.statements, Stmt.allNodes, Stmt.nodes, Expr.bodyDefaultNodes] using
      Expr.bare_defaultNodes_subset apt value b lowered
  | .raw _, _, _, _, _ | .ident _, _, _, _, _ | .this, _, _, _, _ | .member _ _, _, _, _, _
  | .call _ _, _, _, _, _ | .string _, _, _, _, _ | .number _, _, _, _, _ | .array _, _, _, _, _
  | .object _, _, _, _, _ | .spread _, _, _, _, _ | .binary _ _ _, _, _, _, _
  | .stray _, _, _, _, _ => List.nil_subset _
termination_by structural e => e

theorem Stmt.bare_defaultNodes_subset (apt : g.Apt) : ∀ (s : Stmt) {s' : Stmt} {frames : Scope}
    (b : Binders), Stmt.Lowers g frames s s' →
      (s.defaultNodes reach).map Node.bare ⊆ (s'.nodes reach b).map Node.bare
  | .function _ ⟨_, _, _⟩ body _, _, _, _, ⟨_, _, lowered, bodies, h⟩ => by
    obtain ⟨_, _, guards⟩ := apt.guards bodies
    rw [h]
    exact guards.bare_subset (fun b => Stmt.bare_allDefaultNodes_subset apt body b lowered) _ _ _
  | .var _ target none _, _, _, b, h => by
    rw [h, Stmt.defaultNodes, Stmt.nodes, Pattern.bare_nodes reach target [] b]
    exact List.Subset.refl _
  | .var _ target (some init) _, _, _, b, ⟨_, lowered, h⟩ => by
    rw [h, Stmt.defaultNodes, Stmt.nodes, List.map_append, List.map_append,
      Pattern.bare_nodes reach target [] b]
    exact List.append_subset.2 ⟨List.subset_append_left _ _,
      List.subset_append_of_subset_right _ (Expr.bare_defaultNodes_subset apt init b lowered)⟩
  | .exports declaration _, _, _, b, ⟨_, lowered, h⟩ => by
    rw [h, Stmt.nodes]
    exact Stmt.bare_defaultNodes_subset apt declaration b lowered
  | .ret (some argument), _, _, b, ⟨_, lowered, h⟩ => by
    rw [h]
    exact Expr.bare_defaultNodes_subset apt argument b lowered
  | .ret none, _, _, _, _ | .raw _, _, _, _, _ | .imports _, _, _, _, _ | .typeAlias _, _, _, _, _
  | .interface _, _, _, _, _ | .expr _, _, _, _, _ | .block _, _, _, _, _ | .stray _, _, _, _, _ =>
    List.nil_subset _
termination_by structural s => s

theorem Stmt.bare_allDefaultNodes_subset (apt : g.Apt) : ∀ (ss : List Stmt) {ss' : List Stmt}
    {frames : Scope} (b : Binders), Stmt.AllLower g frames ss ss' →
      (Stmt.allDefaultNodes reach ss).map Node.bare ⊆ (Stmt.allNodes reach b ss').map Node.bare
  | [], _, _, _, _ => List.nil_subset _
  | s :: ss, _, _, b, ⟨_, _, first, others, h⟩ => by
    rw [h, Stmt.allDefaultNodes, Stmt.allNodes, List.map_append, List.map_append]
    exact List.append_subset.2
      ⟨List.subset_append_of_subset_left _ (Stmt.bare_defaultNodes_subset apt s b first),
        List.subset_append_of_subset_right _ (Stmt.bare_allDefaultNodes_subset apt ss b others)⟩
termination_by structural ss => ss

end

theorem Program.bare_defaultNodes_subset (apt : g.Apt) {program lowered : Program}
    (h : program.Lowers g lowered) :
    (program.defaultNodes reach).map Node.bare ⊆ (lowered.nodes reach).map Node.bare := by
  obtain ⟨-, body, statements, helper⟩ := h
  have kept : ∀ b, (program.defaultNodes reach).map Node.bare
      ⊆ (Stmt.allNodes reach b body).map Node.bare :=
    fun b => Stmt.bare_allDefaultNodes_subset apt program.body b statements
  unfold Program.nodes
  split at helper
  · obtain ⟨text, -, same⟩ := helper
    rw [same]
    exact kept _
  · rw [helper]
    exact kept _

end

/-! ## Programs -/

section
variable {options : Options} {file source : String} {program lowered : Program}

theorem Program.exists_bare_of_mem_defaultNodes (asserts : options.skipAsserts = false)
    (h : (program.lower options).1 = .ok lowered) {reach : Reach} {n : Node}
    (member : n ∈ program.defaultNodes reach) : ∃ m ∈ lowered.nodes reach, m.bare = n.bare := by
  have kept : (program.defaultNodes reach).map Node.bare ⊆ (lowered.nodes reach).map Node.bare :=
    Program.bare_defaultNodes_subset (program.setting_apt asserts) (Program.lowers_setting h)
  exact List.mem_map.1 (kept (List.mem_map_of_mem member))

/-- Every node of a lowered program is a function with its checks, or stood in a default value of the
program. -/
theorem Program.reached_or_default (parsed : Program.parse file source = .ok program)
    (asserts : options.skipAsserts = false) (h : (program.lower options).1 = .ok lowered)
    {reach : Reach} {n : Node} (member : n ∈ lowered.nodes reach) :
    n.reached (program.setting options).helper = true ∨
      ∃ m ∈ program.defaultNodes reach, m.bare = n.bare := by
  have surface := Program.parse_surface parsed
  have apt := program.setting_apt asserts
  have defaults : ∀ m ∈ Stmt.allDefaultNodes reach program.body,
      m.bare ∈ (program.defaultNodes reach).map Node.bare := fun m => List.mem_map_of_mem
  cases Program.arises_of_lowers apt (Program.lowers_setting h) surface (List.Subset.refl _)
    defaults n member with
  | checked checked => exact .inl checked.reached
  | plain plain => exact .inl plain.reached
  | left left => exact .inr (List.mem_map.1 left)

theorem isOk_compile (parsed : Program.parse file source = .ok program)
    (h : (program.lower options).1 = .ok lowered) :
    (compile options file source).isOk = lowered.print.isOk := by
  have printed : (compile options file source).result
      = lowered.print.mapError PrintError.diagnostic := by
    unfold compile Program.compile
    rw [parsed]
    rcases run : program.lower options with ⟨result, journal⟩
    obtain rfl : result = .ok lowered := by rw [← h, run]
    simp only [run]
    rfl
  rw [Outcome.isOk, printed]
  cases lowered.print <;> rfl

/-- Lowering reaches everything outside default values and nothing in them. What it leaves as it was
stands in a default value of the program, so all functions have their checks and no type declaration
is left exactly if no default value holds a type declaration or an annotated parameter; and a program
that is lowered is compiled exactly if no default value that is printed holds a type declaration. -/
theorem Program.reached_of_lower (parsed : Program.parse file source = .ok program)
    (h : (program.lower {}).1 = .ok lowered) :
    (∀ n ∈ lowered.nodes .all, n.reached (program.setting {}).helper = true ∨
      ∃ m ∈ program.defaultNodes .all, m.bare = n.bare) ∧
    ((∀ n ∈ lowered.nodes .all, n.reached (program.setting {}).helper = true) ↔
      ∀ n ∈ program.defaultNodes .all, n.unannotated = true) ∧
    ((TypeGuard.compile {} file source).isOk = true ↔
      ∀ n ∈ program.defaultNodes .printed, n.isFunction = true) := by
  have surface := Program.parse_surface parsed
  have same : ∀ n ∈ program.defaultNodes .all,
      n.reached (program.setting {}).helper = n.unannotated := fun n member =>
    (Stmt.allDefaultNodes_surface .all program.body surface n member).reached_eq
  refine ⟨fun n => Program.reached_or_default parsed rfl h, ⟨?_, ?_⟩, ?_⟩
  · intro reached n member
    obtain ⟨m, found, bare⟩ := Program.exists_bare_of_mem_defaultNodes rfl h member
    rw [← same n member, ← Node.reached_bare, ← bare, Node.reached_bare]
    exact reached m found
  · intro unannotated n member
    obtain reached | ⟨m, found, bare⟩ := Program.reached_or_default parsed rfl h member
    · exact reached
    · rw [← Node.reached_bare, ← bare, Node.reached_bare, same m found]
      exact unannotated m found
  · rw [isOk_compile parsed h, lowered.isOk_print [Stmt.allLocalNames lowered.body],
      List.all_eq_true]
    constructor
    · intro functions n member
      obtain ⟨m, found, bare⟩ := Program.exists_bare_of_mem_defaultNodes rfl h member
      rw [← Node.isFunction_bare, ← bare, Node.isFunction_bare]
      exact functions m found
    · intro functions n member
      obtain reached | ⟨m, found, bare⟩ := Program.reached_or_default parsed rfl h member
      · exact Node.isFunction_of_reached reached
      · rw [← Node.isFunction_bare, ← bare, Node.isFunction_bare]
        exact functions m found

end

/-- A function in a default value, without annotations, and a type declaration and an annotated arrow
function elsewhere. -/
def plainDefault : String :=
  "(program (type Id number) (function f ((default g (function-expr (x) (body)))) (body"
    ++ " (return (arrow ((param y Id)) y)))))"

theorem plainDefault_reached :
    ∃ program lowered, Program.parse "plain" plainDefault = .ok program ∧
      (program.lower {}).1 = .ok lowered ∧
      (∀ n ∈ lowered.nodes .all, n.reached (program.setting {}).helper = true) ∧
      (compile {} "plain" plainDefault).isOk = true := by
  have run : (lowerSource? {} "plain" plainDefault).map (fun (program, _) =>
      ((program.defaultNodes .all).all Node.unannotated,
        (program.defaultNodes .printed).all Node.isFunction)) = some (true, true) := by
    decide +kernel
  obtain ⟨program, lowered, parsed, h, checked⟩ := exists_of_lowerSource? run
  obtain ⟨unannotated, functions⟩ := Prod.mk.inj checked
  obtain ⟨-, reached, compiled⟩ := Program.reached_of_lower parsed h
  exact ⟨program, lowered, parsed, h, reached.2 (List.all_eq_true.1 unannotated),
    compiled.2 (List.all_eq_true.1 functions)⟩

/-- A function in a default value that has an annotated parameter and declares a type. -/
def annotatedDefault : String :=
  "(program (function f ((default x (function-expr ((param y number)) (body (type A number)))))"
    ++ " (body)))"

/-- Of the function, the function in the default value and the type declaration there only the first
is reached, and the program that was lowered cannot be printed. -/
theorem annotatedDefault_not_reached :
    ∃ program lowered, Program.parse "<string>" annotatedDefault = .ok program ∧
      (program.lower {}).1 = .ok lowered ∧
      (lowered.nodes .all).map (Node.reached (program.setting {}).helper) = [true, false, false] ∧
      (compile {} "<string>" annotatedDefault).isOk = false := by
  have run : (lowerSource? {} "<string>" annotatedDefault).map (fun (program, lowered) =>
      ((lowered.nodes .all).map (Node.reached (program.setting {}).helper),
        (compile {} "<string>" annotatedDefault).isOk)) = some ([true, false, false], false) := by
    decide +kernel
  obtain ⟨program, lowered, parsed, h, found⟩ := exists_of_lowerSource? run
  obtain ⟨reached, compiled⟩ := Prod.mk.inj found
  exact ⟨program, lowered, parsed, h, reached, compiled⟩

end TypeGuard
