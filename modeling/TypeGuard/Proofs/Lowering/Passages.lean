import TypeGuard.Proofs.Lowering.Origins
import TypeGuard.Proofs.Script.Passages

/-!
# The passages of lowered programs

Lowering makes no raw text that is printed as a passage, and it drops none. Checks stand on lines of
their own, a checked body with an annotated result moves into an inner function behind the patterns
of the parameters, and the value of an arrow function becomes a statement that returns it. So the
passages of a lowered program are read off the program itself: `Stmt.allPassages_of_allLower`.
-/

namespace TypeGuard

open Script

/-! ## What lowering makes -/

theorem Stmt.allPassages_append (checked : Bool) (ss ss' : List Stmt) :
    Stmt.allPassages checked (ss ++ ss')
      = Stmt.allPassages checked ss ++ Stmt.allPassages checked ss' := by
  induction ss with
  | nil => rfl
  | cons s ss ih => simp [Stmt.allPassages, ih]

/-- An expression that is parenthesised and holds no function holds no passage. -/
theorem Expr.passages_of_nodes {reach : Reach} {b : Binders} {e : Expr}
    (bare : e.nodes reach b = []) (parens : needsParens e = true) : e.passages false true = [] := by
  cases e with
  | function | arrow => simp [Expr.nodes] at bare
  | binary => rfl
  | _ => simp [needsParens] at parens

theorem Expr.passages_ofName (q : QualifiedName) (exposed : Bool) :
    (Expr.ofName q).passages false exposed = [] := by
  have path (names : List String) (e : Expr) (empty : e.passages false exposed = []) :
      (names.foldl .member e).passages false exposed = [] := by
    induction names generalizing e with
    | nil => exact empty
    | cons name names ih => exact ih (.member e name) rfl
  unfold Expr.ofName
  split
  · rfl
  · exact path _ _ rfl

theorem Descriptor.passages_lower {reach : Reach} {b : Binders} {library : Expr}
    (bare : library.nodes reach b = []) {d : Descriptor} (dotted : d.Dotted) (exposed : Bool) :
    (d.lower library).passages false exposed = [] := by
  have called (prop : String) (args : List Expr) :
      (Expr.call (.member library prop) args).passages false exposed = [] := by
    rw [Expr.passages]
    split
    next parens => exact Expr.passages_of_nodes bare parens
    next => rfl
  cases d with
  | reference expr =>
    obtain ⟨q, rfl⟩ := dotted expr (List.mem_singleton_self expr)
    exact Expr.passages_ofName q exposed
  | primitive | enums | extend => rfl
  | _ => exact called _ _

theorem Param.allPassages_innerParams (params : List (Param Pattern Expr)) :
    Param.allPassages (Instrument.innerParams params) = Param.bindingPassages params := by
  induction params with
  | nil => rfl
  | cons param params ih =>
    rw [Param.bindingPassages, ← ih]
    rfl

namespace Setting

variable {g : Setting} {frames : Scope} {signature : Signature Pattern Expr}

theorem ArgumentChecks.passages {own : List String} {arrow : Bool} {index : Nat}
    {params : List (Param Pattern Expr)} {checks : List Stmt}
    (h : g.ArgumentChecks frames own arrow index params checks) :
    Stmt.allPassages false checks = [] := by
  induction h with
  | nil => rfl
  | unchecked _ _ ih => exact ih
  | checked _ _ _ _ ih => exact ih

/-- The passages of a checked body, which may stand in an inner function. -/
theorem Guards.passages {arrow : Bool} {core body : List Stmt}
    (h : g.Guards frames signature arrow core body) :
    (Stmt.allPassages false body).map (Passage.shift 1)
      = Passage.inBody signature.returnType.isSome (Param.bindingPassages signature.params)
        (Stmt.allPassages false core) := by
  obtain ⟨checks, tail, checked, returned, rfl⟩ := h
  rw [Stmt.allPassages_append, checked.passages, List.nil_append]
  unfold Returns at returned
  split at returned
  next untyped =>
    rw [returned, untyped]
    rfl
  next typed =>
    obtain ⟨ctx, descriptor, -, -, -, rfl⟩ := returned
    rw [typed, ← Param.allPassages_innerParams]
    simp [checkedReturn, check, Stmt.allPassages, Stmt.passages, Pattern.passages, Expr.passages,
      needsParens, Passage.inBody]

theorem Bodies.passages {core body : List Stmt} (h : g.Bodies frames signature core body) :
    (Stmt.allPassages false body).map (Passage.shift 1)
      = Passage.inBody (!g.options.skipAsserts && signature.returnType.isSome)
        (Param.bindingPassages signature.params) (Stmt.allPassages false core) := by
  unfold Bodies at h
  split at h
  next skipped =>
    rw [h, skipped]
    rfl
  next asserted =>
    rw [Bool.not_eq_true] at asserted
    rw [h.passages, asserted]
    rfl

/-- The passages of the body of an arrow function, of which `core` is the lowered body without its
checks. -/
theorem ArrowBodies.passages {core body : Body Stmt Expr}
    (h : g.ArrowBodies frames signature core body) (exposed : Bool) :
    Expr.bodyPassages false exposed signature.returnType.isSome
        (Param.bindingPassages signature.params) body
      = if g.options.skipAsserts then Expr.bodyPassages false exposed signature.returnType.isSome
          (Param.bindingPassages signature.params) core
        else Passage.inBody signature.returnType.isSome (Param.bindingPassages signature.params)
          (Stmt.allPassages false (Instrument.statements core)) := by
  unfold ArrowBodies at h
  split at h
  next skipped => rw [h, if_pos skipped]
  next asserted =>
    obtain ⟨stmts, guards, rfl⟩ := h
    rw [if_neg asserted]
    exact guards.passages

end Setting

/-! ## Lowered trees -/

section
variable {g : Setting} {reach : Reach} {b : Binders}

theorem Setting.Defines.passages {frames : Scope} (bare : g.library.nodes reach b = [])
    {site : Site} {name : String} {loc : Location} {s : Stmt}
    (h : g.Defines frames site name loc s) : s.passages false = [] := by
  obtain ⟨d, encoded, -, rfl⟩ := h
  exact Descriptor.passages_lower bare (Site.encode_dotted encoded) false

mutual

theorem Expr.passages_of_lowers (bare : g.library.nodes reach b = []) :
    ∀ (e : Expr) {frames : Scope} {e' : Expr}, Expr.Lowers g frames e e' → ∀ exposed : Bool,
      e'.passages false exposed = e.passages (!g.options.skipAsserts) exposed
  | .function ⟨params, returnType, _⟩ body _ _, _, _, ⟨core, _, lowered, bodies, rfl⟩, _ => by
    have inner := bodies.passages
    have whole := Stmt.allPassages_of_allLower bare body lowered
    rw [whole] at inner
    rw [Expr.passages, Expr.passages, ← inner]
    rfl
  | .arrow ⟨params, returnType, _⟩ (.block stmts) _, _, _,
      ⟨_, _, ⟨core, lowered, rfl⟩, bodies, rfl⟩, exposed => by
    have inner := bodies.passages exposed
    have whole := Stmt.allPassages_of_allLower bare stmts lowered
    rw [Expr.passages, Expr.passages, inner]
    cases skipped : g.options.skipAsserts <;>
      simp [Expr.bodyPassages, Instrument.statements, whole, skipped]
  | .arrow ⟨params, returnType, _⟩ (.expression value) _, _, _,
      ⟨_, _, ⟨core, lowered, rfl⟩, bodies, rfl⟩, exposed => by
    have inner := bodies.passages exposed
    have whole := Expr.passages_of_lowers bare value lowered
    rw [Expr.passages, Expr.passages, inner]
    cases skipped : g.options.skipAsserts <;>
      simp [Expr.bodyPassages, Instrument.statements, Stmt.allPassages, Stmt.passages, whole,
        skipped]
  | .call (.member _ _) _, _, _, ⟨_, _, callee, _, rfl⟩, _ => by
    cases callee
    rfl
  | .call (.function _ _ _ _) _, _, _, ⟨_, _, ⟨_, _, _, _, rfl⟩, _, rfl⟩, _
  | .call (.arrow _ _ _) _, _, _, ⟨_, _, ⟨_, _, _, _, rfl⟩, _, rfl⟩, _
  | .call (.call _ _) _, _, _, ⟨_, _, ⟨_, _, _, _, rfl⟩, _, rfl⟩, _ => rfl
  | .call (.raw _) _, _, _, ⟨_, _, callee, _, rfl⟩, _
  | .call (.ident _) _, _, _, ⟨_, _, callee, _, rfl⟩, _
  | .call .this _, _, _, ⟨_, _, callee, _, rfl⟩, _
  | .call (.string _) _, _, _, ⟨_, _, callee, _, rfl⟩, _
  | .call (.number _) _, _, _, ⟨_, _, callee, _, rfl⟩, _
  | .call (.array _) _, _, _, ⟨_, _, callee, _, rfl⟩, _
  | .call (.object _) _, _, _, ⟨_, _, callee, _, rfl⟩, _
  | .call (.spread _) _, _, _, ⟨_, _, callee, _, rfl⟩, _
  | .call (.binary _ _ _) _, _, _, ⟨_, _, callee, _, rfl⟩, _
  | .call (.stray _) _, _, _, ⟨_, _, callee, _, rfl⟩, _ => by
    cases callee
    rfl
  | .raw _, _, _, h, _ | .ident _, _, _, h, _ | .this, _, _, h, _ | .member _ _, _, _, h, _
  | .string _, _, _, h, _ | .number _, _, _, h, _ | .array _, _, _, h, _ | .object _, _, _, h, _
  | .spread _, _, _, h, _ | .binary _ _ _, _, _, h, _ | .stray _, _, _, h, _ => by
    cases h
    rfl
termination_by structural e => e

theorem Stmt.passages_of_lowers (bare : g.library.nodes reach b = []) :
    ∀ (s : Stmt) {frames : Scope} {s' : Stmt}, Stmt.Lowers g frames s s' →
      s'.passages false = s.passages (!g.options.skipAsserts)
  | .typeAlias _, _, _, h | .interface _, _, _, h => h.passages bare
  | .function _ ⟨params, returnType, _⟩ body _, _, _, ⟨core, _, lowered, bodies, rfl⟩ => by
    have inner := bodies.passages
    rw [Stmt.allPassages_of_allLower bare body lowered] at inner
    rw [Stmt.passages, Stmt.passages, ← inner]
    rfl
  | .var _ _ (some init) _, _, _, ⟨_, lowered, rfl⟩ => by
    rw [Stmt.passages, Stmt.passages, Expr.passages_of_lowers bare init lowered]
  | .exports declaration _, _, _, ⟨_, lowered, rfl⟩ => by
    rw [Stmt.passages, Stmt.passages, Stmt.passages_of_lowers bare declaration lowered]
  | .ret (some argument), _, _, ⟨_, lowered, rfl⟩ => by
    rw [Stmt.passages, Stmt.passages, Expr.passages_of_lowers bare argument lowered]
  | .expr _, _, _, ⟨_, _, rfl⟩ => rfl
  | .block body, _, _, ⟨_, lowered, rfl⟩ => by
    rw [Stmt.passages, Stmt.passages, Stmt.allPassages_of_allLower bare body lowered]
  | .imports _, _, _, h | .var _ _ none _, _, _, h | .ret none, _, _, h | .raw _, _, _, h
  | .stray _, _, _, h => by
    cases h
    rfl
termination_by structural s => s

/-- Lowered statements have the passages of the statements. -/
theorem Stmt.allPassages_of_allLower (bare : g.library.nodes reach b = []) :
    ∀ (ss : List Stmt) {frames : Scope} {ss' : List Stmt}, Stmt.AllLower g frames ss ss' →
      Stmt.allPassages false ss' = Stmt.allPassages (!g.options.skipAsserts) ss
  | [], _, _, h => by
    cases h
    rfl
  | s :: ss, _, _, ⟨_, _, first, others, h⟩ => by
    rw [h, Stmt.allPassages, Stmt.allPassages, Stmt.passages_of_lowers bare s first,
      Stmt.allPassages_of_allLower bare ss others]
termination_by structural ss => ss

end

end

end TypeGuard
