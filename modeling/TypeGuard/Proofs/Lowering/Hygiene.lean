import TypeGuard.Proofs.Lowering.Origins

/-!
# Inserted names

Lowering adds two kinds of names to a program: the helper, one for the module, and in each function
whose result is checked a name for the result. `Program.hygienic_of_lower` says what they refer to
in the lowered program: every call of the helper reaches the module, past all functions around it,
and every use of a result reaches the declaration in its own function.
-/

namespace TypeGuard

/-- The statement is a call of the assertion helper. -/
def Stmt.isCheck (helper : String) : Stmt → Bool
  | .expr (.call (.ident name) [_, _, .string _]) => name == helper
  | _ => false

/-- The names bound in the module of a lowered program. The helper is raw text there. -/
def Setting.moduleNames (g : Setting) (lowered : Program) : List String :=
  (if g.options.injectHelper then [g.helper] else []) ++ Stmt.allLocalNames lowered.body

/-- The statements behind the checks of the arguments declare a result, check it and return it. The
name of the result is that of nothing else: not of the helper or a parameter, not one of `names`, and
not of another local; and where it is used, it refers to its declaration. -/
def Setting.ResultIsLocal (g : Setting) (names : List String) (binders : Binders)
    (signature : Signature Pattern Expr) (body tail : List Stmt) : Prop :=
  ∃ result call type,
    tail = [.var .const (.ident result) (some call) .unknown,
      .expr (.call (.ident g.helper) [.ident result, type, .string returnLabel]),
      .ret (some (.ident result))] ∧
    result ≠ g.helper ∧ result ∉ signature.boundNames ∧ result ∉ names ∧
    (Stmt.allLocalNames body).count result = 1 ∧ binders.resolve result = some 0

/-- All that is inserted in a function refers to what it is meant to. The checks call the helper of
the module, which is the outermost frame, or a helper from outside if none is wanted there. -/
structure Setting.Hygienic (g : Setting) (names : List String) (outer : Binders) (own : List String)
    (signature : Signature Pattern Expr) (body : List Stmt) : Prop where
  helper : (bodyBinders outer own signature body).resolve g.helper
    = if g.options.injectHelper then some (outer.length + 2) else none
  inserted : ∃ checks tail, body = checks ++ tail ∧ checks.length = signature.annotated ∧
    (∀ s ∈ checks, s.isCheck g.helper) ∧
    match signature.returnType with
    | none => ∀ e, .expr e ∉ tail
    | some _ => g.ResultIsLocal names (bodyBinders outer own signature body) signature body tail

/-! ## Frames -/

theorem Binders.resolve_cons_mem {binders : Binders} {frame : List String} {name : String}
    (h : name ∈ frame) : Binders.resolve (frame :: binders) name = some 0 := by
  simp [Binders.resolve, List.findIdx?_cons, h]

theorem Binders.resolve_append {inner : Binders} {module : List String} {name : String}
    (h : ∀ frame ∈ inner, name ∉ frame) :
    Binders.resolve (inner ++ [module]) name
      = if name ∈ module then some inner.length else none := by
  have passed : inner.findIdx? (·.contains name) = none := by
    simpa [List.findIdx?_eq_none_iff] using h
  rw [Binders.resolve, List.findIdx?_append, passed]
  by_cases member : name ∈ module <;> simp [List.findIdx?_cons, member]

namespace Setting

variable {g : Setting} {module names : List String} {frames : Scope} {outer : Binders}
  {own : List String} {signature : Signature Pattern Expr} {arrow : Bool}
  {checks core tail body : List Stmt}

theorem Clear.resolve {b : Binders} (h : g.Clear module b) :
    b.resolve g.helper = if g.helper ∈ module then some (b.length - 1) else none := by
  obtain ⟨inner, rfl, clear⟩ := h
  rw [Binders.resolve_append clear, List.length_append, List.length_singleton, Nat.add_sub_cancel]

theorem ArgumentChecks.isCheck {index : Nat} {params : List (Param Pattern Expr)}
    (h : g.ArgumentChecks frames own arrow index params checks) :
    ∀ s ∈ checks, s.isCheck g.helper := by
  induction h with
  | nil => simp
  | unchecked _ _ ih => exact ih
  | checked _ _ _ _ ih => exact List.forall_mem_cons.2 ⟨BEq.rfl, ih⟩

theorem Returns.resultIsLocal (apt : g.Apt) (h : g.Returns frames signature core tail)
    (quiet : ∀ e, Stmt.expr e ∉ core) (checked : Stmt.allLocalNames checks = [])
    (reserved : names ⊆ g.reserved) (outer : Binders) (own : List String) :
    match signature.returnType with
    | none => ∀ e, .expr e ∉ tail
    | some _ => g.ResultIsLocal names (bodyBinders outer own signature (checks ++ tail)) signature
        (checks ++ tail) tail := by
  cases annotated : signature.returnType with
  | none =>
    simp only [Returns, annotated] at h
    rw [h]
    exact quiet
  | some type =>
    simp only [Returns, annotated] at h
    obtain ⟨ctx, d, taken, -, -, rfl⟩ := h
    have fresh := ctx.freshLocal_not_mem "ret" signature.boundNames
    rw [List.mem_append, not_or] at fresh
    have locals : Stmt.allLocalNames (checks ++ g.checkedReturn signature
        (ctx.freshLocal "ret" signature.boundNames) d core)
          = [ctx.freshLocal "ret" signature.boundNames] := by
      rw [Stmt.allLocalNames_append, checked]
      rfl
    refine ⟨_, _, _, rfl, apt.freshLocal_ne_helper _ _, fresh.2, ?_, ?_, ?_⟩
    · exact fun member => fresh.1 (taken (reserved member))
    · rw [locals, List.count_singleton_self]
    · rw [bodyBinders, locals]
      exact Binders.resolve_cons_mem (List.mem_singleton_self _)

/-- A function with its checks is hygienic. -/
theorem Checked.hygienic (apt : g.Apt) (h : g.Checked module outer own signature core body)
    (injected : g.helper ∈ module ↔ g.options.injectHelper) (reserved : names ⊆ g.reserved) :
    g.Hygienic names outer own signature body := by
  obtain ⟨frames, arrow, checks, tail, checked, returned, rfl⟩ := h.guards
  refine ⟨?_, checks, tail, rfl, checked.length_eq, checked.isCheck,
    returned.resultIsLocal apt h.quiet checked.allLocalNames_eq_nil reserved _ _⟩
  have clear : g.Clear module (bodyBinders outer own signature (checks ++ tail)) := h.clear apt
  rw [clear.resolve]
  simp [injected, bodyBinders]

end Setting

/-! ## Programs -/

theorem Stmt.expr_not_mem_of_allSurface (e : Expr) {ss : List Stmt} (h : Stmt.AllSurface ss) :
    Stmt.expr e ∉ ss := by
  induction ss with
  | nil => simp
  | cons s ss ih =>
    rw [List.mem_cons, not_or]
    refine ⟨?_, ih h.2⟩
    rintro rfl
    exact h.1

/-- The statements of a lowered module bind what the statements of the program bind, and none of them
is a check. -/
theorem Program.body_of_lowers {g : Setting} {program lowered : Program}
    (h : program.Lowers g lowered) (surface : Stmt.AllSurface program.body) :
    Stmt.allLocalNames lowered.body = Stmt.allLocalNames program.body ∧
      ∀ e, .expr e ∉ lowered.body := by
  obtain ⟨-, body, statements, helper⟩ := h
  have names := Stmt.allLocalNames_of_allLower program.body statements
  have quiet e := Stmt.expr_not_mem_of_allLower e program.body statements surface
  split at helper
  · obtain ⟨text, -, same⟩ := helper
    rw [same]
    exact ⟨names, fun e member => quiet e (by simpa using member)⟩
  · rw [helper]
    exact ⟨names, quiet⟩

/-- The names that lowering adds are hygienic. The helper is bound once in the module, or not at all
if it is not wanted there; no statement of the module is a check; and in every function of the
lowered program, wherever it stands, the checks and the result refer to what they are meant to. -/
theorem Program.hygienic_of_lower {options : Options} {file source : String}
    {program lowered : Program} (parsed : Program.parse file source = .ok program)
    (asserts : options.skipAsserts = false) (h : (program.lower options).1 = .ok lowered) :
    program.Lowers (program.setting options) lowered ∧
    (((program.setting options).moduleNames lowered).count (program.setting options).helper
      = if options.injectHelper then 1 else 0) ∧
    (∀ e, .expr e ∉ lowered.body) ∧
    ∀ outer own signature body,
      .function outer own signature body ∈
        Stmt.allNodes .all [(program.setting options).moduleNames lowered] lowered.body →
      (∃ e, .expr e ∈ body) →
      (program.setting options).Hygienic program.boundNames outer own signature body := by
  have surface := Program.parse_surface parsed
  have lowers := Program.lowers_setting h
  have apt := Program.setting_apt asserts program
  obtain ⟨locals, quiet⟩ := Program.body_of_lowers lowers surface
  have free : (program.setting options).helper ∉ Stmt.allLocalNames lowered.body := by
    rw [locals]
    exact apt.helper_not_mem (Stmt.allLocalNames_subset program.body)
  have injected : (program.setting options).helper ∈ (program.setting options).moduleNames lowered ↔
      (program.setting options).options.injectHelper := by
    unfold Setting.moduleNames
    split <;> simp_all
  refine ⟨lowers, ?_, quiet, ?_⟩
  · have once := List.count_eq_zero.2 free
    unfold Setting.moduleNames
    rw [List.count_append, once]
    change List.count _ (if options.injectHelper then _ else _) + 0 = _
    split <;> simp
  · rintro outer own signature body found ⟨e, inserted⟩
    -- A function that was read, and one that lowering adds, has no expression statement.
    have left : ∀ n ∈ Stmt.allDefaultNodes .all program.body, n.bare.Surface := by
      intro n member
      have read := Stmt.allDefaultNodes_surface .all program.body surface n member
      cases n <;> exact read
    cases Program.arises_of_lowers apt lowers surface (List.Subset.refl _) left _ found with
    | checked checked => exact checked.hygienic apt injected (Program.boundNames_subset surface)
    | plain plain => exact absurd inserted (plain.2.2 e)
    | left read => exact absurd inserted (Stmt.expr_not_mem_of_allSurface e read)

/-- Two functions with checked results, one in the other, in a file that uses the first names for the
helper and for results itself. -/
def nestedResults : String :=
  "(program (const _assert 1) (function f ((param _ret number)) (returns number) (body"
    ++ " (return (arrow ((param x string)) (returns string) (body (return x)))))))"

theorem nestedResults_hygienic :
    ∃ program lowered, Program.parse "nested" nestedResults = .ok program ∧
      (program.lower {}).1 = .ok lowered ∧ (program.setting {}).helper = "_assert2" ∧
      ((program.setting {}).moduleNames lowered).count "_assert2" = 1 ∧
      ∀ outer own signature body,
        .function outer own signature body ∈
          Stmt.allNodes .all [(program.setting {}).moduleNames lowered] lowered.body →
        (∃ e, .expr e ∈ body) →
        (program.setting {}).Hygienic program.boundNames outer own signature body := by
  have run : (lowerSource? {} "nested" nestedResults).map
      (fun (program, _) => (program.setting {}).helper) = some "_assert2" := by decide +kernel
  obtain ⟨program, lowered, parsed, h, helper⟩ := exists_of_lowerSource? run
  obtain ⟨-, once, -, functions⟩ := Program.hygienic_of_lower parsed rfl h
  exact ⟨program, lowered, parsed, h, helper, helper ▸ once, functions⟩

end TypeGuard
