import TypeGuard.Proofs.Descriptor.Names
import TypeGuard.Proofs.Lowering.Shape

/-!
# Erasing the checks

Lowering loses, doubles and reorders nothing: when the helper, the checks of the arguments and the
wrappers around checked results are taken out of a lowered program, what is left is the program
itself, with its type declarations defined and its arrow functions in block form.

Erasure only reads signatures to know how many checks a function starts with and whether its body
is wrapped, so it does not look at what the checks say.
-/

namespace TypeGuard

/-- How many parameters are annotated. -/
def Signature.annotated (signature : Signature Pattern Expr) : Nat :=
  signature.params.countP (·.type.isSome)

/-! ## Erasure -/

mutual

/-- Takes the checks out of the functions of an expression. -/
def Expr.erase : Expr → Expr
  | .function signature body name loc =>
    .function signature
      (Stmt.eraseBody signature.annotated signature.returnType.isSome body) name loc
  | .arrow signature (.block body) loc =>
    .arrow signature
      (.block (Stmt.eraseBody signature.annotated signature.returnType.isSome body)) loc
  | .call callee args => .call callee.erase (Expr.eraseAll args)
  | e => e
termination_by structural e => e

def Expr.eraseAll : List Expr → List Expr
  | [] => []
  | e :: es => e.erase :: Expr.eraseAll es
termination_by structural es => es

/-- Takes the checks out of the functions of a statement. -/
def Stmt.erase : Stmt → Stmt
  | .function name signature body loc =>
    .function name signature
      (Stmt.eraseBody signature.annotated signature.returnType.isSome body) loc
  | .var kind target (some init) loc => .var kind target (some init.erase) loc
  | .exports declaration loc => .exports declaration.erase loc
  | .ret (some argument) => .ret (some argument.erase)
  | .expr expression => .expr expression.erase
  | .block body => .block (Stmt.eraseBody 0 false body)
  | s => s
termination_by structural s => s

/-- Drops the leading checks of a body, and takes it out of its wrapper if it has one. -/
def Stmt.eraseBody (checks : Nat) (wrapped : Bool) : List Stmt → List Stmt
  | [] => []
  | s :: ss =>
    match checks, wrapped with
    | checks + 1, _ => Stmt.eraseBody checks wrapped ss
    | 0, true => Stmt.unwrap s
    | 0, false => s.erase :: Stmt.eraseBody 0 false ss
termination_by structural ss => ss

/-- The body of the inner function that a wrapper calls. -/
def Stmt.unwrap : Stmt → List Stmt
  | .var _ _ (some (.call (.member (.function _ body _ _) _) _)) _ => Stmt.eraseBody 0 false body
  | _ => []
termination_by structural s => s

end

/-- Takes the helper and all checks out of a program lowered with the given options. -/
def Program.erase (options : Options) (program : Program) : Program :=
  { program with
    body := Stmt.eraseBody 0 false
      (if options.injectHelper then program.body.drop 1 else program.body) }

/-! ## Programs with their types defined -/

/-- The body of an arrow function in block form. -/
def Instrument.asBlock (body : Body Stmt Expr) : Body Stmt Expr := .block (statements body)

/-- The constant that holds the validator of a type declaration. A type without a descriptor is
reported at its declaration. -/
def Site.constant (library : Expr) (site : Site) (name : String) (loc : Location) :
    Except Diagnostic Stmt :=
  match site.encode [] with
  | .error e => .error (.ofFault e.fault (some loc))
  | .ok d => .ok (.var .const (.ident name) (some (d.lower library)) loc)

section
variable (form : Body Stmt Expr → Body Stmt Expr) (library : Expr)

mutual

/-- An expression with the type declarations in its functions defined and the bodies of its arrow
functions in the given form. -/
def Expr.define : Expr → Except Diagnostic Expr
  | .function signature body name loc => do
    return .function signature (← Stmt.defineAll body) name loc
  | .arrow signature body loc => do return .arrow signature (form (← Expr.defineBody body)) loc
  | .call callee args => do return .call (← Expr.define callee) (← Expr.defineAll args)
  | e => pure e
termination_by structural e => e

def Expr.defineBody : Body Stmt Expr → Except Diagnostic (Body Stmt Expr)
  | .block stmts => do return .block (← Stmt.defineAll stmts)
  | .expression value => do return .expression (← Expr.define value)
termination_by structural body => body

def Expr.defineAll : List Expr → Except Diagnostic (List Expr)
  | [] => pure []
  | e :: es => do return (← Expr.define e) :: (← Expr.defineAll es)
termination_by structural es => es

/-- A statement with its type declarations defined and the bodies of its arrow functions in the given
form. -/
def Stmt.define : Stmt → Except Diagnostic Stmt
  | .typeAlias decl => Site.constant library (.typeAlias decl) decl.name decl.loc
  | .interface decl => Site.constant library (.interface decl) decl.name decl.loc
  | .function name signature body loc => do
    return .function name signature (← Stmt.defineAll body) loc
  | .var kind target (some init) loc => do return .var kind target (some (← Expr.define init)) loc
  | .exports declaration loc => do return .exports (← Stmt.define declaration) loc
  | .ret (some argument) => do return .ret (some (← Expr.define argument))
  | .expr expression => do return .expr (← Expr.define expression)
  | .block body => do return .block (← Stmt.defineAll body)
  | s => pure s
termination_by structural s => s

def Stmt.defineAll : List Stmt → Except Diagnostic (List Stmt)
  | [] => pure []
  | s :: ss => do return (← Stmt.define s) :: (← Stmt.defineAll ss)
termination_by structural ss => ss

end

/-- A program with its type declarations defined and the bodies of its arrow functions in the given
form. -/
def Program.define (program : Program) : Except Diagnostic Program := do
  return { program with body := ← Stmt.defineAll form library program.body }

end

/-- A program with its type declarations defined and its arrow functions in block form. -/
def Program.plain (library : Expr) (program : Program) : Except Diagnostic Program :=
  program.define Instrument.asBlock library

/-! ## Types and checks under erasure -/

theorem Expr.eraseAll_eq_map (es : List Expr) : Expr.eraseAll es = es.map Expr.erase := by
  induction es with
  | nil => rfl
  | cons e es ih => simp [Expr.eraseAll, ih]

theorem Expr.erase_path {e : Expr} (h : e.erase = e) (path : List String) :
    (path.foldl .member e).erase = path.foldl .member e := by
  induction path generalizing e with
  | nil => exact h
  | cons part path ih => exact ih rfl

theorem Expr.erase_ofName (q : QualifiedName) : (Expr.ofName q).erase = .ofName q := by
  unfold Expr.ofName
  split
  · rfl
  · exact Expr.erase_path rfl _

namespace Descriptor

-- The library itself may be any expression: it only stands before a dot, where nothing is erased.
theorem erase_combine (library : Expr) (part : String) (path : List String) {args : List Expr}
    (h : ∀ e ∈ args, e.erase = e) (name : Option String) :
    (combine library (part :: path) args name).erase
      = combine library (part :: path) args name := by
  have callee : (path.foldl Expr.member (.member library part)).erase
      = path.foldl .member (.member library part) := Expr.erase_path rfl path
  have kept : ∀ e ∈ args ++ name.toList.map Expr.string, e.erase = e := by
    intro e he
    obtain he | he := List.mem_append.1 he
    · exact h e he
    · obtain ⟨text, -, rfl⟩ := List.mem_map.1 he
      rfl
  rw [combine, List.foldl_cons, Expr.erase, callee, Expr.eraseAll_eq_map,
    List.map_congr_left kept, List.map_id']

/-- There is nothing to erase in the validator of a type. -/
theorem erase_lower (library : Expr) :
    ∀ d : Descriptor, d.Dotted → (d.lower library).erase = d.lower library
  | .reference expr, dotted => by
    obtain ⟨q, rfl⟩ := dotted expr (List.mem_singleton_self expr)
    exact Expr.erase_ofName q
  | .primitive _, _ => rfl
  | .list element _, dotted | .maybe element _, dotted => by
    refine erase_combine library _ _ ?_ _
    simpa using erase_lower library element dotted
  | .dict domain codomain _, dotted => by
    refine erase_combine library _ _ ?_ _
    simpa using
      And.intro (erase_lower library domain fun e he => dotted e (List.mem_append_left _ he))
        (erase_lower library codomain fun e he => dotted e (List.mem_append_right _ he))
  | .refinement base predicate _, dotted => by
    refine erase_combine library _ _ ?_ _
    obtain ⟨q, rfl⟩ := dotted predicate (List.mem_append_right _ (List.mem_singleton_self _))
    simpa using
      And.intro (erase_lower library base fun e he => dotted e (List.mem_append_left _ he))
        (Expr.erase_ofName q)
  | .tuple _ _, _ | .union _ _, _ | .enums _ _, _ | .intersection _ _, _ | .interface _ _, _
  | .extend _ _ _, _ | .literal _ _, _ => by
    refine erase_combine library _ _ ?_ _
    simp [Expr.erase, equalsPredicate, Signature.annotated, Stmt.eraseBody, Stmt.erase]
termination_by structural d => d

end Descriptor

theorem Stmt.eraseBody_eq_map (ss : List Stmt) : Stmt.eraseBody 0 false ss = ss.map Stmt.erase := by
  induction ss with
  | nil => rfl
  | cons s ss ih => simp [Stmt.eraseBody, ih]

theorem Site.encode_dotted {site : Site} {d : Descriptor} (h : site.encode [] = .ok d) :
    d.Dotted := by
  cases site with
  | param own type optional =>
    simp only [Site.encode, Instrument.paramDescriptor, bind_eq_ok_iff, pure_eq_ok_iff] at h
    obtain ⟨inner, mapped, rfl⟩ := h
    have dotted : inner.Dotted := Ty.descriptor_induction (Ty.dotted_rules _) mapped
    split
    · exact dotted
    · exact dotted
  | result own type => exact Ty.descriptor_induction (Ty.dotted_rules _) h
  | typeAlias decl => exact TypeAlias.descriptor_dotted h
  | interface decl => exact InterfaceDecl.descriptor_dotted h

theorem Stmt.eraseBody_checks (checks tail : List Stmt) (wrapped : Bool) :
    Stmt.eraseBody checks.length wrapped (checks ++ tail) = Stmt.eraseBody 0 wrapped tail := by
  induction checks with
  | nil => rfl
  | cons check checks ih => exact ih

namespace Setting

variable {g : Setting} {frames : Scope} {signature : Signature Pattern Expr}

theorem ArgumentChecks.length_eq {own : List String} {arrow : Bool} {index : Nat}
    {params : List (Param Pattern Expr)} {checks : List Stmt}
    (h : g.ArgumentChecks frames own arrow index params checks) :
    checks.length = params.countP (·.type.isSome) := by
  induction h with
  | nil => rfl
  | unchecked untyped _ ih => simpa [untyped] using ih
  | checked typed _ _ _ ih => simpa [typed] using ih

theorem Returns.erase {core tail : List Stmt} (h : g.Returns frames signature core tail) :
    Stmt.eraseBody 0 signature.returnType.isSome tail = Stmt.eraseBody 0 false core := by
  unfold Returns at h
  split at h
  next unannotated => rw [h, unannotated, Option.isSome_none]
  next annotated =>
    obtain ⟨_, _, -, -, -, rfl⟩ := h
    rw [annotated, Option.isSome_some]
    rfl

theorem Guards.erase {arrow : Bool} {core body : List Stmt}
    (h : g.Guards frames signature arrow core body) :
    Stmt.eraseBody signature.annotated signature.returnType.isSome body
      = Stmt.eraseBody 0 false core := by
  obtain ⟨checks, tail, checked, returned, rfl⟩ := h
  rw [Signature.annotated, ← checked.length_eq, Stmt.eraseBody_checks, returned.erase]

end Setting

/-! ## What is left without the checks -/

/-- The expression without the checks of a lowering. Where functions stay as they are there are
none. -/
def Expr.cleared (skip : Bool) : Expr → Expr := if skip then id else Expr.erase

@[inherit_doc Expr.cleared]
def Stmt.cleared (skip : Bool) : Stmt → Stmt := if skip then id else Stmt.erase

/-- The body of a function without its checks. -/
def Signature.cleared (skip : Bool) (signature : Signature Pattern Expr) (body : List Stmt) :
    List Stmt :=
  if skip then body else Stmt.eraseBody signature.annotated signature.returnType.isSome body

def Expr.bodyCleared (skip : Bool) : Body Stmt Expr → Body Stmt Expr
  | .block stmts => .block (stmts.map (Stmt.cleared skip))
  | .expression value => .expression (value.cleared skip)

section
variable (skip : Bool)

theorem Expr.cleared_function (signature : Signature Pattern Expr) (body : List Stmt)
    (name : Option String) (loc : Location) :
    (Expr.function signature body name loc).cleared skip
      = .function signature (signature.cleared skip body) name loc := by
  cases skip <;> rfl

theorem Expr.cleared_call (callee : Expr) (args : List Expr) :
    (Expr.call callee args).cleared skip
      = .call (callee.cleared skip) (args.map (Expr.cleared skip)) := by
  cases skip <;> simp [Expr.cleared, Expr.erase, Expr.eraseAll_eq_map]

theorem Stmt.cleared_function (name : String) (signature : Signature Pattern Expr)
    (body : List Stmt) (loc : Location) :
    (Stmt.function name signature body loc).cleared skip
      = .function name signature (signature.cleared skip body) loc := by
  cases skip <;> rfl

theorem Stmt.cleared_var (kind : VarKind) (target : Pattern) (init : Expr) (loc : Location) :
    (Stmt.var kind target (some init) loc).cleared skip
      = .var kind target (some (init.cleared skip)) loc := by
  cases skip <;> rfl

theorem Stmt.cleared_exports (declaration : Stmt) (loc : Location) :
    (Stmt.exports declaration loc).cleared skip = .exports (declaration.cleared skip) loc := by
  cases skip <;> rfl

theorem Stmt.cleared_ret (argument : Expr) :
    (Stmt.ret (some argument)).cleared skip = .ret (some (argument.cleared skip)) := by
  cases skip <;> rfl

theorem Stmt.cleared_expr (expression : Expr) :
    (Stmt.expr expression).cleared skip = .expr (expression.cleared skip) := by
  cases skip <;> rfl

theorem Stmt.cleared_block (body : List Stmt) :
    (Stmt.block body).cleared skip = .block (body.map (Stmt.cleared skip)) := by
  cases skip <;> simp [Stmt.cleared, Stmt.erase, Stmt.eraseBody_eq_map]

end

namespace Setting

variable {g : Setting} {frames : Scope} {signature : Signature Pattern Expr}

/-- The form that the bodies of arrow functions get: a checked body is a block. -/
def form (g : Setting) : Body Stmt Expr → Body Stmt Expr :=
  if g.options.skipAsserts then id else Instrument.asBlock

theorem Bodies.cleared {core body : List Stmt} (h : g.Bodies frames signature core body) :
    signature.cleared g.options.skipAsserts body
      = core.map (Stmt.cleared g.options.skipAsserts) := by
  unfold Bodies at h
  cases skipped : g.options.skipAsserts with
  | true =>
    rw [if_pos skipped] at h
    simp [Signature.cleared, Stmt.cleared, h]
  | false =>
    rw [if_neg (by simp [skipped])] at h
    exact h.erase.trans (Stmt.eraseBody_eq_map core)

theorem ArrowBodies.cleared {core body : Body Stmt Expr}
    (h : g.ArrowBodies frames signature core body) (loc : Location) :
    (Expr.arrow signature body loc).cleared g.options.skipAsserts
      = .arrow signature (g.form (Expr.bodyCleared g.options.skipAsserts core)) loc := by
  unfold ArrowBodies at h
  unfold form
  cases skipped : g.options.skipAsserts with
  | true =>
    rw [if_pos skipped] at h
    rw [h]
    cases core <;> simp [Expr.cleared, Expr.bodyCleared, Stmt.cleared]
  | false =>
    rw [if_neg (by simp [skipped])] at h
    obtain ⟨stmts, guarded, rfl⟩ := h
    change Expr.arrow signature (.block (Stmt.eraseBody _ _ stmts)) loc = _
    rw [guarded.erase, Stmt.eraseBody_eq_map]
    cases core <;> rfl

theorem Defines.cleared {site : Site} {name : String} {loc : Location} {s : Stmt}
    (h : g.Defines frames site name loc s) :
    Site.constant g.library site name loc = .ok (s.cleared g.options.skipAsserts) := by
  obtain ⟨d, mapped, -, rfl⟩ := h
  rw [Site.constant, mapped, Stmt.cleared_var]
  cases g.options.skipAsserts with
  | true => rfl
  | false =>
    have kept : (d.lower g.library).cleared false = d.lower g.library :=
      Descriptor.erase_lower g.library d (Site.encode_dotted mapped)
    rw [kept]

end Setting

/-! ## Erasure undoes lowering -/

section
variable {g : Setting}

mutual

-- By recursion on the source: the lowered tree has more functions than the source, and the inner
-- ones must not be taken for functions with a source of their own.
theorem Expr.define_of_lowers (frames : Scope) :
    ∀ (e : Expr) {e' : Expr}, Expr.Lowers g frames e e' →
      Expr.define g.form g.library e = .ok (e'.cleared g.options.skipAsserts)
  | .function signature body name loc, _, h => by
    obtain ⟨core, body', lowered, bodies, rfl⟩ := h
    rw [Expr.define, Stmt.defineAll_of_allLower _ body lowered, Expr.cleared_function,
      bodies.cleared]
    rfl
  | .arrow signature body loc, _, h => by
    obtain ⟨core, body', lowered, bodies, rfl⟩ := h
    rw [Expr.define, Expr.defineBody_of_bodyLowers _ body lowered, bodies.cleared]
    rfl
  | .call callee args, _, h => by
    obtain ⟨callee', args', hcallee, hargs, rfl⟩ := h
    rw [Expr.define, Expr.define_of_lowers frames callee hcallee,
      Expr.defineAll_of_allLower frames args hargs, Expr.cleared_call]
    rfl
  | .raw _, _, h | .ident _, _, h | .this, _, h | .member _ _, _, h | .string _, _, h
  | .number _, _, h | .array _, _, h | .object _, _, h | .spread _, _, h | .binary _ _ _, _, h
  | .stray _, _, h => by
    cases h
    cases g.options.skipAsserts <;> rfl
termination_by structural e => e

theorem Expr.defineBody_of_bodyLowers (frames : Scope) :
    ∀ (body : Body Stmt Expr) {body' : Body Stmt Expr}, Expr.BodyLowers g frames body body' →
      Expr.defineBody g.form g.library body
        = .ok (Expr.bodyCleared g.options.skipAsserts body')
  | .block stmts, _, h => by
    obtain ⟨stmts', lowered, rfl⟩ := h
    rw [Expr.defineBody, Stmt.defineAll_of_allLower frames stmts lowered]
    rfl
  | .expression value, _, h => by
    obtain ⟨value', lowered, rfl⟩ := h
    rw [Expr.defineBody, Expr.define_of_lowers frames value lowered]
    rfl
termination_by structural body => body

theorem Expr.defineAll_of_allLower (frames : Scope) :
    ∀ (es : List Expr) {es' : List Expr}, Expr.AllLower g frames es es' →
      Expr.defineAll g.form g.library es = .ok (es'.map (Expr.cleared g.options.skipAsserts))
  | [], _, h => by
    cases h
    rfl
  | e :: es, _, h => by
    obtain ⟨e', rest, he, hes, rfl⟩ := h
    rw [Expr.defineAll, Expr.define_of_lowers frames e he,
      Expr.defineAll_of_allLower frames es hes]
    rfl
termination_by structural es => es

theorem Stmt.define_of_lowers (frames : Scope) :
    ∀ (s : Stmt) {s' : Stmt}, Stmt.Lowers g frames s s' →
      Stmt.define g.form g.library s = .ok (s'.cleared g.options.skipAsserts)
  | .typeAlias decl, _, h => Setting.Defines.cleared h
  | .interface decl, _, h => Setting.Defines.cleared h
  | .function name signature body loc, _, h => by
    obtain ⟨core, body', lowered, bodies, rfl⟩ := h
    rw [Stmt.define, Stmt.defineAll_of_allLower _ body lowered, Stmt.cleared_function,
      bodies.cleared]
    rfl
  | .var kind target (some init) loc, _, h => by
    obtain ⟨init', lowered, rfl⟩ := h
    rw [Stmt.define, Expr.define_of_lowers frames init lowered, Stmt.cleared_var]
    rfl
  | .exports declaration loc, _, h => by
    obtain ⟨declaration', lowered, rfl⟩ := h
    rw [Stmt.define, Stmt.define_of_lowers frames declaration lowered, Stmt.cleared_exports]
    rfl
  | .ret (some argument), _, h => by
    obtain ⟨argument', lowered, rfl⟩ := h
    rw [Stmt.define, Expr.define_of_lowers frames argument lowered, Stmt.cleared_ret]
    rfl
  | .expr expression, _, h => by
    obtain ⟨expression', lowered, rfl⟩ := h
    rw [Stmt.define, Expr.define_of_lowers frames expression lowered, Stmt.cleared_expr]
    rfl
  | .block body, _, h => by
    obtain ⟨body', lowered, rfl⟩ := h
    rw [Stmt.define, Stmt.defineAll_of_allLower frames body lowered, Stmt.cleared_block]
    rfl
  | .var _ _ none _, _, h | .ret none, _, h | .raw _, _, h | .imports _, _, h
  | .stray _, _, h => by
    cases h
    cases g.options.skipAsserts <;> rfl
termination_by structural s => s

theorem Stmt.defineAll_of_allLower (frames : Scope) :
    ∀ (ss : List Stmt) {ss' : List Stmt}, Stmt.AllLower g frames ss ss' →
      Stmt.defineAll g.form g.library ss = .ok (ss'.map (Stmt.cleared g.options.skipAsserts))
  | [], _, h => by
    cases h
    rfl
  | s :: ss, _, h => by
    obtain ⟨s', rest, hs, hss, rfl⟩ := h
    rw [Stmt.defineAll, Stmt.define_of_lowers frames s hs, Stmt.defineAll_of_allLower frames ss hss]
    rfl
termination_by structural ss => ss

end

/-- Behind the helper stands the program with its types defined, once the checks are cleared. -/
theorem Program.define_of_lowers {program lowered : Program} (h : program.Lowers g lowered) :
    program.define g.form g.library = .ok { lowered with
      body := (if g.options.injectHelper then lowered.body.drop 1 else lowered.body).map
        (Stmt.cleared g.options.skipAsserts) } := by
  obtain ⟨file, body, all, front⟩ := h
  have dropped : (if g.options.injectHelper then lowered.body.drop 1 else lowered.body) = body := by
    split at front
    next injected =>
      obtain ⟨text, -, same⟩ := front
      rw [if_pos injected, same, List.drop_one, List.tail_cons]
    next left => rw [if_neg left, front]
  rw [Program.define, dropped, file, Stmt.defineAll_of_allLower [] _ all]
  rfl

theorem Program.plain_of_lowers {program lowered : Program} (h : program.Lowers g lowered)
    (asserted : g.options.skipAsserts = false) :
    program.plain g.library = .ok (lowered.erase g.options) := by
  have defined := Program.define_of_lowers h
  rw [Setting.form, asserted] at defined
  rw [Program.erase, Stmt.eraseBody_eq_map]
  exact defined

end

/-- Lowering only adds. Every function of a lowered program has its signature and exactly its checks
around its body, and without the checks the program is what it was, with its type declarations
defined and its arrow functions in block form. -/
theorem Program.plain_eq_erase_of_lower {options : Options} {program lowered : Program}
    (asserted : options.skipAsserts = false) (h : (program.lower options).1 = .ok lowered) :
    ∃ helper library,
      program.Lowers { options, helper, library, reserved := program.declaredNames } lowered ∧
      program.plain library = .ok (lowered.erase options) := by
  obtain ⟨helper, library, shape⟩ := Program.lowers_of_lower h
  exact ⟨helper, library, shape, Program.plain_of_lowers shape asserted⟩

/-- A generic function with checks on both sides, around a type and an arrow function. -/
def nestedChecks : Program where
  body := [.exports (.function "outer"
    { params := [{ binding := .ident "x", type := some (.primitive .number .unknown) },
        { binding := .ident "y" },
        { binding := .object [⟨"key", .ident "z"⟩] none
          type := some (.named { name := ⟨["Entry"]⟩ }), optional := true }]
      returnType := some (.array (.primitive .string .unknown) .unknown)
      typeParams := ["T"] }
    [.typeAlias { name := "Pair", right := .tuple [.named { name := ⟨["T"]⟩ }] .unknown },
      .expr (.call (.ident "visit")
        [.arrow
          { params := [{ binding := .ident "w", type := some (.named { name := ⟨["Pair"]⟩ }) }]
            returnType := some (.primitive .void .unknown) }
          (.expression (.raw "w.close()")) .unknown]),
      .ret (some (.raw "[x, z]"))] .unknown) .unknown]

theorem nestedChecks_plain_eq_erase : ∃ lowered, (nestedChecks.lower {}).1 = .ok lowered ∧
    ∃ helper library,
      nestedChecks.Lowers { helper, library, options := {}, reserved := nestedChecks.declaredNames }
        lowered ∧
      nestedChecks.plain library = .ok (lowered.erase {}) :=
  ⟨_, rfl, Program.plain_eq_erase_of_lower rfl rfl⟩

end TypeGuard
