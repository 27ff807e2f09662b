import TypeGuard.Proofs.Lowering.Failures
import TypeGuard.Proofs.Script.Output

/-!
# The switches of the compiler

The two switches only leave something out. Without the helper the code is what stands behind the
helper otherwise. Without checks the type declarations of the program are defined and everything else
is as it was. `Program.compile_switches` says both, for programs that fail too.
-/

namespace TypeGuard

/-! ## Only the checks are switched inside statements -/

section
variable {first second : Options}

theorem checkedBody_congr (same : first.skipAsserts = second.skipAsserts)
    (signature : Signature Pattern Expr) (body : List Stmt) (loc : Location) :
    checkedBody first signature body loc = checkedBody second signature body loc := by
  unfold checkedBody
  rw [same]

theorem checkedArrowBody_congr (same : first.skipAsserts = second.skipAsserts)
    (signature : Signature Pattern Expr) (body : Body Stmt Expr) (loc : Location) :
    checkedArrowBody first signature body loc = checkedArrowBody second signature body loc := by
  unfold checkedArrowBody
  rw [same]

mutual

theorem Expr.lower_congr (same : first.skipAsserts = second.skipAsserts) : ∀ e : Expr,
    Expr.lower first e = Expr.lower second e
  | .function signature body name loc => by
    simp only [Expr.lower, Stmt.lowerAll_congr same body, checkedBody_congr same]
  | .arrow signature body loc => by
    simp only [Expr.lower, Expr.lowerBody_congr same body, checkedArrowBody_congr same]
  | .call callee args => by
    simp only [Expr.lower, Expr.lower_congr same callee, Expr.lowerAll_congr same args]
  | .raw _ | .ident _ | .this | .member _ _ | .string _ | .number _ | .array _ | .object _
  | .spread _ | .binary _ _ _ | .stray _ => by simp only [Expr.lower]
termination_by structural e => e

theorem Expr.lowerBody_congr (same : first.skipAsserts = second.skipAsserts) :
    ∀ body : Body Stmt Expr, Expr.lowerBody first body = Expr.lowerBody second body
  | .block stmts => by simp only [Expr.lowerBody, Stmt.lowerAll_congr same stmts]
  | .expression value => by simp only [Expr.lowerBody, Expr.lower_congr same value]
termination_by structural body => body

theorem Expr.lowerAll_congr (same : first.skipAsserts = second.skipAsserts) : ∀ es : List Expr,
    Expr.lowerAll first es = Expr.lowerAll second es
  | [] => by simp only [Expr.lowerAll]
  | e :: es => by
    simp only [Expr.lowerAll, Expr.lower_congr same e, Expr.lowerAll_congr same es]
termination_by structural es => es

theorem Stmt.lower_congr (same : first.skipAsserts = second.skipAsserts) (topLevel : Bool) :
    ∀ s : Stmt, Stmt.lower first topLevel s = Stmt.lower second topLevel s
  | .function name signature body loc => by
    simp only [Stmt.lower, Stmt.lowerAll_congr same body, checkedBody_congr same]
  | .var kind target (some init) loc => by
    simp only [Stmt.lower_var_some, Expr.lower_congr same init]
  | .exports declaration _ => by simp only [Stmt.lower, Stmt.lower_congr same topLevel declaration]
  | .ret (some argument) => by simp only [Stmt.lower, Expr.lower_congr same argument]
  | .expr expression => by simp only [Stmt.lower, Expr.lower_congr same expression]
  | .block body => by simp only [Stmt.lower, Stmt.lowerAll_congr same body]
  | .typeAlias _ | .interface _ | .imports _ | .var _ _ none _ | .ret none | .raw _
  | .stray _ => by simp only [Stmt.lower]
termination_by structural s => s

theorem Stmt.lowerAll_congr (same : first.skipAsserts = second.skipAsserts) : ∀ ss : List Stmt,
    Stmt.lowerAll first ss = Stmt.lowerAll second ss
  | [] => by simp only [Stmt.lowerAll]
  | s :: ss => by
    simp only [Stmt.lowerAll, Stmt.lower_congr same false s, Stmt.lowerAll_congr same ss]
termination_by structural ss => ss

end

theorem Stmt.lowerTop_congr (same : first.skipAsserts = second.skipAsserts) (ss : List Stmt) :
    Stmt.lowerTop first ss = Stmt.lowerTop second ss := by
  induction ss with
  | nil => rfl
  | cons s ss ih => simp only [Stmt.lowerTop, Stmt.lower_congr same true s, ih]

end

/-! ## The first type without a descriptor -/

/-- The program with its type declarations defined, and nothing else changed. -/
def Program.defined (library : Expr) (program : Program) : Except Diagnostic Program :=
  program.define id library

theorem Site.failure?_constant (library : Expr) (site : Site) (name : String) (loc : Location) :
    TypeGuard.failure? (site.constant library name loc) = firstReport [] [{ loc, site }] := by
  rw [firstReport_single, Site.report?, Site.failure?, Site.constant]
  cases site.encode [] <;> rfl

section
variable {options : Options} (form : Body Stmt Expr → Body Stmt Expr) (library : Expr)

theorem Signature.firstReport_occurrences_of_skipAsserts (skipped : options.skipAsserts = true)
    (signature : Signature Pattern Expr) (loc : Location) (own : List String) (body : List Stmt)
    (frames : Scope) (inBody : List Occurrence) :
    firstReport frames (signature.occurrences options loc own body inBody)
      = firstReport frames inBody := by
  rw [Signature.firstReport_occurrences, Signature.checkOccurrences, if_pos skipped]
  exact Option.or_none

mutual

theorem Expr.failure?_define (skipped : options.skipAsserts = true) : ∀ e : Expr,
    failure? (Expr.define form library e) = firstReport [] (e.occurrences options)
  | .function signature body _ loc => by
    rw [Expr.occurrences, Signature.firstReport_occurrences_of_skipAsserts skipped]
    exact (failure?_bind_pure _).trans (Stmt.failure?_defineAll skipped body)
  | .arrow signature body loc => by
    rw [Expr.occurrences, Signature.firstReport_occurrences_of_skipAsserts skipped]
    exact (failure?_bind_pure _).trans (Expr.failure?_defineBody skipped body)
  | .call callee args => by
    rw [Expr.occurrences, firstReport_append, ← Expr.failure?_define skipped callee,
      ← Expr.failure?_defineAll skipped args]
    exact failure?_bind fun _ => failure?_bind_pure _
  | .raw _ | .ident _ | .this | .member _ _ | .string _ | .number _ | .array _ | .object _
  | .spread _ | .binary _ _ _ | .stray _ => rfl
termination_by structural e => e

theorem Expr.failure?_defineBody (skipped : options.skipAsserts = true) :
    ∀ body : Body Stmt Expr,
      failure? (Expr.defineBody form library body)
        = firstReport [] (Expr.bodyOccurrences options body)
  | .block stmts => (failure?_bind_pure _).trans (Stmt.failure?_defineAll skipped stmts)
  | .expression value => (failure?_bind_pure _).trans (Expr.failure?_define skipped value)
termination_by structural body => body

theorem Expr.failure?_defineAll (skipped : options.skipAsserts = true) : ∀ es : List Expr,
    failure? (Expr.defineAll form library es) = firstReport [] (Expr.allOccurrences options es)
  | [] => rfl
  | e :: es => by
    rw [Expr.allOccurrences, firstReport_append, ← Expr.failure?_define skipped e,
      ← Expr.failure?_defineAll skipped es]
    exact failure?_bind fun _ => failure?_bind_pure _
termination_by structural es => es

theorem Stmt.failure?_define (skipped : options.skipAsserts = true) : ∀ s : Stmt,
    failure? (Stmt.define form library s) = firstReport [] (s.occurrences options)
  | .typeAlias decl => Site.failure?_constant library _ _ _
  | .interface decl => Site.failure?_constant library _ _ _
  | .function _ signature body loc => by
    rw [Stmt.occurrences, Signature.firstReport_occurrences_of_skipAsserts skipped]
    exact (failure?_bind_pure _).trans (Stmt.failure?_defineAll skipped body)
  | .var _ _ (some init) _ => (failure?_bind_pure _).trans (Expr.failure?_define skipped init)
  | .exports declaration _ =>
    (failure?_bind_pure _).trans (Stmt.failure?_define skipped declaration)
  | .ret (some argument) => (failure?_bind_pure _).trans (Expr.failure?_define skipped argument)
  | .expr expression => (failure?_bind_pure _).trans (Expr.failure?_define skipped expression)
  | .block body => (failure?_bind_pure _).trans (Stmt.failure?_defineAll skipped body)
  | .var _ _ none _ | .ret none | .raw _ | .imports _ | .stray _ => rfl
termination_by structural s => s

theorem Stmt.failure?_defineAll (skipped : options.skipAsserts = true) : ∀ ss : List Stmt,
    failure? (Stmt.defineAll form library ss) = firstReport [] (Stmt.allOccurrences options ss)
  | [] => rfl
  | s :: ss => by
    rw [Stmt.allOccurrences, firstReport_append, ← Stmt.failure?_define skipped s,
      ← Stmt.failure?_defineAll skipped ss]
    exact failure?_bind fun _ => failure?_bind_pure _
termination_by structural ss => ss

end

end

/-! ## Programs -/

theorem Program.lower_skipAsserts_congr (program : Program) (first second : Bool) :
    (program.lower ⟨first, true⟩).1 = (program.lower ⟨second, true⟩).1 := by
  have same := @Stmt.lowerTop_congr ⟨first, true⟩ ⟨second, true⟩ rfl program.body
  have left (b : Bool) : Options.injectHelper ⟨b, true⟩ = false := by cases b <;> rfl
  simp only [Program.lower_fst, Program.lowerStep, withHelper, same, left]

theorem Program.defined_of_lowers {g : Setting} {program lowered : Program}
    (h : program.Lowers g lowered) (skipped : g.options.skipAsserts = true) :
    program.defined g.library = .ok lowered := by
  have defined := Program.define_of_lowers h
  have left : g.options.injectHelper = false := by simp [Options.injectHelper, skipped]
  rw [Setting.form, skipped, left] at defined
  simpa [Program.defined, Stmt.cleared] using defined

/-- Without checks the types of a program are defined, and nothing else happens. -/
theorem Program.lower_skipAsserts (program : Program) (skipHelpers : Bool) :
    (program.lower ⟨skipHelpers, true⟩).1
      = program.defined (program.libraryReference { skipAsserts := true }) := by
  rw [program.lower_skipAsserts_congr skipHelpers false]
  have failed := program.failure?_lower { skipAsserts := true }
  cases run : (program.lower { skipAsserts := true }).1 with
  | error d =>
    rw [run] at failed
    have stopped : failure? (program.defined (program.libraryReference { skipAsserts := true }))
        = some d :=
      (failure?_bind_pure _).trans
        ((Stmt.failure?_defineAll id _ rfl program.body).trans failed.symm)
    exact (failure?_eq_some_iff.1 stopped).symm
  | ok lowered =>
    obtain ⟨helper, shape⟩ := Program.exists_lowers_libraryReference run
    exact (Program.defined_of_lowers shape rfl).symm

/-- The name of the assertion helper of a program. -/
def Program.helper (program : Program) : String := ((Context.prepare program {}).freshName "assert").1

theorem Program.helper_of_extends {program : Program} {ctx : Context} {name : String}
    (h : (Context.prepare program {}).Extends ctx) (settled : ctx.assertName = some name) :
    name = program.helper := by
  obtain ⟨kept, -⟩ | ⟨-, chosen, -⟩ := h.names
  · have unsettled : (Context.prepare program {}).assertName = none := rfl
    rw [settled, unsettled] at kept
    cases kept
  · exact Option.some.inj (settled.symm.trans chosen)

/-- A run over the statements of a program with default options goes on to the helper, and what is
settled then is the name and the reference that the program decides. -/
theorem Program.withHelper_of_yields {program : Program} {body : List Stmt} {mid : Context}
    {text : String}
    (printed : Script.assertHelper program.helper (program.libraryReference {}) = .ok text)
    (hbody : (Stmt.lowerTop {} program.body).Yields (Context.prepare program {}) body mid) :
    ∃ last, (withHelper {} body).Yields mid (.raw text :: body) last ∧
      (∀ name, mid.assertName = some name → name = program.helper) ∧
      ∀ b, mid.binding = some b → b.expression = program.libraryReference {} := by
  obtain ⟨stmts, last, hhelper⟩ := withHelper_succeeds {} body (Program.simple_of_yields hbody)
  have before := hbody.extends (Stmt.lowerTop_acts _ _ _)
  have after := (withHelper_settles {} hhelper).1
  have start := Context.prepare_fits
    { options := {}, helper := program.helper, library := program.libraryReference {},
      reserved := program.declaredNames } program rfl
  have fits := start.later (before.trans after)
    (fun name => Program.helper_of_extends (before.trans after))
    fun b => Program.library_of_yields hbody hhelper
  obtain ⟨text', printed', rfl⟩ := withHelper_yields hhelper fits
  obtain rfl : text = text' := Except.ok.inj (printed.symm.trans printed')
  refine ⟨last, hhelper, fun name => Program.helper_of_extends before, fun b bound => ?_⟩
  exact Program.library_of_yields hbody hhelper (after.binding b bound)

/-- With the helper wanted, lowering puts it in front and does nothing else. -/
theorem Program.lower_default (program : Program) {text : String}
    (printed : Script.assertHelper program.helper (program.libraryReference {}) = .ok text) :
    (program.lower {}).1 = (program.lower { skipHelpers := true }).1.map
      fun lowered => { lowered with body := .raw text :: lowered.body } := by
  have same : Stmt.lowerTop { skipHelpers := true } program.body = Stmt.lowerTop {} program.body :=
    @Stmt.lowerTop_congr { skipHelpers := true } {} rfl program.body
  simp only [Program.lower_fst, Program.lowerStep, Lowering.outcome_bind,
    Lowering.outcome_tryCatch, same]
  rcases run : (Stmt.lowerTop {} program.body).outcome (Context.prepare program {})
    with ⟨d | body, mid⟩
  · rfl
  · obtain ⟨last, hhelper, -, -⟩ := Program.withHelper_of_yields printed run
    have front : (withHelper {} body).outcome mid = (.ok (.raw text :: body), last) := hhelper
    have left : (withHelper { skipHelpers := true } body).outcome mid = (.ok body, mid) := rfl
    simp only [front, left]
    rfl

/-- Every check of a program that is lowered without the helper calls the helper that is left out, and
refers to the library as it does. -/
theorem Program.lowers_skipHelpers {program lowered : Program}
    (h : (program.lower { skipHelpers := true }).1 = .ok lowered) :
    program.Lowers
      { options := { skipHelpers := true }, helper := program.helper,
        library := program.libraryReference {}, reserved := program.declaredNames } lowered := by
  obtain ⟨body, mid, last, hbody, hhelper, file⟩ := (Program.lower_eq_ok_iff _).1 h
  obtain ⟨text, printed⟩ :=
    Script.exists_assertHelper program.helper (program.nodes_libraryReference {})
  have left : mid = last := (Lowering.yields_pure.1 hhelper).2
  have hbody' : (Stmt.lowerTop {} program.body).Yields (Context.prepare program {}) body mid := by
    rwa [@Stmt.lowerTop_congr {} { skipHelpers := true } rfl program.body]
  obtain ⟨-, -, helper, library⟩ := Program.withHelper_of_yields printed hbody'
  subst left
  exact Program.lowers_of_yields (fun _ _ _ => trivial) rfl file hbody hhelper helper library

/-- Printing a program with a helper in front prints the helper's text and then the program. -/
theorem Program.print_helper (program : Program) (name reference : String) :
    ({ program with body := .raw (Script.helperText name reference) :: program.body } :
      Program).print = program.print.map (Script.helperText name reference ++ ·) := by
  have emitted := Script.text_emit_helperText Script.defaultUnit name reference
  have front : ({ unit := Script.defaultUnit } : Script.Layout).emit
        (Script.trimLines (Script.helperText name reference))
      = ({ unit := Script.defaultUnit } : Script.Layout).behind
        (Script.helperText name reference) := by
    simpa [Script.Layout.emit, Script.Layout.behind] using emitted
  have behind := Script.printStmts_behind Script.defaultUnit (Script.helperText name reference)
    program.body { unit := Script.defaultUnit }
  unfold Program.print
  rw [Script.printStmts, Script.printStmt, front]
  change (do return (← Script.printStmts _ _ _).text : Except PrintError String) = _
  rw [behind]
  cases Script.printStmts Script.defaultUnit program.body { unit := Script.defaultUnit } <;> rfl

/-- The switches only remove what they say. With default options a program fails as it does without
the helper, and otherwise its code is the helper in front of the code without it; every check of that
code calls the helper and refers to the library as the helper does. Without checks, whether or not the
helper is wanted, the lowered program is the program with its type declarations defined. -/
theorem Program.compile_switches (program : Program) :
    (∃ reference, (program.libraryReference {}).print = .ok reference ∧
      (program.compile {}).1 = (program.compile { skipHelpers := true }).1.map
        (Script.helperText program.helper reference ++ ·) ∧
      ∀ lowered, (program.lower { skipHelpers := true }).1 = .ok lowered →
        program.Lowers
          { options := { skipHelpers := true }, helper := program.helper,
            library := program.libraryReference {}, reserved := program.declaredNames } lowered) ∧
    ∀ skipHelpers : Bool,
      (program.lower ⟨skipHelpers, true⟩).1
        = program.defined (program.libraryReference { skipAsserts := true }) ∧
      (program.compile ⟨skipHelpers, true⟩).1
        = (program.defined (program.libraryReference { skipAsserts := true })).bind
          fun lowered => lowered.print.mapError PrintError.diagnostic := by
  obtain ⟨text, assembled⟩ :=
    Script.exists_assertHelper program.helper (program.nodes_libraryReference {})
  obtain ⟨reference, printed, same⟩ := bind_eq_ok_iff.1 assembled
  obtain rfl : Script.helperText program.helper reference = text := Except.ok.inj same
  refine ⟨⟨reference, printed, ?_, fun lowered => Program.lowers_skipHelpers⟩, ?_⟩
  · have front := program.lower_default assembled
    unfold Program.compile
    dsimp only
    rw [front]
    cases (program.lower { skipHelpers := true }).1 with
    | error d => rfl
    | ok lowered =>
      have text := lowered.print_helper program.helper reference
      change Except.mapError _ (Program.print _) = Except.map _ (Except.mapError _ lowered.print)
      rw [text]
      cases lowered.print <;> rfl
  · intro skipHelpers
    have lowered := program.lower_skipAsserts skipHelpers
    refine ⟨lowered, ?_⟩
    unfold Program.compile
    dsimp only
    rw [lowered]

/-- A module that takes the name of the helper for itself, with a type and an arrow function to check. -/
def takenHelper : Program where
  body :=
    [.imports { source := "tcomb", specifiers := [⟨.default, "t", none⟩] },
      .typeAlias { name := "Id", right := .primitive .number .unknown },
      .var .const (.ident "_assert")
        (some (.arrow
          { params := [{ binding := .ident "x", type := some (.named { name := ⟨["Id"]⟩ }) }] }
          (.expression (.raw "x + 1")) .unknown)) .unknown]

theorem takenHelper_compile_switches : ∃ code lowered,
    (takenHelper.lower { skipHelpers := true }).1 = .ok lowered ∧
    (takenHelper.compile { skipHelpers := true }).1 = .ok code ∧
    (takenHelper.compile {}).1 = .ok (Script.helperText "_assert2" "t" ++ code) ∧
    takenHelper.Lowers
      { options := { skipHelpers := true }, helper := "_assert2", library := .ident "t",
        reserved := ["t", "Id", "_assert", "x"] } lowered := by
  obtain ⟨⟨reference, printed, front, checks⟩, -⟩ := takenHelper.compile_switches
  obtain rfl : "t" = reference := Except.ok.inj printed
  have code : (takenHelper.compile { skipHelpers := true }).1 = .ok
      ("import t from \"tcomb\";\nconst Id = t.Number;\n"
        ++ "const _assert = (x) => \x7b\n    _assert2(x, Id, \"x\");\n    return x + 1;\n\x7d;\n") := by
    decide +kernel
  refine ⟨_, _, rfl, code, ?_, checks _ rfl⟩
  rw [front, code]
  rfl

end TypeGuard
