import TypeGuard.Proofs.Lowering.Nodes
import TypeGuard.Proofs.Script.Printable
import TypeGuard.Proofs.Surface.Places

/-!
# Failures of lowering

A program cannot be lowered if one of its types has no descriptor. `Program.encodings` lists these
types in the order in which they are encoded, each with the place of the declaration or function that
it belongs to, and `Program.lower_eq_error_iff` says that lowering fails with the first of them that
has no descriptor, and there.
-/

namespace TypeGuard

/-- The types of a program in the order in which they are encoded, each with the place of the
declaration or function that it belongs to. -/
def Program.encodings (options : Options) (program : Program) : List (Location × Site) :=
  (program.occurrences options).map fun o => (o.loc, o.site)

theorem Program.findSome?_encodings (options : Options) (program : Program) :
    (program.encodings options).findSome? (Site.report? [])
      = firstReport [] (program.occurrences options) :=
  List.findSome?_map

/-! ## The helper -/

section
variable (options : Options)

theorem Script.exists_assertHelper (name : String) {library : Expr}
    (h : library.nodes .printed [] = []) : ∃ text, assertHelper name library = .ok text := by
  have printed : (library.print).isOk = true := by
    rw [Expr.print, isOk_printExpr _ library [], h]
    rfl
  unfold assertHelper
  cases reference : library.print with
  | error e =>
    rw [reference] at printed
    cases printed
  | ok text => exact ⟨_, rfl⟩

/-- The reference that a context has settled on holds no function. -/
def Context.Simple (ctx : Context) : Prop :=
  ∀ b, ctx.binding = some b → b.expression.nodes .printed [] = []

theorem Context.Simple.library {ctx : Context} (h : ctx.Simple) :
    ctx.library.1.nodes .printed [] = [] := by
  unfold Context.library
  split
  next b bound => exact h b bound
  · rfl

theorem Context.Simple.helperName {ctx ctx' : Context} {name : String} (h : ctx.Simple)
    (named : ctx.helperName = (name, ctx')) : ctx'.Simple := by
  unfold Context.helperName at named
  split at named <;> cases named <;> exact h

theorem Program.simple_of_yields {options : Options} {program : Program} {body : List Stmt}
    {mid : Context}
    (h : (Stmt.lowerTop options program.body).Yields (Context.prepare program {}) body mid) :
    mid.Simple := by
  intro b bound
  rw [h.binding_eq (Stmt.lowerTop_acts _ options program.body)] at bound
  obtain ⟨s, -, settled⟩ := List.exists_of_findSome?_eq_some bound
  exact Stmt.nodes_settles s settled

open Lowering in
/-- Adding the helper does not fail. -/
theorem withHelper_succeeds (body : List Stmt) {ctx : Context} (h : ctx.Simple) :
    ∃ stmts ctx', (withHelper options body).Yields ctx stmts ctx' := by
  unfold withHelper
  split
  · rcases named : ctx.helperName with ⟨name, mid⟩
    rcases settled : mid.library with ⟨library, last⟩
    have simple : mid.Simple := h.helperName named
    have bare : library.nodes .printed [] = [] := by simpa [settled] using simple.library
    obtain ⟨text, printed⟩ := Script.exists_assertHelper name bare
    simp only [Lowering.library, Lowering.helperName, yields_bind, yields_modifyGet]
    refine ⟨.raw text :: body, last, name, mid, named, library, last, settled, ?_⟩
    rw [printed]
    exact yields_pure.2 ⟨rfl, rfl⟩
  · exact ⟨body, ctx, yields_pure.2 ⟨rfl, rfl⟩⟩

/-! ## Programs that are not lowered -/

/-- A program that is not lowered fails with the report on its first type that has no descriptor. -/
theorem Program.failure?_lower (program : Program) :
    failure? (program.lower options).1 = firstReport [] (program.occurrences options) := by
  have ran := Stmt.lowerTop_acts [] options program.body (Context.prepare program {}) rfl
  rcases run : (Stmt.lowerTop options program.body).outcome (Context.prepare program {})
    with ⟨d | body, mid⟩ <;> rw [run] at ran
  · have stops : ((program.lowerStep options).outcome (Context.prepare program {})).1
        = .error d := by
      rw [Program.lowerStep, Lowering.outcome_bind, Lowering.outcome_tryCatch, run]
      rfl
    rw [Program.lower_fst, stops]
    exact ran.failed
  · obtain ⟨stmts, last, helper⟩ := withHelper_succeeds options body (Program.simple_of_yields run)
    have succeeds : (program.lower options).1 = .ok { program with body := stmts } :=
      (Program.lower_eq_ok_iff options).2 ⟨body, mid, last, run, helper, rfl⟩
    rw [succeeds]
    exact ran.failed

end

/-! ## Places -/

section
variable {ok : Location → Prop} {options : Options}

/-- All places at which the encoding of the type looks are `ok` or not known. -/
def Site.Placed (ok : Location → Prop) : Site → Prop
  | .param _ type _ => type.Placed ok
  | .result _ type => type.Placed ok
  | .typeAlias decl => decl.Placed ok
  | .interface decl => decl.Placed ok

theorem Param.AllPlaced.of_mem {param : Param Pattern Expr} :
    ∀ {params : List (Param Pattern Expr)}, Param.AllPlaced ok params → param ∈ params →
      param.Placed ok
  | _ :: _, h, member => by
    obtain rfl | member := List.mem_cons.1 member
    · exact h.1
    · exact Param.AllPlaced.of_mem h.2 member

theorem Signature.occurrences_placed {params : List (Param Pattern Expr)} {returnType : Option Ty}
    {typeParams : List String} {loc : Location} {own : List String} {body : List Stmt}
    {inBody : List Occurrence} (here : ok loc) (returns : ∀ t ∈ returnType, t.Placed ok)
    (inParams : Param.AllPlaced ok params)
    (placed : ∀ o ∈ inBody, ok o.loc ∧ o.site.Placed ok) :
    ∀ o ∈ Signature.occurrences options ⟨params, returnType, typeParams⟩ loc own body inBody,
      ok o.loc ∧ o.site.Placed ok := by
  refine List.forall_mem_append.2 ⟨List.forall_mem_map.2 placed, ?_⟩
  unfold Signature.checkOccurrences
  split
  · simp
  · refine List.forall_mem_map.2 fun site found => ⟨here, ?_⟩
    obtain found | found := List.mem_append.1 found
    · obtain ⟨type, annotated, rfl⟩ := Option.map_eq_some_iff.1 (Option.mem_toList.1 found)
      exact returns type annotated
    · obtain ⟨param, among, found⟩ := List.mem_filterMap.1 found
      obtain ⟨type, annotated, rfl⟩ := Option.map_eq_some_iff.1 found
      exact (inParams.of_mem among).type type annotated

mutual

theorem Expr.occurrences_placed : ∀ e : Expr, e.Placed ok →
    ∀ o ∈ e.occurrences options, ok o.loc ∧ o.site.Placed ok
  | .function ⟨_, _, _⟩ body _ _, ⟨here, returns, inParams, inBody⟩ =>
    Signature.occurrences_placed here returns inParams (Stmt.allOccurrences_placed body inBody)
  | .arrow ⟨_, _, _⟩ body _, ⟨here, returns, inParams, inBody⟩ =>
    Signature.occurrences_placed here returns inParams (Expr.bodyOccurrences_placed body inBody)
  | .call _ _, ⟨module, h⟩ => by
    cases h
    simp [Expr.occurrences, Expr.allOccurrences]
  | .raw _, _ | .ident _, _ | .number _, _ => by simp [Expr.occurrences]
  | .this, h | .member _ _, h | .string _, h | .array _, h | .object _, h | .spread _, h
  | .binary _ _ _, h | .stray _, h => h.elim
termination_by structural e => e

theorem Expr.bodyOccurrences_placed : ∀ body : Body Stmt Expr, Expr.BodyPlaced ok body →
    ∀ o ∈ Expr.bodyOccurrences options body, ok o.loc ∧ o.site.Placed ok
  | .block stmts, h => Stmt.allOccurrences_placed stmts h
  | .expression value, h => Expr.occurrences_placed value h
termination_by structural body => body

theorem Stmt.occurrences_placed : ∀ s : Stmt, s.Placed ok →
    ∀ o ∈ s.occurrences options, ok o.loc ∧ o.site.Placed ok
  | .typeAlias decl, h | .interface decl, h => by simpa [Stmt.occurrences] using ⟨h.1, h⟩
  | .function _ ⟨_, _, _⟩ body _, ⟨here, returns, inParams, inBody⟩ =>
    Signature.occurrences_placed here returns inParams (Stmt.allOccurrences_placed body inBody)
  | .var _ _ none _, _ | .ret none, _ | .raw _, _ | .imports _, _ => by simp [Stmt.occurrences]
  | .var _ _ (some init) _, h => Expr.occurrences_placed init h.2
  | .exports declaration _, h => Stmt.occurrences_placed declaration h
  | .ret (some argument), h => Expr.occurrences_placed argument h
  | .expr _, h | .block _, h | .stray _, h => h.elim
termination_by structural s => s

theorem Stmt.allOccurrences_placed : ∀ ss : List Stmt, Stmt.AllPlaced ok ss →
    ∀ o ∈ Stmt.allOccurrences options ss, ok o.loc ∧ o.site.Placed ok
  | [], _ => by simp [Stmt.allOccurrences]
  | s :: ss, h =>
    List.forall_mem_append.2 ⟨Stmt.occurrences_placed s h.1, Stmt.allOccurrences_placed ss h.2⟩
termination_by structural ss => ss

end

end

/-! ## Programs -/

/-- The name of the type that is declared at a site. -/
def Site.declares? : Site → Option String
  | .param _ _ _ | .result _ _ => none
  | .typeAlias decl => some decl.name
  | .interface decl => some decl.name

/-- A diagnostic at a known location is reported there. -/
theorem Diagnostic.ofFault_known (fault : Fault) {loc : Location} (known : loc ≠ .unknown) :
    ofFault fault (some loc) = ⟨fault, loc⟩ := by
  simp [ofFault, Option.filter_some, known]

/-- The first report, where all declarations and functions have known places. -/
theorem Site.findSome?_report?_eq_some_iff {sites : List (Location × Site)}
    (known : ∀ p ∈ sites, p.1 ≠ .unknown) {d : Diagnostic} :
    sites.findSome? (Site.report? []) = some d ↔ ∃ before loc site e after,
      sites = before ++ (loc, site) :: after ∧ (∀ p ∈ before, p.2.failure? [] = none) ∧
        site.failure? [] = some e ∧ d = ⟨e.fault, loc⟩ := by
  rw [List.findSome?_eq_some_iff]
  constructor
  · rintro ⟨before, ⟨loc, site⟩, after, rfl, reported, quiet⟩
    obtain ⟨e, failed, rfl⟩ := Option.map_eq_some_iff.1 reported
    refine ⟨before, loc, site, e, after, rfl, fun p member => ?_, failed, ?_⟩
    · exact Option.map_eq_none_iff.1 (quiet p member)
    · exact Diagnostic.ofFault_known _ (known (loc, site) (by simp))
  · rintro ⟨before, loc, site, e, after, rfl, quiet, failed, rfl⟩
    refine ⟨before, (loc, site), after, rfl, ?_, fun p member => ?_⟩
    · rw [Site.report?, failed, Option.map_some]
      exact congrArg some (Diagnostic.ofFault_known _ (known (loc, site) (by simp)))
    · rw [Site.report?, quiet p member, Option.map_none]

theorem Site.findSome?_report?_eq_none_iff {sites : List (Location × Site)} :
    sites.findSome? (Site.report? []) = none ↔ ∀ p ∈ sites, p.2.failure? [] = none := by
  rw [List.findSome?_eq_none_iff]
  exact forall₂_congr fun p _ => Option.map_eq_none_iff

section
variable {options : Options} {file source : String} {program : Program}

/-- The declarations and functions of a parsed program have known places if its file has a name. -/
theorem Program.encodings_known (named : file ≠ "<unknown>")
    (parsed : Program.parse file source = .ok program) :
    ∀ p ∈ program.encodings options, p.1 ≠ .unknown := by
  refine List.forall_mem_map.2 fun o member (unknown : o.loc = .unknown) => ?_
  have placed := Program.parse_ends file source
  rw [parsed] at placed
  have inFile := (Stmt.allOccurrences_placed program.body placed o member).1.1
  rw [unknown] at inFile
  exact named inFile.symm

/-- A parsed program is lowered exactly if all its types have descriptors; a declaration with the
name of the refinement marker has none. Otherwise lowering fails with the first type that has none.
The diagnostic has the place of the declaration or function that the type belongs to, the code and the
cause of the failure and its message behind one mark, and the program is not compiled. -/
theorem Program.lower_eq_error_iff (named : file ≠ "<unknown>")
    (parsed : Program.parse file source = .ok program) :
    ((∃ lowered, (program.lower options).1 = .ok lowered) ↔
      ∀ p ∈ program.encodings options, ∃ descriptor, p.2.encode [] = .ok descriptor) ∧
    (∀ p ∈ program.encodings options, p.2.declares? = some refinementMarker →
      ∃ loc, p.2.encode [] = .error (.reservedName loc)) ∧
    (∀ d, (program.lower options).1 = .error d ↔ ∃ before loc site e after,
      program.encodings options = before ++ (loc, site) :: after ∧
      (∀ p ∈ before, ∃ descriptor, p.2.encode [] = .ok descriptor) ∧
      site.encode [] = .error e ∧
      d.loc = loc ∧ d.fault = e.fault ∧ d.code = e.fault.code ∧
      d.message = "[flowcomb] " ++ e.message) ∧
    ∀ d, (program.lower options).1 = .error d → (program.compile options).1 = .error d := by
  have first := (program.failure?_lower options).trans (program.findSome?_encodings options).symm
  refine ⟨?_, ?_, fun d => ?_, fun d failed => ?_⟩
  · rw [← failure?_eq_none_iff, first, Site.findSome?_report?_eq_none_iff]
    exact forall₂_congr fun p _ => failure?_eq_none_iff
  · rintro ⟨_, site⟩ - declared
    cases site with
    | param | result => cases declared
    | typeAlias decl | interface decl =>
      have reserved : decl.name = refinementMarker := Option.some.inj declared
      exact ⟨decl.loc, if_pos reserved⟩
  · rw [← failure?_eq_some_iff, first,
      Site.findSome?_report?_eq_some_iff (Program.encodings_known named parsed)]
    simp only [Site.failure?, failure?_eq_none_iff, failure?_eq_some_iff]
    constructor
    · rintro ⟨before, loc, site, e, after, split, quiet, failed, rfl⟩
      exact ⟨before, loc, site, e, after, split, quiet, failed, rfl, rfl, rfl, rfl⟩
    · rintro ⟨before, loc, site, e, after, split, quiet, failed, rfl, cause, -, -⟩
      exact ⟨before, _, site, e, after, split, quiet, failed, cause ▸ rfl⟩
  · unfold Program.compile
    rcases run : program.lower options with ⟨result, journal⟩
    obtain rfl : result = .error d := by rw [← failed, run]
    rfl

end

/-- An arrow function in the body of a function, both with annotations that have no descriptor. -/
def nestedFaults : String :=
  "(program\n (function f ((param x true)) (returns (typeof g))\n"
    ++ "  (body (type A number) (const h (arrow ((param y true)) y)))))"

theorem nestedFaults_lower_fails :
    ∃ program d, Program.parse "m.js" nestedFaults = .ok program ∧
      (program.lower {}).1 = .error d ∧ (program.compile {}).1 = .error d ∧
      d = ⟨(TypeError.unsupported "BooleanLiteralTypeAnnotation" (some .unknown)).fault,
        ⟨"m.js", 3, 34⟩⟩ ∧
      ∃ before loc site e after,
        program.encodings {} = before ++ (loc, site) :: after ∧
        (∀ p ∈ before, ∃ descriptor, p.2.encode [] = .ok descriptor) ∧
        site.encode [] = .error e ∧
        d.loc = loc ∧ d.fault = e.fault ∧ d.code = e.fault.code ∧
        d.message = "[flowcomb] " ++ e.message := by
  have run : (Program.parse "m.js" nestedFaults).toOption.map
      (fun program => failure? (program.lower {}).1)
      = some (some ⟨(TypeError.unsupported "BooleanLiteralTypeAnnotation" (some .unknown)).fault,
          ⟨"m.js", 3, 34⟩⟩) := by decide +kernel
  cases parsed : Program.parse "m.js" nestedFaults with
  | error e =>
    rw [parsed] at run
    cases run
  | ok program =>
    rw [parsed] at run
    have failed := failure?_eq_some_iff.1 (Option.some.inj run)
    obtain ⟨-, -, first, uncompiled⟩ := Program.lower_eq_error_iff (by decide) parsed
    exact ⟨program, _, rfl, failed, uncompiled _ failed, rfl, (first _).1 failed⟩

end TypeGuard
