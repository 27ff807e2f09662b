import TypeGuard.Proofs.Lowering.Shape

/-!
# The library reference of a file

Lowering settles on a reference to the validation library as it goes through a file: a statement of
the module may designate the library, and the first type or check that is lowered before that takes
the default package. The reference can also be read off the program. `Program.libraryReference` looks
for the first statement of the module that designates the library or needs it, and
`Program.lowers_libraryReference` says that this is what every type and check of the lowered program
refers to.
-/

namespace TypeGuard

/-- The library reference of a program: that of the first statement that settles it, and the default
if none does. -/
def Program.libraryReference (options : Options) (program : Program) : Expr :=
  ((program.body.findSome? (Stmt.settles options true)).getD .standard).expression

/-- The reference that a lowering ends with is the one that the program decides. -/
theorem Program.library_of_yields {options : Options} {program : Program} {body stmts : List Stmt}
    {mid last : Context}
    (hbody : (Stmt.lowerTop options program.body).Yields (Context.prepare program {}) body mid)
    (hhelper : (withHelper options body).Yields mid stmts last) {b : LibraryBinding}
    (hb : last.binding = some b) : b.expression = program.libraryReference options := by
  have bound := hbody.binding_eq (Stmt.lowerTop_acts _ options program.body)
  rw [(withHelper_settles options hhelper).2, bound] at hb
  change (none.or _).or _ = _ at hb
  unfold Program.libraryReference
  cases found : program.body.findSome? (Stmt.settles options true) with
  | some b' =>
    obtain rfl : b' = b := by simpa [found] using hb
    rfl
  | none =>
    rw [found] at hb
    cases injected : options.injectHelper <;> simp [injected] at hb
    rw [← hb]
    rfl

theorem Program.exists_lowers_libraryReference {options : Options} {program lowered : Program}
    (h : (program.lower options).1 = .ok lowered) :
    ∃ helper, program.Lowers
      { options, helper, library := program.libraryReference options,
        reserved := program.declaredNames } lowered := by
  obtain ⟨body, mid, last, hbody, hhelper, file⟩ := (Program.lower_eq_ok_iff options).1 h
  refine ⟨last.assertName.getD "", ?_⟩
  exact Program.lowers_of_yields (fun _ _ _ => trivial) rfl file hbody hhelper
    (fun name hn => by simp [hn]) fun b hb => Program.library_of_yields hbody hhelper hb

/-- Every type and check of a lowered program, and its helper, refer to the library by one expression,
which the first deciding statement of the module gives. Once a statement has decided, no later one
changes it. -/
theorem Program.lowers_libraryReference {options : Options} {program lowered : Program}
    (h : (program.lower options).1 = .ok lowered) :
    (∃ helper, program.Lowers
      { options, helper, library := program.libraryReference options,
        reserved := program.declaredNames } lowered) ∧
    ∀ later : List Stmt, (∃ s ∈ program.body, (s.settles options true).isSome) →
      ({ program with body := program.body ++ later } : Program).libraryReference options
        = program.libraryReference options := by
  refine ⟨Program.exists_lowers_libraryReference h, ?_⟩
  rintro later ⟨s, member, decides⟩
  have found : (program.body.findSome? (Stmt.settles options true)).isSome :=
    List.findSome?_isSome_iff.2 ⟨s, member, decides⟩
  unfold Program.libraryReference
  rw [List.findSome?_append, Option.or_of_isSome found]

/-- A module that loads a package inside a function first, then designates the library by an exported
variable, and loads another package later. -/
def repeatedRequires : Program where
  body :=
    [.function "setup" {} [.var .const (.ident "t") (some (.require "tcomb")) .unknown] .unknown,
      .exports (.var .const (.ident "tr") (some (.require "tcomb-react")) .unknown) .unknown,
      .var .const (.ident "t") (some (.require "tcomb")) .unknown,
      .typeAlias { name := "Id", right := .primitive .number .unknown }]

theorem repeatedRequires_lowers_libraryReference :
    ∃ lowered, (repeatedRequires.lower {}).1 = .ok lowered ∧
      repeatedRequires.libraryReference {} = .member (.ident "tr") "t" ∧
      ∃ helper, repeatedRequires.Lowers
        { options := {}, helper, library := .member (.ident "tr") "t",
          reserved := ["setup", "t", "tr", "t", "Id"] } lowered :=
  ⟨_, rfl, rfl, (Program.lowers_libraryReference rfl).1⟩

end TypeGuard
