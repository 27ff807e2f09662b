import TypeGuard.Proofs.Lowering.Passages
import TypeGuard.Proofs.Lowering.Reach

/-!
# Raw text in compiled programs

All raw text that a program holds, whatever stands around it, and the passages of the output that it
becomes. Text and passages cover each other, apart from the default values of rest parameters, which
are not printed.

## Main statements

* `Program.rawTexts_printed`: each raw text is printed in its place, and when it is left unchanged.
* `Program.comments_guarded_iff`: whether a comment at the end of raw text swallows code behind it.
-/

namespace TypeGuard

open Script

/-! ## The raw text of a tree -/

/-- Raw text, and whether it stands in a default value. -/
structure RawText where
  text : List Char
  defaulted : Bool
  deriving DecidableEq, Repr

mutual

/-- The raw text of a pattern, all of which stands in default values. -/
def Pattern.rawTexts : Pattern → List RawText
  | .ident _ | .stray _ => []
  | .default target value => Pattern.rawTexts target ++ Expr.rawTexts true value
  | .object fields _ => Pattern.fieldTexts fields
  | .array elements _ => Pattern.elementTexts elements

def Pattern.fieldTexts : List (PatternField Pattern) → List RawText
  | [] => []
  | ⟨_, value⟩ :: fields => Pattern.rawTexts value ++ Pattern.fieldTexts fields

def Pattern.elementTexts : List (Option Pattern) → List RawText
  | [] => []
  | none :: elements => Pattern.elementTexts elements
  | some element :: elements => Pattern.rawTexts element ++ Pattern.elementTexts elements

/-- The raw text of a parameter, apart from the default of a rest parameter. -/
def Param.rawTexts : Param Pattern Expr → List RawText
  | ⟨binding, _, _, none, _⟩ => Pattern.rawTexts binding
  | ⟨binding, _, _, some value, rest⟩ =>
    Pattern.rawTexts binding ++ if rest then [] else Expr.rawTexts true value

def Param.allTexts : List (Param Pattern Expr) → List RawText
  | [] => []
  | param :: params => Param.rawTexts param ++ Param.allTexts params

/-- The raw text of an expression. -/
def Expr.rawTexts (defaulted : Bool) : Expr → List RawText
  | .raw text => [{ text := text.toList, defaulted }]
  | .ident _ | .this | .string _ | .number _ | .stray _ => []
  | .member object _ => Expr.rawTexts defaulted object
  | .call callee args => Expr.rawTexts defaulted callee ++ Expr.allTexts defaulted args
  | .array elements => Expr.allTexts defaulted elements
  | .object entries => Expr.entryTexts defaulted entries
  | .spread argument => Expr.rawTexts defaulted argument
  | .binary _ left right => Expr.rawTexts defaulted left ++ Expr.rawTexts defaulted right
  | .function ⟨params, _, _⟩ body _ _ => Param.allTexts params ++ Stmt.allTexts defaulted body
  | .arrow ⟨params, _, _⟩ body _ => Param.allTexts params ++ Expr.bodyTexts defaulted body

def Expr.allTexts (defaulted : Bool) : List Expr → List RawText
  | [] => []
  | e :: es => Expr.rawTexts defaulted e ++ Expr.allTexts defaulted es

def Expr.entryTexts (defaulted : Bool) : List (Entry Expr) → List RawText
  | [] => []
  | .pair _ value :: entries => Expr.rawTexts defaulted value ++ Expr.entryTexts defaulted entries
  | .spread argument :: entries =>
    Expr.rawTexts defaulted argument ++ Expr.entryTexts defaulted entries

def Expr.bodyTexts (defaulted : Bool) : Body Stmt Expr → List RawText
  | .block stmts => Stmt.allTexts defaulted stmts
  | .expression value => Expr.rawTexts defaulted value

/-- The raw text of a statement: its raw expressions, or if it is raw itself, its last line if a
comment may end it. -/
def Stmt.rawTexts (defaulted : Bool) : Stmt → List RawText
  | .ret none | .imports _ | .typeAlias _ | .interface _ | .stray _ => []
  | .block body => Stmt.allTexts defaulted body
  | .ret (some argument) => Expr.rawTexts defaulted argument
  | .expr expression => Expr.rawTexts defaulted expression
  | .raw text => (Passage.ofComment (trimLines text).toList).map fun p => ⟨p.text, defaulted⟩
  | .var _ target none _ => Pattern.rawTexts target
  | .var _ target (some init) _ => Pattern.rawTexts target ++ Expr.rawTexts defaulted init
  | .function _ ⟨params, _, _⟩ body _ => Param.allTexts params ++ Stmt.allTexts defaulted body
  | .exports declaration _ => Stmt.rawTexts defaulted declaration

def Stmt.allTexts (defaulted : Bool) : List Stmt → List RawText
  | [] => []
  | s :: ss => Stmt.rawTexts defaulted s ++ Stmt.allTexts defaulted ss

end

/-! ## Raw text and passages -/

/-- The passage is one of the raw text, and exposed in a default value at most. -/
def Script.Passage.Shows (p : Passage) (r : RawText) : Prop :=
  p.text = r.text ∧ (p.exposed = true → r.defaulted = true)

/-- Every raw text has a passage, and there are no other passages. -/
structure Script.Passage.Cover (ps : List Passage) (rs : List RawText) : Prop where
  shown : ∀ r ∈ rs, ∃ p ∈ ps, p.Shows r
  held : ∀ p ∈ ps, ∃ r ∈ rs, p.Shows r

namespace Script.Passage.Cover

variable {ps qs inner : List Passage} {rs ts : List RawText}

theorem nil : Cover [] [] := ⟨by simp, by simp⟩

theorem append (h : Cover ps rs) (h' : Cover qs ts) : Cover (ps ++ qs) (rs ++ ts) := by
  constructor
  · intro r member
    obtain member | member := List.mem_append.1 member
    · obtain ⟨p, found, shows⟩ := h.shown r member
      exact ⟨p, List.mem_append_left _ found, shows⟩
    · obtain ⟨p, found, shows⟩ := h'.shown r member
      exact ⟨p, List.mem_append_right _ found, shows⟩
  · intro p member
    obtain member | member := List.mem_append.1 member
    · obtain ⟨r, found, shows⟩ := h.held p member
      exact ⟨r, List.mem_append_left _ found, shows⟩
    · obtain ⟨r, found, shows⟩ := h'.held p member
      exact ⟨r, List.mem_append_right _ found, shows⟩

theorem shift (h : Cover ps rs) (k : Nat) : Cover (ps.map (Passage.shift k)) rs := by
  constructor
  · intro r member
    obtain ⟨p, found, shows⟩ := h.shown r member
    exact ⟨p.shift k, List.mem_map_of_mem found, shows⟩
  · intro p member
    obtain ⟨q, found, rfl⟩ := List.mem_map.1 member
    exact h.held q found

/-- Passages may be repeated at another depth. -/
theorem again (h : Cover ps rs)
    (more : ∀ p ∈ inner, ∃ q ∈ ps, p.text = q.text ∧ p.exposed = q.exposed) :
    Cover (ps ++ inner) rs := by
  constructor
  · intro r member
    obtain ⟨p, found, shows⟩ := h.shown r member
    exact ⟨p, List.mem_append_left _ found, shows⟩
  · intro p member
    obtain member | member := List.mem_append.1 member
    · exact h.held p member
    · obtain ⟨q, found, text, exposed⟩ := more p member
      obtain ⟨r, member, shows⟩ := h.held q found
      exact ⟨r, member, text.trans shows.1, exposed ▸ shows.2⟩

/-- The passages of a function: the patterns that a wrapped body repeats are among those of the
parameters. -/
theorem function (params : Cover ps rs) (repeated : ∀ p ∈ inner, p ∈ ps) (body : Cover qs ts)
    (wrapped : Bool) : Cover (ps ++ Passage.inBody wrapped inner qs) (rs ++ ts) := by
  unfold Passage.inBody
  cases wrapped with
  | false => exact params.append (body.shift 1)
  | true =>
    have twice : Cover (ps ++ inner.map (Passage.shift 1)) rs := by
      refine params.again fun p member => ?_
      obtain ⟨q, found, rfl⟩ := List.mem_map.1 member
      exact ⟨q, repeated q found, rfl, rfl⟩
    rw [if_pos rfl, List.map_append, ← List.append_assoc]
    exact twice.append ((body.shift 1).shift 1)

theorem ofComment (cs : List Char) (defaulted : Bool) :
    Cover (Passage.ofComment cs) ((Passage.ofComment cs).map fun p => ⟨p.text, defaulted⟩) := by
  have sheltered : ∀ p ∈ Passage.ofComment cs, p.Shows ⟨p.text, defaulted⟩ := by
    unfold Passage.ofComment
    split
    · simp [Passage.Shows]
    · simp
  constructor
  · intro r member
    obtain ⟨p, found, rfl⟩ := List.mem_map.1 member
    exact ⟨p, found, sheltered p found⟩
  · intro p member
    exact ⟨_, List.mem_map_of_mem member, sheltered p member⟩

end Script.Passage.Cover

open Script.Passage (Cover)

theorem Param.mem_allPassages_of_binding {p : Passage} :
    ∀ params : List (Param Pattern Expr), p ∈ Param.bindingPassages params →
      p ∈ Param.allPassages params
  | ⟨_, _, _, none, _⟩ :: params, h =>
    List.mem_append.2 ((List.mem_append.1 h).imp_right (mem_allPassages_of_binding params))
  | ⟨_, _, _, some _, _⟩ :: params, h =>
    List.mem_append.2 ((List.mem_append.1 h).imp (List.mem_append_left _)
      (mem_allPassages_of_binding params))

mutual

theorem Pattern.cover_rawTexts : ∀ (p : Pattern) (exposed : Bool), p.Surface →
    Cover (p.passages exposed) p.rawTexts
  | .ident _, _, _ => .nil
  | .default target value, exposed, h =>
    (Pattern.cover_rawTexts target true h.1).append
      (Expr.cover_rawTexts value false exposed true (fun _ => rfl) h.2)
  | .object fields _, _, h => Pattern.cover_fieldTexts fields h
  | .array elements _, _, h => Pattern.cover_elementTexts elements h
  | .stray _, _, h => h.elim
termination_by structural p => p

theorem Pattern.cover_fieldTexts : ∀ fields : List (PatternField Pattern),
    Pattern.FieldsSurface fields → Cover (Pattern.fieldPassages fields) (Pattern.fieldTexts fields)
  | [], _ => .nil
  | ⟨_, value⟩ :: fields, h =>
    (Pattern.cover_rawTexts value true h.1).append (Pattern.cover_fieldTexts fields h.2)
termination_by structural fields => fields

theorem Pattern.cover_elementTexts : ∀ elements : List (Option Pattern),
    Pattern.ElementsSurface elements →
    Cover (Pattern.elementPassages elements) (Pattern.elementTexts elements)
  | [], _ => .nil
  | none :: elements, h => Pattern.cover_elementTexts elements h
  | some element :: elements, h =>
    (Pattern.cover_rawTexts element true h.1).append (Pattern.cover_elementTexts elements h.2)
termination_by structural elements => elements

theorem Param.cover_allTexts : ∀ params : List (Param Pattern Expr), Param.AllSurface params →
    Cover (Param.allPassages params) (Param.allTexts params)
  | [], _ => .nil
  | ⟨binding, _, _, none, _⟩ :: params, h =>
    (Pattern.cover_rawTexts binding true h.1).append (Param.cover_allTexts params h.2)
  | ⟨binding, _, _, some _, true⟩ :: params, h =>
    ((Pattern.cover_rawTexts binding true h.1.1).append .nil).append
      (Param.cover_allTexts params h.2)
  | ⟨binding, _, _, some value, false⟩ :: params, h =>
    ((Pattern.cover_rawTexts binding true h.1.1).append
      (Expr.cover_rawTexts value false true true (fun _ => rfl) h.1.2)).append
      (Param.cover_allTexts params h.2)
termination_by structural params => params

/-- An exposed expression is a default value. -/
theorem Expr.cover_rawTexts : ∀ (e : Expr) (checked exposed defaulted : Bool),
    (exposed = true → defaulted = true) → e.Surface →
    Cover (e.passages checked exposed) (e.rawTexts defaulted)
  | .raw text, _, exposed, defaulted, guarded, _ => by
    have shows : Passage.Shows { text := text.toList, exposed } ⟨text.toList, defaulted⟩ :=
      ⟨rfl, guarded⟩
    constructor
    · simpa [Expr.rawTexts, Expr.passages] using shows
    · simpa [Expr.rawTexts, Expr.passages] using shows
  | .ident _, _, _, _, _, _ | .number _, _, _, _, _, _ => .nil
  | .call callee args, _, _, _, _, ⟨module, h⟩ => by
    cases h
    exact .nil
  | .function ⟨params, _, _⟩ body _ _, checked, _, defaulted, _, h =>
    (Param.cover_allTexts params h.1).function (fun _ => Param.mem_allPassages_of_binding params)
      (Stmt.cover_allTexts body checked defaulted h.2) _
  | .arrow ⟨params, _, _⟩ (.block stmts) _, checked, _, defaulted, _, h =>
    (Param.cover_allTexts params h.1).function (fun _ => Param.mem_allPassages_of_binding params)
      (Stmt.cover_allTexts stmts checked defaulted h.2) _
  | .arrow ⟨params, _, _⟩ (.expression value) _, true, _, defaulted, _, h =>
    (Param.cover_allTexts params h.1).function (fun _ => Param.mem_allPassages_of_binding params)
      (Expr.cover_rawTexts value true false defaulted (fun h => Bool.noConfusion h) h.2) _
  | .arrow ⟨params, _, _⟩ (.expression value) _, false, exposed, defaulted, guarded, h =>
    (Param.cover_allTexts params h.1).append
      (Expr.cover_rawTexts value false exposed defaulted guarded h.2)
  | .this, _, _, _, _, h | .member _ _, _, _, _, _, h | .string _, _, _, _, _, h
  | .array _, _, _, _, _, h | .object _, _, _, _, _, h | .spread _, _, _, _, _, h
  | .binary _ _ _, _, _, _, _, h | .stray _, _, _, _, _, h => h.elim
termination_by structural e => e

theorem Stmt.cover_rawTexts : ∀ (s : Stmt) (checked defaulted : Bool), s.Surface →
    Cover (s.passages checked) (s.rawTexts defaulted)
  | .ret none, _, _, _ | .imports _, _, _, _ | .typeAlias _, _, _, _ | .interface _, _, _, _ => .nil
  | .ret (some argument), checked, defaulted, h =>
    Expr.cover_rawTexts argument checked false defaulted (fun h => Bool.noConfusion h) h
  | .raw text, _, defaulted, _ => .ofComment (trimLines text).toList defaulted
  | .var _ target none _, _, _, h => Pattern.cover_rawTexts target false h
  | .var _ target (some init) _, checked, defaulted, h =>
    (Pattern.cover_rawTexts target true h.1).append
      (Expr.cover_rawTexts init checked false defaulted (fun h => Bool.noConfusion h) h.2)
  | .function _ ⟨params, _, _⟩ body _, checked, defaulted, h =>
    (Param.cover_allTexts params h.1).function (fun _ => Param.mem_allPassages_of_binding params)
      (Stmt.cover_allTexts body checked defaulted h.2) _
  | .exports declaration _, checked, defaulted, h =>
    Stmt.cover_rawTexts declaration checked defaulted h
  | .block _, _, _, h | .expr _, _, _, h | .stray _, _, _, h => h.elim
termination_by structural s => s

theorem Stmt.cover_allTexts : ∀ (ss : List Stmt) (checked defaulted : Bool), Stmt.AllSurface ss →
    Cover (Stmt.allPassages checked ss) (Stmt.allTexts defaulted ss)
  | [], _, _, _ => .nil
  | s :: ss, checked, defaulted, h =>
    (Stmt.cover_rawTexts s checked defaulted h.1).append
      (Stmt.cover_allTexts ss checked defaulted h.2)
termination_by structural ss => ss

end

/-! ## Compiled programs -/

section
variable {options : Options} {file source code : String} {program : Program}

/-- The raw text of a program. -/
def Program.rawTexts (program : Program) : List RawText := Stmt.allTexts false program.body

/-- The passages that the raw text of a program becomes. -/
def Program.passages (options : Options) (program : Program) : List Passage :=
  Stmt.allPassages (!options.skipAsserts) program.body

theorem exists_print_of_compile (parsed : Program.parse file source = .ok program)
    (compiled : (compile options file source).result = .ok code) :
    ∃ lowered, (program.lower options).1 = .ok lowered ∧ lowered.print = .ok code := by
  unfold compile Program.compile at compiled
  rw [parsed] at compiled
  rcases run : program.lower options with ⟨result, journal⟩
  simp only [run] at compiled
  cases result with
  | error d => cases compiled
  | ok lowered =>
    refine ⟨lowered, rfl, ?_⟩
    change lowered.print.mapError PrintError.diagnostic = .ok code at compiled
    cases printed : lowered.print with
    | error e =>
      rw [printed] at compiled
      cases compiled
    | ok text =>
      rw [printed] at compiled
      exact congrArg Except.ok (Except.ok.inj compiled)

theorem indents_defaultUnit : Indents defaultUnit := ⟨by decide, by decide⟩

/-- Statements that are printed at the outermost level, behind whatever is there already. -/
theorem Stmt.woven_of_printStmts {ss : List Stmt} {l out : Layout} (level : l.level = 0)
    (same : l.unit = defaultUnit) (h : printStmts defaultUnit ss l = .ok out) :
    Woven defaultUnit (Passage.Stands defaultUnit) out.text.toList (Stmt.allPassages false ss) := by
  obtain ⟨cs, lays, woven⟩ := Stmt.printsAll indents_defaultUnit ss h
  obtain rfl := Except.ok.inj ((lays.runs l same).symm.trans h)
  have margin : l.margin.toList = [] := by simp [Layout.margin, level, String.join]
  have flat := woven 0
  rw [indentation_zero, Passage.map_shift_zero] at flat
  simpa [Layout.lay, margin] using flat.front l.text.toList

theorem Program.woven_of_compile (parsed : Program.parse file source = .ok program)
    (compiled : (TypeGuard.compile options file source).result = .ok code) :
    Woven defaultUnit (Passage.Stands defaultUnit) code.toList (program.passages options) := by
  obtain ⟨lowered, lower, print⟩ := exists_print_of_compile parsed compiled
  obtain ⟨-, body, lowers, printed⟩ := Program.lowers_setting lower
  have bare : (program.libraryReference options).nodes .all [] = [] :=
    Program.nodes_libraryReference options program
  have passages : Stmt.allPassages false body = program.passages options :=
    Stmt.allPassages_of_allLower bare program.body lowers
  unfold Program.print at print
  obtain ⟨out, run, text⟩ := bind_eq_ok_iff.1 print
  obtain rfl : out.text = code := Except.ok.inj text
  rw [← passages]
  split at printed
  · -- The assertion helper is one more statement in front.
    obtain ⟨helper, -, front⟩ := printed
    rw [front, printStmts] at run
    obtain ⟨mid, first, rest⟩ := bind_eq_ok_iff.1 run
    cases first
    exact Stmt.woven_of_printStmts rfl rfl rest
  · rw [printed] at run
    exact Stmt.woven_of_printStmts rfl rfl run

theorem Program.cover_rawTexts (parsed : Program.parse file source = .ok program) :
    Cover (program.passages options) program.rawTexts :=
  Stmt.cover_allTexts program.body _ false (Program.parse_surface parsed)

/-- Every raw text of a program is printed in its place, and in the order of the output the passages
that it becomes do not overlap. Behind the first line a passage moves to the margin of its depth,
and its blank lines are emptied. So it is the raw text itself exactly if that has one line only, or
if it stands at the outermost level and its blank inner lines are empty. -/
theorem Program.rawTexts_printed (parsed : Program.parse file source = .ok program)
    (compiled : (TypeGuard.compile options file source).result = .ok code) :
    Woven defaultUnit (fun _ _ => True) code.toList (program.passages options) ∧
    Cover (program.passages options) program.rawTexts ∧
    ∀ p ∈ program.passages options, (p.form defaultUnit = p.text ↔ '\n' ∉ p.text ∨
      (p.depth = 0 ∧ ∀ l ∈ innerLines p.text, l.all Text.isBlank = true → l = [])) := by
  refine ⟨(Program.woven_of_compile parsed compiled).mono fun _ _ _ => trivial,
    Program.cover_rawTexts parsed, fun p _ => ?_⟩
  rw [Passage.form, reindent_eq_self_iff (not_mem_indentation indents_defaultUnit.feedless _),
    indentation_eq_nil_iff (by decide)]

/-- A template of three lines on the outermost level, a default value and a statement that end in
comments, and in the body of an arrow function, which stands in a wrapped body, a template of two
lines with a comment behind it. -/
def mixedTexts : String :=
  "(program (const s \"`a\\n \\nb`\")"
    ++ " (function f ((pattern (obj (default v \"1 // one\")))) (returns any)"
    ++ " (body (stmt \"go(); // now\") (return (arrow (x) \"`p\\n\\tq` // last\")))))"

/-- What is made of it. -/
def mixedCode : String :=
  "const s = `a\n\nb`;\n"
    ++ "function f(\x7bv = 1 // one\x7d) \x7b\n"
    ++ "    const _ret = (function (\x7bv = 1 // one\x7d) \x7b\n"
    ++ "        go(); // now\n"
    ++ "        return (x) => \x7b\n"
    ++ "            return `p\n            \tq` // last;\n"
    ++ "        \x7d;\n"
    ++ "    \x7d).call(this, \x7bv\x7d);\n"
    ++ "    _assert(_ret, require(\"tcomb\").Any, \"return value\");\n"
    ++ "    return _ret;\n"
    ++ "\x7d\n"

/-- Its passages; those in the pattern are printed twice. -/
def mixedPassages : List Passage :=
  [⟨"`a\n \nb`".toList, 0, false⟩, ⟨"1 // one".toList, 0, true⟩, ⟨"1 // one".toList, 1, true⟩,
    ⟨"go(); // now".toList, 2, false⟩, ⟨"`p\n\tq` // last".toList, 3, false⟩]

theorem mixedTexts_compiled :
    ∃ program, Program.parse "mixed" mixedTexts = .ok program ∧
      (compile { skipHelpers := true } "mixed" mixedTexts).result = .ok mixedCode ∧
      program.passages { skipHelpers := true } = mixedPassages := by
  have run : (lowerSource? { skipHelpers := true } "mixed" mixedTexts).map
      (fun (program, _) => program.passages { skipHelpers := true }) = some mixedPassages := by
    decide +kernel
  obtain ⟨program, _, parsed, _, passages⟩ := exists_of_lowerSource? run
  exact ⟨program, parsed, by decide +kernel, passages⟩

theorem mixedTexts_printed :
    ∃ program, Program.parse "mixed" mixedTexts = .ok program ∧
      (compile { skipHelpers := true } "mixed" mixedTexts).result = .ok mixedCode ∧
      program.passages { skipHelpers := true } = mixedPassages ∧
      Woven defaultUnit (fun _ _ => True) mixedCode.toList mixedPassages ∧
      Cover mixedPassages program.rawTexts ∧
      ∀ p ∈ mixedPassages, (p.form defaultUnit = p.text ↔ '\n' ∉ p.text ∨
        (p.depth = 0 ∧ ∀ l ∈ innerLines p.text, l.all Text.isBlank = true → l = [])) := by
  obtain ⟨program, parsed, code, passages⟩ := mixedTexts_compiled
  have printed := Program.rawTexts_printed parsed code
  rw [passages] at printed
  exact ⟨program, parsed, code, passages, printed⟩

/-- In a body, the second line of a template is indented with the code around it. -/
theorem indentedTemplate_not_verbatim :
    ∃ program, Program.parse "indented" "(program (function f () (body (return \"`a\\nb`\"))))"
        = .ok program ∧ ⟨"`a\nb`".toList, false⟩ ∈ program.rawTexts ∧
      (compile { skipHelpers := true } "indented"
        "(program (function f () (body (return \"`a\\nb`\"))))").result
        = .ok "function f() \x7b\n    return `a\n    b`;\n\x7d\n" ∧
      ¬ "`a\nb`".toList <:+: "function f() \x7b\n    return `a\n    b`;\n\x7d\n".toList := by
  have run : (lowerSource? { skipHelpers := true } "indented"
      "(program (function f () (body (return \"`a\\nb`\"))))").map
      (fun (program, _) => decide (⟨"`a\nb`".toList, false⟩ ∈ program.rawTexts)) = some true := by
    decide +kernel
  obtain ⟨program, _, parsed, _, member⟩ := exists_of_lowerSource? run
  exact ⟨program, parsed, of_decide_eq_true member, by decide +kernel, by decide +kernel⟩

/-- A comment at the end of raw text swallows nothing but a semicolon, exactly if the passage is not
exposed: the rest of its line is empty or a semicolon. Only text in default values is exposed. -/
theorem Program.comments_guarded_iff (parsed : Program.parse file source = .ok program)
    (compiled : (TypeGuard.compile options file source).result = .ok code) :
    Woven defaultUnit (fun p after => p.marked = true →
      (p.exposed = false ↔ firstLine after ∈ [[], [';']])) code.toList (program.passages options) ∧
    Cover (program.passages options) program.rawTexts :=
  ⟨(Program.woven_of_compile parsed compiled).mono fun _ _ stands => stands.guarded,
    Program.cover_rawTexts parsed⟩

theorem mixedTexts_comments_guarded_iff :
    ∃ program, Program.parse "mixed" mixedTexts = .ok program ∧
      (compile { skipHelpers := true } "mixed" mixedTexts).result = .ok mixedCode ∧
      program.passages { skipHelpers := true } = mixedPassages ∧
      mixedPassages.map Passage.marked = [false, true, true, true, true] ∧
      Woven defaultUnit (fun p after => p.marked = true →
        (p.exposed = false ↔ firstLine after ∈ [[], [';']])) mixedCode.toList mixedPassages ∧
      Cover mixedPassages program.rawTexts := by
  obtain ⟨program, parsed, code, passages⟩ := mixedTexts_compiled
  have guarded := Program.comments_guarded_iff parsed code
  rw [passages] at guarded
  exact ⟨program, parsed, code, passages, by decide +kernel, guarded⟩

/-- The comment of a default value swallows the end of the parameters and the brace behind it. -/
theorem commentedDefault_swallows :
    ∃ program, Program.parse "swallowed" "(program (function f ((default x \"1 // one\")) (body)))"
        = .ok program ∧ ⟨"1 // one".toList, true⟩ ∈ program.rawTexts ∧
      (compile { skipHelpers := true } "swallowed"
        "(program (function f ((default x \"1 // one\")) (body)))").result
        = .ok ("function f(x = " ++ "1 // one" ++ ") \x7b\n\x7d\n") ∧
      firstLine ") \x7b\n\x7d\n".toList = ") \x7b".toList := by
  have run : (lowerSource? { skipHelpers := true } "swallowed"
      "(program (function f ((default x \"1 // one\")) (body)))").map
      (fun (program, _) => decide (⟨"1 // one".toList, true⟩ ∈ program.rawTexts)) = some true := by
    decide +kernel
  obtain ⟨program, _, parsed, _, member⟩ := exists_of_lowerSource? run
  exact ⟨program, parsed, of_decide_eq_true member, by decide +kernel, by decide +kernel⟩

end

end TypeGuard
