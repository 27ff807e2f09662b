import TypeGuard.Proofs.Form.Assembly
import TypeGuard.Proofs.Surface.Rendering.Stmt

/-!
# Texts of programs are read as the programs

Every tree of the surface syntax has a form that can be written and that is read as the tree again,
up to locations. `Program.parse_render` says so of programs and their texts.
-/

namespace TypeGuard

section
variable {file : String}

mutual

/-- Every target that can be read has a form that is read as the target. -/
theorem Pattern.renders : ∀ pattern : Pattern, pattern.Readable →
    Renders (Pattern.ofForm file) Pattern.unlocated pattern pattern.toForm
  | .ident name, h => renders_symbol h.isSymbol ⟨.ident name, rfl, rfl⟩
  | .object fields _, h => Pattern.renders_object (Pattern.rendersAll_fields fields h.1 h.2)
  | .array elements _, h => Pattern.renders_array (Pattern.rendersAll_elements elements h.1 h.2)
  | .default _ _, h => h.elim
  | .stray _, h => h.elim

theorem Pattern.rendersAll_fields {rest : Option String} :
    ∀ fields : List (PatternField Pattern), Pattern.FieldsReadable fields →
    (∀ name ∈ rest, IsPlainName name) →
    RendersAll (Pattern.fieldsOfForms file) Pattern.unlocatedObject (fields, rest)
      (Pattern.fieldForms fields ++ Pattern.restForms rest)
  | [], _, hr => Pattern.rendersAll_restOfObject hr
  | ⟨key, value⟩ :: fields, h, hr =>
    Pattern.rendersAll_field (Pattern.renders_field key value h.1.1) (Pattern.head?_fieldForm h.1.2)
      (Pattern.rendersAll_fields fields h.2 hr)

theorem Pattern.renders_field (key : String) : ∀ value : Pattern, Pattern.FieldReadable key value →
    Renders (Pattern.fieldOfForm file) Pattern.unlocatedField ⟨key, value⟩
      (Pattern.fieldForm key value)
  | .ident _, h => Pattern.renders_fieldName h.1.1 h.1.2 h.2
  | .object fields _, h =>
    Pattern.renders_keyed h.1.1 h.1.2
      (Pattern.renders_object (Pattern.rendersAll_fields fields h.2.1 h.2.2))
  | .array elements _, h =>
    Pattern.renders_keyed h.1.1 h.1.2
      (Pattern.renders_array (Pattern.rendersAll_elements elements h.2.1 h.2.2))
  | .default target value, h =>
    Pattern.renders_fieldDefault (Pattern.renders_field key target h.1) (Expr.renders value h.2)
  | .stray _, h => h.elim

theorem Pattern.rendersAll_elements {rest : Option String} :
    ∀ elements : List (Option Pattern), Pattern.ElementsReadable elements →
    (∀ name ∈ rest, IsPlainName name) →
    RendersAll (Pattern.elementsOfForms file) Pattern.unlocatedArray (elements, rest)
      (Pattern.elementForms elements ++ Pattern.restForms rest)
  | [], _, hr => Pattern.rendersAll_restOfArray hr
  | none :: elements, h, hr =>
    Pattern.rendersAll_element (renders_symbol (isSymbol_keyword rfl) ⟨none, rfl, rfl⟩)
      (by simp [Form.head?]) (Pattern.rendersAll_elements elements h hr)
  | some (.default target value) :: elements, h, hr =>
    Pattern.rendersAll_element
      (Pattern.renders_elementDefault (Pattern.renders target h.1.1) (Expr.renders value h.1.2))
      (by simp [Form.tagged]) (Pattern.rendersAll_elements elements h.2 hr)
  | some (.ident name) :: elements, h, hr =>
    Pattern.rendersAll_element (Pattern.renders_element (Pattern.renders (.ident name) h.1.1) h.1.2)
      (Pattern.head?_toForm (.ident name)) (Pattern.rendersAll_elements elements h.2 hr)
  | some (.object fields other) :: elements, h, hr =>
    Pattern.rendersAll_element
      (Pattern.renders_element (Pattern.renders (.object fields other) h.1.1) h.1.2)
      (Pattern.head?_toForm (.object fields other)) (Pattern.rendersAll_elements elements h.2 hr)
  | some (.array others other) :: elements, h, hr =>
    Pattern.rendersAll_element
      (Pattern.renders_element (Pattern.renders (.array others other) h.1.1) h.1.2)
      (Pattern.head?_toForm (.array others other)) (Pattern.rendersAll_elements elements h.2 hr)
  | some (.stray _) :: elements, h, hr => h.1.1.elim

theorem Param.renders : ∀ param : Param Pattern Expr, param.Readable →
    Renders (Param.ofForm file) Param.unlocated param param.toForm
  | ⟨binding, _, _, none, _⟩, h => Param.renders_target (Pattern.renders binding h.1) h.2
  | ⟨binding, _, _, some value, _⟩, h =>
    Param.renders_default (Param.renders_target (Pattern.renders binding h.1.1) h.1.2)
      (Expr.renders value h.2)

theorem Param.rendersAll : ∀ params : List (Param Pattern Expr), Param.AllReadable params →
    RendersAll (Param.ofForms file) Param.unlocatedAll params (Param.toForms params)
  | [], _ => rendersAll_nil rfl
  | param :: params, h =>
    (Param.renders param h.1).cons (fun _ _ => rfl) (fun _ _ => rfl) (Param.rendersAll params h.2)

/-- Every expression that can be read has a form that is read as the expression. -/
theorem Expr.renders : ∀ value : Expr, value.Readable →
    Renders (Expr.ofForm file) Expr.unlocated value value.toForm
  | .raw text, _ => ⟨trivial, fun _ => ⟨.raw text, rfl, rfl⟩⟩
  | .ident name, h => renders_symbol h.isSymbol ⟨.ident name, rfl, rfl⟩
  | .number (.int n), h => ⟨h, fun _ => ⟨.number (.int n), rfl, rfl⟩⟩
  | .number (.float _), h => h.elim
  | .call callee args, h => by
    obtain ⟨module, same⟩ := h
    rw [same]
    exact Expr.renders_require module
  | .function ⟨params, returnType, typeParams⟩ body name loc, h =>
    Expr.renders_function h.2.2 (Param.rendersAll params h.1.1) h.1.2
      (Stmt.renders_body (Stmt.rendersAll body h.2.1)) (by simp [Form.tagged]) loc
  | .arrow ⟨params, returnType, typeParams⟩ body loc, h =>
    Expr.renders_arrow (Param.rendersAll params h.1.1) h.1.2 (Expr.renders_arrowBody body h.2)
      (Expr.head?_bodyForm h.2) loc
  | .this, h | .member _ _, h | .string _, h | .array _, h | .object _, h | .spread _, h
  | .binary _ _ _, h | .stray _, h => h.elim

theorem Expr.renders_arrowBody : ∀ body : Body Stmt Expr, Expr.BodyReadable body →
    Renders (fun form => Expr.bodyAt file {} 0 [form]) Expr.unlocatedBody body (Expr.bodyForm body)
  | .block stmts, h => Expr.renders_block (Stmt.rendersAll stmts h)
  | .expression value, h => Expr.renders_value (Expr.renders value h) (Expr.head?_toForm h).1

/-- Every statement that can be read has a form that is read as the statement. -/
theorem Stmt.renders : ∀ stmt : Stmt, stmt.Readable →
    Renders (Stmt.ofForm file) Stmt.unlocated stmt stmt.toForm
  | .ret none, _ => renders_tagged (isSymbol_keyword rfl) trivial fun _ _ => ⟨.ret none, rfl, rfl⟩
  | .ret (some argument), h => Stmt.renders_ret (Expr.renders argument h)
  | .raw text, _ =>
    renders_tagged (isSymbol_keyword rfl) ⟨trivial, trivial⟩ fun _ _ => ⟨.raw text, rfl, rfl⟩
  | .var _ target none loc, h => Stmt.renders_var h.1 (Pattern.renders target h.2) loc
  | .var _ target (some init) loc, h =>
    Stmt.renders_initialized h.1 (Pattern.renders target h.2.1) (Expr.renders init h.2.2) loc
  | .function _ ⟨params, returnType, typeParams⟩ body loc, h =>
    Stmt.renders_function h.2.2 (Param.rendersAll params h.1.1) h.1.2
      (Stmt.renders_body (Stmt.rendersAll body h.2.1)) (by simp [Form.tagged]) loc
  | .typeAlias _, h => Stmt.renders_typeAlias h
  | .interface _, h => Stmt.renders_interface h
  | .imports _, h => Stmt.renders_imports h
  | .exports declaration loc, h => Stmt.renders_exports (Stmt.renders declaration h) loc
  | .block _, h | .expr _, h | .stray _, h => h.elim

theorem Stmt.rendersAll : ∀ stmts : List Stmt, Stmt.AllReadable stmts →
    RendersAll (Stmt.ofForms file) Stmt.unlocatedAll stmts (Stmt.toForms stmts)
  | [], _ => rendersAll_nil rfl
  | stmt :: stmts, h =>
    (Stmt.renders stmt h.1).cons (fun _ _ => rfl) (fun _ _ => rfl) (Stmt.rendersAll stmts h.2)

end

end

/-- Every program that can be read has a text that is read as the program, up to locations. -/
theorem Program.parse_render {program : Program} (h : program.Readable) :
    ∃ found, Program.parse program.file program.render = .ok found ∧
      found.unlocated = program.unlocated := by
  have body := @Stmt.rendersAll program.file program.body h
  have writable : program.toForm.Writable := ⟨⟨isSymbol_keyword rfl, body.writable⟩, rfl⟩
  obtain ⟨positions, read⟩ := Form.read_source writable
  obtain ⟨stmts, each, same⟩ := body.reads positions.tail
  refine ⟨⟨stmts, program.file⟩, ?_, by simp [Program.unlocated, same]⟩
  rw [Program.parse, Program.render, read]
  simp [Program.toForm, Form.tagged, Form.locate, Form.locateAll, Program.ofForm, each, bind,
    Except.bind, pure, Except.pure]

/-- Imports, declarations and a function with a pattern, defaults and nested functions. -/
def accounts : Program where
  file := "accounts"
  body :=
    [.imports ⟨"tcomb", [⟨.default, "t", none⟩, ⟨.named, "own", some "other"⟩], .unknown⟩,
      .typeAlias ⟨"Id", .union [.string "a\"b\\" .unknown, .number (.int (-7)) .unknown] .unknown,
        ["T"], .unknown⟩,
      .interface ⟨"Account", .object ⟨[⟨"id", .named ⟨⟨["Id"]⟩, none, .unknown⟩, true, .unknown⟩],
          [⟨.primitive .string .unknown, .primitive .any .unknown, some "key", .unknown⟩], .unknown⟩,
        [⟨⟨["base", "Row"]⟩, some [.boolean true .unknown], .unknown⟩], [], .unknown⟩,
      .exports (.function "open$"
        ⟨[{ binding := .object [⟨"id", .ident "id"⟩,
              ⟨"log", .array [none, some (.default (.ident "last") (.raw "[]"))] (some "older")⟩] none,
            default := some (.ident "empty") },
          { binding := .ident "limit", type := some (.array (.primitive .number .unknown) .unknown),
            optional := true }],
          some (.nullable (.primitive .void .unknown) .unknown), ["T"]⟩
        [.var .const (.ident "f") (some (.arrow ⟨[{ binding := .ident "xs", rest := true }], none, []⟩
            (.expression (.number (.int 3))) .unknown)) .unknown,
          .ret (some (.function ⟨[], none, []⟩ [.raw "x;"] none .unknown))] .unknown) .unknown]

theorem accounts_parse_render : accounts.Readable ∧
    ∃ found, Program.parse accounts.file accounts.render = .ok found ∧
      found.unlocated = accounts.unlocated := by
  have readable : accounts.Readable := by
    simp [accounts, Program.Readable, Stmt.AllReadable, Stmt.Readable, ImportSpecifier.Readable,
      TypeAlias.Readable, InterfaceDecl.Readable, Ty.Readable, Ty.AllReadable,
      Ty.PropertiesReadable, Ty.IndexersReadable, Param.AllReadable, Param.Readable,
      Param.MarksReadable, Signature.PartsReadable, Pattern.Readable, Pattern.FieldsReadable,
      Pattern.FieldReadable, Pattern.ElementsReadable, Pattern.isKeyed, Expr.Readable,
      Expr.BodyReadable, QualifiedName.IsPlain, QualifiedName.IsFree, Number.IsShort]
    decide +kernel
  exact ⟨readable, Program.parse_render readable⟩

/-! ## Integers that are too long -/

namespace Form

mutual

/-- The numbers in a form. -/
def numbers : Form → List Number
  | .number value => [value]
  | .list items _ => allNumbers items
  | .quoted form => numbers form
  | .brackets items => allNumbers items
  | .symbol _ | .text _ => []

def allNumbers : List Form → List Number
  | [] => []
  | form :: forms => numbers form ++ allNumbers forms

end

theorem mem_allNumbers {value : Number} {forms : List Form} :
    value ∈ allNumbers forms ↔ ∃ form ∈ forms, value ∈ form.numbers := by
  induction forms with
  | nil => simp [allNumbers]
  | cons form forms ih => simp [allNumbers, ih]

/-- No integer in the form has more digits than are read. -/
def Bounded (form : Form) : Prop :=
  ∀ n, Number.int n ∈ form.numbers → n.natAbs < Nat.pow 10 Numeral.maxDigits

theorem bounded_ofAtom (cs : List Char) : (ofAtom cs).Bounded := by
  intro n member
  unfold ofAtom at member
  split at member
  · next value read =>
    obtain rfl : Number.int n = value := by simpa [numbers] using member
    exact Numeral.natAbs_lt_of_read? read
  · simp [numbers] at member

theorem bounded_items {items : List Form} (h : ∀ item ∈ items, item.Bounded) :
    (Form.brackets items).Bounded := by
  intro n member
  obtain ⟨item, found, inside⟩ := mem_allNumbers.1 member
  exact h item found n inside

theorem hereditary_bounded : Hereditary Bounded where
  atom := bounded_ofAtom
  text value := by simp [Bounded, numbers]
  quoted form h := h
  list _ := bounded_items
  brackets _ := bounded_items

mutual

theorem numbers_locate : ∀ (form : Form) (positions : List Position),
    (form.locate positions).1.numbers = form.numbers
  | .list items _, positions => allNumbers_locateAll items (positions.drop 1)
  | .symbol _, _ | .text _, _ | .number _, _ | .quoted _, _ | .brackets _, _ => rfl

theorem allNumbers_locateAll : ∀ (forms : List Form) (positions : List Position),
    allNumbers (locateAll positions forms).1 = allNumbers forms
  | [], _ => rfl
  | form :: forms, positions => by
    simp [locateAll, allNumbers, numbers_locate form, allNumbers_locateAll forms]

end

/-- The integers of a text are not too long. -/
theorem bounded_read {source : String} {form : Form} (h : read source = .ok form) :
    form.Bounded := by
  obtain ⟨single, bounded, rfl⟩ := hereditary_bounded.read h
  intro n member
  rw [numbers_locate] at member
  exact bounded n member

end Form

/-- Only numbers are read as numbers. -/
theorem Expr.ofForm_eq_number {file : String} {form : Form} {value : Number}
    (h : Expr.ofForm file form = .ok (.number value)) : form = .number value := by
  unfold Expr.ofForm at h
  split at h
  · cases h
  · cases h
  · cases h
    rfl
  · split at h
    · split at h
      · simp at h
      · simp only [bind_eq_ok_iff, pure_eq_ok_iff, Expr.require, reduceCtorEq, and_false,
          exists_false] at h
    all_goals
      simp only [bind_eq_ok_iff, pure_eq_ok_iff, reduceCtorEq, and_false, exists_false,
        Position.refuse_ne_ok] at h
  · simp at h

/-- The argument of a return statement is its first item. -/
theorem Stmt.ofForm_eq_ret {file : String} {form : Form} {argument : Expr}
    (h : Stmt.ofForm file form = .ok (.ret (some argument))) :
    ∃ tag first others position, form = .list (.symbol tag :: first :: others) position ∧
      Expr.ofForm file first = .ok argument := by
  unfold Stmt.ofForm at h
  split at h
  · next tag items position =>
    split at h
    all_goals
      try simp only [bind_eq_ok_iff, pure_eq_ok_iff, reduceCtorEq, and_false, exists_false,
        Position.refuse_ne_ok] at h
    -- what is left are functions and variables, which are read with a check, and returns
    · obtain ⟨name, -, params, -, signature, -, h⟩ := h
      split at h
      · simp only [bind_eq_ok_iff, pure_eq_ok_iff, reduceCtorEq, and_false, exists_false] at h
      · simp at h
    · split at h
      · simp at h
      · simp only [bind_eq_ok_iff, pure_eq_ok_iff, reduceCtorEq, and_false, exists_false] at h
    · cases h
    · next first others _ =>
      obtain ⟨value, read, same⟩ := h
      cases same
      exact ⟨tag, first, others, position, rfl, read⟩
  · simp at h

theorem Stmt.eq_ret_of_unlocated {s : Stmt} {value : Number}
    (h : s.unlocated = .ret (some (.number value))) : s = .ret (some (.number value)) := by
  cases s with
  | ret argument =>
    cases argument with
    | none => simp [unlocated] at h
    | some e =>
      have same : e.unlocated = .number value := by simpa [unlocated] using h
      cases e <;> simp_all [Expr.unlocated]
  | var kind target init loc => cases init <;> simp [unlocated] at h
  | _ => simp [unlocated] at h

/-- The number that the only statement returns stands in its form. -/
theorem Stmt.mem_numbers_of_ofForms {file : String} {forms : List Form} {stmts : List Stmt}
    {value : Number} (h : Stmt.ofForms file forms = .ok stmts)
    (returns : Stmt.unlocatedAll stmts = [.ret (some (.number value))]) :
    value ∈ Form.allNumbers forms := by
  match forms, stmts, returns with
  | [], _, returns =>
    cases h
    cases returns
  | form :: forms, _, returns =>
    simp only [Stmt.ofForms, bind_eq_ok_iff, pure_eq_ok_iff] at h
    obtain ⟨s, read, ss, -, rfl⟩ := h
    simp only [Stmt.unlocatedAll, List.cons.injEq] at returns
    obtain rfl := Stmt.eq_ret_of_unlocated returns.1
    obtain ⟨tag, first, others, position, rfl, argument⟩ := Stmt.ofForm_eq_ret read
    obtain rfl := Expr.ofForm_eq_number argument
    simp [Form.allNumbers, Form.numbers]

/-- The number that a program returns stands in its text. -/
theorem Program.exists_number_of_parse {file source : String} {found : Program} {value : Number}
    (h : Program.parse file source = .ok found)
    (returns : Stmt.unlocatedAll found.body = [.ret (some (.number value))]) :
    ∃ form, Form.read source = .ok form ∧ value ∈ form.numbers := by
  unfold Program.parse at h
  split at h
  · cases h
  · next form read =>
    refine ⟨form, read, ?_⟩
    unfold Program.ofForm at h
    split at h
    · next items position =>
      obtain ⟨stmts, each, rfl⟩ : ∃ stmts, Stmt.ofForms file (items.drop 1) = .ok stmts ∧
          ⟨stmts, file⟩ = found := by
        simp only at h
        split at h
        · simpa only [bind_eq_ok_iff, pure_eq_ok_iff] using h
        · simp at h
      obtain ⟨item, member, inside⟩ :=
        Form.mem_allNumbers.1 (Stmt.mem_numbers_of_ofForms each returns)
      exact Form.mem_allNumbers.2 ⟨item, List.mem_of_mem_drop member, inside⟩
    · simp at h

/-- A program that returns an integer of one digit more than are read. -/
def longReturn : Program where
  body := [.ret (some (.number (.int (Nat.pow 10 Numeral.maxDigits : Nat))))]
  file := "<string>"

/-- No text is read as the program. -/
theorem longReturn_not_parsed :
    ¬ ∃ source found, Program.parse longReturn.file source = .ok found ∧
      found.unlocated = longReturn.unlocated := by
  rintro ⟨source, found, parsed, same⟩
  obtain ⟨form, read, inside⟩ :=
    Program.exists_number_of_parse parsed (congrArg Program.body same)
  have short := Form.bounded_read read _ inside
  rw [Int.natAbs_natCast] at short
  exact Nat.lt_irrefl _ short

end TypeGuard
