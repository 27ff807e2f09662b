import TypeGuard.Proofs.Surface.Rendering.Program
import TypeGuard.Proofs.Surface.Trees

/-!
# Patterns and parameters as forms

The form of each kind of pattern and parameter is read as that pattern or parameter, if the forms of
its parts are.
-/

namespace TypeGuard

theorem Form.head?_locate (form : Form) (positions : List Position) :
    (form.locate positions).1.head? = form.head? := by
  cases form with
  | list items position =>
    cases items with
    | nil => rfl
    | cons first items => cases first <;> rfl
  | symbol | text | number | quoted | brackets => rfl

@[simp] theorem Form.head?_list (tag : String) (items : List Form) (position : Position) :
    (Form.list (.symbol tag :: items) position).head? = some tag := rfl

theorem Form.locateAll_symbols (positions : List Position) (names : List String) :
    Form.locateAll positions (names.map .symbol) = (names.map .symbol, positions) := by
  induction names with
  | nil => rfl
  | cons name names ih => simp [locateAll, locate, ih]

theorem Form.locateAll_append (positions : List Position) (first second : List Form) :
    (Form.locateAll positions (first ++ second)).1
      = (Form.locateAll positions first).1
        ++ (Form.locateAll (Form.locateAll positions first).2 second).1 := by
  induction first generalizing positions with
  | nil => rfl
  | cons form first ih => simp [locateAll, ih]

theorem Form.allWritable_symbols {names : List String} (h : ∀ name ∈ names, IsPlainName name) :
    Form.AllWritable (names.map .symbol) := by
  induction names with
  | nil => trivial
  | cons name names ih =>
    obtain ⟨first, others⟩ := List.forall_mem_cons.1 h
    exact ⟨first.isSymbol, ih others⟩

theorem Form.allWritable_append {first second : List Form} (h : AllWritable first)
    (hs : AllWritable second) : AllWritable (first ++ second) := by
  induction first with
  | nil => exact hs
  | cons form first ih => exact ⟨h.1, ih h.2⟩

section
variable {file : String}

/-! ## Patterns -/

namespace Pattern

/-- The fields of an object pattern without their locations, and the name for the rest. -/
def unlocatedObject (parts : List (PatternField Pattern) × Option String) :
    List (PatternField Pattern) × Option String :=
  (unlocatedFields parts.1, parts.2)

/-- The elements of an array pattern without their locations, and the name for the rest. -/
def unlocatedArray (parts : List (Option Pattern) × Option String) :
    List (Option Pattern) × Option String :=
  (unlocatedElements parts.1, parts.2)

def unlocatedField (field : PatternField Pattern) : PatternField Pattern :=
  ⟨field.key, field.value.unlocated⟩

section
variable {α : Type} {readParts : List Form → Except ParseError (List α × Option String)}
  {bareParts : List α × Option String → List α × Option String}

/-- The name for the rest, after all fields or elements. -/
theorem rendersAll_rest (ends : readParts [] = .ok ([], none))
    (named : ∀ name position,
      readParts [.list [.symbol "rest", .symbol name] position] = .ok ([], some name))
    {rest : Option String} (h : ∀ name ∈ rest, IsPlainName name) :
    RendersAll readParts bareParts ([], rest) (restForms rest) := by
  cases rest with
  | none => exact ⟨trivial, fun _ => ⟨([], none), ends, rfl⟩⟩
  | some name =>
    exact rendersAll_tagged_cons (isSymbol_keyword rfl) ⟨(h name rfl).isSymbol, trivial⟩ trivial
      fun _ position _ => ⟨([], some name), named name position, rfl⟩

/-- A field or an element in front of others, whose form is not taken for the rest. -/
theorem rendersAll_cons_part {read : Form → Except ParseError α} {bare : α → α} {a : α}
    {parts : List α × Option String} {form : Form} {forms : List Form}
    (each : ∀ form forms, form.head? ≠ some "rest" → readParts (form :: forms) = do
      let a ← read form
      let parts ← readParts forms
      return (a :: parts.1, parts.2))
    (bareEach : ∀ a parts, bareParts (a :: parts.1, parts.2)
      = (bare a :: (bareParts parts).1, (bareParts parts).2))
    (h : Renders read bare a form) (head : form.head? ≠ some "rest")
    (hs : RendersAll readParts bareParts parts forms) :
    RendersAll readParts bareParts (a :: parts.1, parts.2) (form :: forms) := by
  refine ⟨⟨h.writable, hs.writable⟩, fun positions => ?_⟩
  obtain ⟨found, first, same⟩ := h.reads positions
  obtain ⟨others, rest, sameRest⟩ := hs.reads (form.locate positions).2
  refine ⟨(found :: others.1, others.2), ?_, by rw [bareEach, bareEach, same, sameRest]⟩
  rw [← Form.head?_locate form positions] at head
  simp [Form.locateAll, each _ _ head, first, rest, bind, Except.bind, pure, Except.pure]

end

theorem rendersAll_restOfObject {rest : Option String} (h : ∀ name ∈ rest, IsPlainName name) :
    RendersAll (fieldsOfForms file) unlocatedObject ([], rest) (restForms rest) :=
  rendersAll_rest rfl (fun _ _ => rfl) h

theorem rendersAll_restOfArray {rest : Option String} (h : ∀ name ∈ rest, IsPlainName name) :
    RendersAll (elementsOfForms file) unlocatedArray ([], rest) (restForms rest) :=
  rendersAll_rest rfl (fun _ _ => rfl) h

theorem renders_object {fields : List (PatternField Pattern)} {rest : Option String}
    {forms : List Form} (h : RendersAll (fieldsOfForms file) unlocatedObject (fields, rest) forms) :
    Renders (ofForm file) unlocated (.object fields rest) (.tagged "obj" forms) := by
  refine h.tagged (isSymbol_keyword rfl) (fun _ parts => .object parts.1 parts.2)
    (fun items position => by simp [ofForm]) fun _ parts same => ?_
  simp_all [unlocated, unlocatedObject]

theorem renders_array {elements : List (Option Pattern)} {rest : Option String}
    {forms : List Form}
    (h : RendersAll (elementsOfForms file) unlocatedArray (elements, rest) forms) :
    Renders (ofForm file) unlocated (.array elements rest) (.tagged "arr" forms) := by
  refine h.tagged (isSymbol_keyword rfl) (fun _ parts => .array parts.1 parts.2)
    (fun items position => by simp [ofForm]) fun _ parts same => ?_
  simp_all [unlocated, unlocatedArray]

/-! ### Fields -/

/-- A field with its key in front of the target. -/
theorem renders_keyed {key : String} {target : Pattern} {form : Form} (name : IsPlainName key)
    (other : key ≠ "default") (h : Renders (ofForm file) unlocated target form) :
    Renders (fieldOfForm file) unlocatedField ⟨key, target⟩ (.tagged key [form]) := by
  exact h.tagged name.isSymbol (fun _ pattern => ⟨key, pattern⟩)
    (fun item position => by simp [fieldOfForm, other])
    fun _ pattern same => by simp [unlocatedField, same]

theorem renders_fieldName {key name : String} (plain : IsPlainName key) (target : IsPlainName name)
    (other : name ≠ key → key ≠ "default") :
    Renders (fieldOfForm file) unlocatedField ⟨key, .ident name⟩ (fieldForm key (.ident name)) := by
  by_cases same : name = key
  · subst same
    rw [fieldForm, if_pos rfl]
    exact renders_symbol plain.isSymbol ⟨_, rfl, rfl⟩
  · rw [fieldForm, if_neg same]
    exact renders_keyed plain (other same) (renders_symbol target.isSymbol ⟨_, rfl, rfl⟩)

theorem renders_fieldDefault {key : String} {target : Pattern} {value : Expr} {form e : Form}
    (h : Renders (fieldOfForm file) unlocatedField ⟨key, target⟩ form)
    (hv : Renders (Expr.ofForm file) Expr.unlocated value e) :
    Renders (fieldOfForm file) unlocatedField ⟨key, .default target value⟩
      (.tagged "default" [form, e]) := by
  refine h.tagged_pair hv (isSymbol_keyword rfl)
    (fun _ field v => ⟨field.key, .default field.value v⟩)
    (fun item value position => by simp [fieldOfForm]) fun _ field v same sameValue => ?_
  simp_all [unlocatedField, unlocated]

/-- A field in front of others, whose form is not taken for the rest. -/
theorem rendersAll_field {field : PatternField Pattern} {fields : List (PatternField Pattern)}
    {rest : Option String} {form : Form} {forms : List Form}
    (h : Renders (fieldOfForm file) unlocatedField field form) (head : form.head? ≠ some "rest")
    (hs : RendersAll (fieldsOfForms file) unlocatedObject (fields, rest) forms) :
    RendersAll (fieldsOfForms file) unlocatedObject (field :: fields, rest) (form :: forms) := by
  refine rendersAll_cons_part (fun form forms other => ?_) (fun field parts => ?_) h head hs
  · simp [fieldsOfForms, other]
  · simp [unlocatedObject, unlocatedFields, unlocatedField]

theorem head?_fieldForm {key : String} {value : Pattern}
    (h : value.isKeyed key = true → key ≠ "rest") :
    (fieldForm key value).head? ≠ some "rest" := by
  cases value with
  | ident name =>
    by_cases same : name = key
    · simp [fieldForm, same, Form.head?]
    · have keyed : key ≠ "rest" := h (by simp [isKeyed, same])
      simpa [fieldForm, same, Form.head?, Form.tagged] using keyed
  | object fields rest => simpa [fieldForm, Form.head?, Form.tagged] using h rfl
  | array elements rest => simpa [fieldForm, Form.head?, Form.tagged] using h rfl
  | default target value => simp [fieldForm, Form.head?, Form.tagged]
  | stray value => simp [fieldForm, Form.head?]

/-! ### Elements -/

/-- An element of an array pattern in front of others. -/
theorem rendersAll_element {element : Option Pattern} {elements : List (Option Pattern)}
    {rest : Option String} {form : Form} {forms : List Form}
    (h : Renders (elementOfForm file) (·.map unlocated) element form)
    (head : form.head? ≠ some "rest")
    (hs : RendersAll (elementsOfForms file) unlocatedArray (elements, rest) forms) :
    RendersAll (elementsOfForms file) unlocatedArray (element :: elements, rest)
      (form :: forms) := by
  refine rendersAll_cons_part (fun form forms other => ?_) (fun element parts => ?_) h head hs
  · simp [elementsOfForms, other]
  · cases element <;> simp [unlocatedArray, unlocatedElements]

theorem renders_elementDefault {target : Pattern} {value : Expr} {form e : Form}
    (h : Renders (ofForm file) unlocated target form)
    (hv : Renders (Expr.ofForm file) Expr.unlocated value e) :
    Renders (elementOfForm file) (·.map unlocated) (some (.default target value))
      (.tagged "default" [form, e]) := by
  exact h.tagged_pair hv (isSymbol_keyword rfl) (fun _ pattern v => some (.default pattern v))
    (fun item value position => by simp [elementOfForm])
    fun _ pattern v same sameValue => by simp [unlocated, same, sameValue]

/-- An element without a default is read like a target, but for the word for holes. -/
theorem elementOfForm_eq_ok {form : Form} {pattern : Pattern} (h : ofForm file form = .ok pattern)
    (hole : pattern ≠ .ident "_") : elementOfForm file form = .ok (some pattern) := by
  cases form with
  | symbol name =>
    obtain rfl : Pattern.ident name = pattern := by simpa [ofForm] using h
    have other : name ≠ "_" := by
      rintro rfl
      exact hole rfl
    simp [elementOfForm, other]
  | list items position =>
    match items with
    | .symbol tag :: items =>
      have tagged : tag = "obj" ∨ tag = "arr" := by
        by_cases object : tag = "obj"
        · exact .inl object
        · by_cases array : tag = "arr"
          · exact .inr array
          · simp [ofForm, object, array] at h
      have same : elementOfForm file (.list (.symbol tag :: items) position)
          = do return some (← ofForm file (.list (.symbol tag :: items) position)) := by
        rcases tagged with rfl | rfl <;> simp [elementOfForm, ofForm]
      rw [same, h]
      rfl
    | [] | .list _ _ :: _ | .text _ :: _ | .number _ :: _ | .quoted _ :: _ | .brackets _ :: _ =>
      simp [ofForm] at h
  | text | number | quoted | brackets => simp [ofForm] at h

theorem renders_element {element : Pattern} {form : Form}
    (h : Renders (ofForm file) unlocated element form) (hole : element ≠ .ident "_") :
    Renders (elementOfForm file) (·.map unlocated) (some element) form := by
  refine ⟨h.writable, fun positions => ?_⟩
  obtain ⟨pattern, read, same⟩ := h.reads positions
  have other : pattern ≠ .ident "_" := by
    rintro rfl
    cases element with
    | ident name => exact hole same.symm
    | object | array | default | stray => simp [unlocated] at same
  exact ⟨some pattern, elementOfForm_eq_ok read other, congrArg some same⟩

theorem head?_toForm (pattern : Pattern) : pattern.toForm.head? ≠ some "rest" := by
  cases pattern <;> simp [toForm, Form.tagged, Form.head?]

end Pattern

/-! ## Parameters -/

namespace Param

/-- A parameter without a default. -/
theorem renders_target {binding : Pattern} {type : Option Ty} {optional rest : Bool}
    (h : Renders (Pattern.ofForm file) Pattern.unlocated binding binding.toForm)
    (marks : MarksReadable binding type optional rest) :
    Renders (ofForm file) unlocated ⟨binding, type, optional, none, rest⟩
      (targetForm binding.toForm type optional rest) := by
  obtain ⟨types, typed, named⟩ := marks
  have symbol :
      Form.IsSymbol (if optional then "param?" else if rest then "rest" else "pattern") := by
    cases optional
    · cases rest
      · exact isSymbol_keyword rfl
      · exact isSymbol_keyword rfl
    · exact isSymbol_keyword rfl
  cases type with
  | none =>
    have required : optional = false := by
      cases optional with
      | false => rfl
      | true => exact absurd (typed rfl).1 (by simp)
    subst required
    refine renders_tagged symbol ⟨h.writable, trivial⟩ fun positions position => ?_
    cases rest with
    | false =>
      obtain ⟨found, read, same⟩ := h.reads positions
      refine ⟨{ binding := found }, ?_, by simp [unlocated, same]⟩
      simp [Form.locateAll, ofForm, read, bind, Except.bind, pure, Except.pure]
    | true =>
      obtain ⟨name, rfl⟩ := named (.inr rfl)
      refine ⟨{ binding := .ident name, rest := true }, ?_, rfl⟩
      simp [Form.locateAll, Form.locate, Pattern.toForm, Form.asSymbol, ofForm, bind, Except.bind,
        pure, Except.pure]
  | some type =>
    have ht : Renders (Ty.ofForm file) Ty.unlocated type type.toForm :=
      type.renders (types type rfl)
    refine renders_tagged symbol ⟨h.writable, ht.writable, trivial⟩ fun positions position => ?_
    obtain ⟨t, readType, sameType⟩ := ht.reads (binding.toForm.locate positions).2
    by_cases marked : optional = true ∨ rest = true
    · obtain ⟨name, rfl⟩ := named marked
      refine ⟨⟨.ident name, some t, optional, none, rest⟩, ?_, by simp [unlocated, sameType]⟩
      cases optional with
      | false =>
        obtain rfl : rest = true := by simpa using marked
        simp_all [Form.locateAll, Form.locate, Pattern.toForm, Form.asSymbol, ofForm, bind,
          Except.bind, pure, Except.pure]
      | true =>
        obtain rfl : rest = false := (typed rfl).2
        simp_all [Form.locateAll, Form.locate, Pattern.toForm, Form.asSymbol, ofForm, bind,
          Except.bind, pure, Except.pure]
    · obtain ⟨rfl, rfl⟩ : optional = false ∧ rest = false := by simpa using marked
      obtain ⟨found, read, same⟩ := h.reads positions
      refine ⟨{ binding := found, type := some t }, ?_, by simp [unlocated, same, sameType]⟩
      simp [Form.locateAll, ofForm, read, readType, bind, Except.bind, pure, Except.pure]

theorem renders_default {binding : Pattern} {type : Option Ty} {optional rest : Bool} {value : Expr}
    {form e : Form}
    (h : Renders (ofForm file) unlocated ⟨binding, type, optional, none, rest⟩ form)
    (hv : Renders (Expr.ofForm file) Expr.unlocated value e) :
    Renders (ofForm file) unlocated ⟨binding, type, optional, some value, rest⟩
      (.tagged "default" [form, e]) := by
  refine h.tagged_pair hv (isSymbol_keyword rfl) (fun _ param v => { param with default := some v })
    (fun item value position => by simp [ofForm]) fun _ param v same sameValue => ?_
  obtain ⟨found, foundType, _, _ | _, _⟩ := param
  all_goals simp_all [unlocated]

end Param

end

end TypeGuard
