import TypeGuard.Proofs.Descriptor.Encoding
import TypeGuard.Proofs.Form.Names
import TypeGuard.Proofs.Syntax.Unlocated

/-!
# Annotations as forms

A form for every annotation that can be read. `Ty.renders` says that the form can be written and is
read as the annotation again, up to locations.
-/

namespace TypeGuard

/-- A list with a tag in front. -/
def Form.tagged (tag : String) (items : List Form) : Form := .list (.symbol tag :: items) {}

/-- The words with a meaning of their own in some place. -/
def keywords : List String :=
  ["array", "maybe", "tuple", "union", "intersection", "object", "fn", "typeof", "prop", "prop?",
    "indexer", "number", "string", "boolean", "void", "null", "any", "mixed", "true", "false",
    "generics", "returns", "extends", "obj", "arr", "rest", "default", "_", "param", "param?",
    "pattern", "require", "function-expr", "arrow", "body", "import", "named", "namespace", "type",
    "interface", "function", "const", "let", "var", "export", "return", "stmt", "program"]

theorem isSymbol_keywords : ∀ s ∈ keywords, Form.IsSymbol s := by decide +kernel

theorem isSymbol_keyword {s : String} (h : keywords.contains s = true) : Form.IsSymbol s :=
  isSymbol_keywords s (by simpa using h)

/-! ## Forms that stand for trees -/

section
variable {α : Type}

/-- The form can be written, and is read as the tree up to locations, wherever its lists stand. -/
structure Renders (read : Form → Except ParseError α) (bare : α → α) (a : α) (form : Form) :
    Prop where
  writable : form.Writable
  reads : ∀ positions, ∃ b, read (form.locate positions).1 = .ok b ∧ bare b = bare a

/-- The forms can be written, and are read together as the value up to locations. -/
structure RendersAll (read : List Form → Except ParseError α) (bare : α → α) (a : α)
    (forms : List Form) : Prop where
  writable : Form.AllWritable forms
  reads : ∀ positions, ∃ b, read (Form.locateAll positions forms).1 = .ok b ∧ bare b = bare a

end

section
variable {α : Type} {read : Form → Except ParseError α} {bare : α → α}

/-- A form that is read by its name does not depend on where it stands. -/
theorem renders_symbol {name : String} {a : α} (symbol : Form.IsSymbol name)
    (h : ∃ b, read (.symbol name) = .ok b ∧ bare b = bare a) : Renders read bare a (.symbol name) :=
  ⟨symbol, fun _ => h⟩

/-- A list with a tag in front is read by its items, wherever it stands. -/
theorem renders_tagged {tag : String} {items : List Form} {a : α} (symbol : Form.IsSymbol tag)
    (writable : Form.AllWritable items)
    (h : ∀ positions position, ∃ b,
      read (.list (.symbol tag :: (Form.locateAll positions items).1) position) = .ok b ∧
        bare b = bare a) : Renders read bare a (.tagged tag items) :=
  ⟨⟨⟨symbol, writable⟩, rfl⟩, fun positions => h (positions.drop 1) (positions.headD {})⟩

/-- A tagged list in front of other forms is read with them by its items, wherever they stand. -/
theorem rendersAll_tagged_cons {read : List Form → Except ParseError α} {tag : String}
    {items forms : List Form} {a : α} (symbol : Form.IsSymbol tag)
    (writable : Form.AllWritable items) (others : Form.AllWritable forms)
    (h : ∀ positions position rest, ∃ b,
      read (.list (.symbol tag :: (Form.locateAll positions items).1) position
        :: (Form.locateAll rest forms).1) = .ok b ∧ bare b = bare a) :
    RendersAll read bare a (.tagged tag items :: forms) :=
  ⟨⟨⟨⟨symbol, writable⟩, rfl⟩, others⟩, fun positions => h (positions.drop 1) (positions.headD {})
    ((Form.tagged tag items).locate positions).2⟩

section
variable {β γ : Type} {readWhole : Form → Except ParseError γ} {bareWhole : γ → γ} {tag : String}
  {c : γ}

/-- A tag in front of one form: the tree of the form is a part of the whole. -/
theorem Renders.tagged {a : α} {form : Form} (h : Renders read bare a form)
    (symbol : Form.IsSymbol tag) (wrap : Position → α → γ)
    (reads : ∀ item position,
      readWhole (.list [.symbol tag, item] position) = do return wrap position (← read item))
    (same : ∀ position a', bare a' = bare a → bareWhole (wrap position a') = bareWhole c) :
    Renders readWhole bareWhole c (.tagged tag [form]) := by
  refine renders_tagged symbol ⟨h.writable, trivial⟩ fun positions position => ?_
  obtain ⟨a', found, bared⟩ := h.reads positions
  refine ⟨wrap position a', ?_, same position a' bared⟩
  simp [Form.locateAll, reads, found, bind, Except.bind, pure, Except.pure]

/-- A tag in front of two forms: their trees are parts of the whole. -/
theorem Renders.tagged_pair {readNext : Form → Except ParseError β} {bareNext : β → β} {a : α}
    {b : β} {form next : Form} (h : Renders read bare a form)
    (hn : Renders readNext bareNext b next) (symbol : Form.IsSymbol tag)
    (wrap : Position → α → β → γ)
    (reads : ∀ item item' position, readWhole (.list [.symbol tag, item, item'] position)
      = do return wrap position (← read item) (← readNext item'))
    (same : ∀ position a' b', bare a' = bare a → bareNext b' = bareNext b →
      bareWhole (wrap position a' b') = bareWhole c) :
    Renders readWhole bareWhole c (.tagged tag [form, next]) := by
  refine renders_tagged symbol ⟨h.writable, hn.writable, trivial⟩ fun positions position => ?_
  obtain ⟨a', found, bared⟩ := h.reads positions
  obtain ⟨b', foundNext, baredNext⟩ := hn.reads (form.locate positions).2
  refine ⟨wrap position a' b', ?_, same position a' b' bared baredNext⟩
  simp [Form.locateAll, reads, found, foundNext, bind, Except.bind, pure, Except.pure]

/-- A tag in front of forms that are read together. -/
theorem RendersAll.tagged {readItems : List Form → Except ParseError β} {bareItems : β → β}
    {b : β} {forms : List Form} (h : RendersAll readItems bareItems b forms)
    (symbol : Form.IsSymbol tag) (wrap : Position → β → γ)
    (reads : ∀ items position, readWhole (.list (.symbol tag :: items) position)
      = do return wrap position (← readItems items))
    (same : ∀ position b', bareItems b' = bareItems b →
      bareWhole (wrap position b') = bareWhole c) :
    Renders readWhole bareWhole c (.tagged tag forms) := by
  refine renders_tagged symbol h.writable fun positions position => ?_
  obtain ⟨b', found, bared⟩ := h.reads positions
  refine ⟨wrap position b', ?_, same position b' bared⟩
  simp [reads, found, bind, Except.bind, pure, Except.pure]

end

variable {readAll : List Form → Except ParseError (List α)} {bareAll : List α → List α}

theorem rendersAll_nil (h : readAll [] = .ok []) : RendersAll readAll bareAll [] [] :=
  ⟨trivial, fun _ => ⟨[], h, rfl⟩⟩

/-- Forms that are read one after the other. -/
theorem Renders.cons {a : α} {as : List α} {form : Form} {forms : List Form}
    (each : ∀ form forms, readAll (form :: forms) = do return (← read form) :: (← readAll forms))
    (bareEach : ∀ a as, bareAll (a :: as) = bare a :: bareAll as)
    (h : Renders read bare a form) (hs : RendersAll readAll bareAll as forms) :
    RendersAll readAll bareAll (a :: as) (form :: forms) := by
  refine ⟨⟨h.writable, hs.writable⟩, fun positions => ?_⟩
  obtain ⟨b, first, same⟩ := h.reads positions
  obtain ⟨bs, others, rest⟩ := hs.reads (form.locate positions).2
  refine ⟨b :: bs, ?_, ?_⟩
  · simp [Form.locateAll, each, first, others, bind, Except.bind, pure, Except.pure]
  · rw [bareEach, bareEach, same, rest]

end

/-! ## Annotations -/

/-- An integer of not too many digits. -/
def Number.IsShort : Number → Prop
  | .int n => Numeral.digitCount n ≤ Numeral.maxDigits
  | .float _ => False

/-- The name is no annotation of its own. -/
def QualifiedName.IsFree (q : QualifiedName) : Prop :=
  Primitive.ofKeyword? q.dotted = none ∧ q.dotted ≠ "true" ∧ q.dotted ≠ "false"

mutual

/-- The annotation can be read: its parts are those of the surface syntax, its names are names and
no keywords where they stand, and its numbers are integers of not too many digits. -/
def Ty.Readable : Ty → Prop
  | .named ⟨id, none, _⟩ => id.IsPlain ∧ id.IsFree
  | .named ⟨id, some args, _⟩ =>
    (id.IsPlain ∧ TypeTag.ofName? id.dotted = none) ∧ Ty.AllReadable args
  | .array element _ => Ty.Readable element
  | .nullable inner _ => Ty.Readable inner
  | .tuple types _ => Ty.AllReadable types
  | .union types _ => types ≠ [] ∧ Ty.AllReadable types
  | .intersection types _ => types ≠ [] ∧ Ty.AllReadable types
  | .object ⟨properties, indexers, _⟩ =>
    Ty.PropertiesReadable properties ∧ Ty.IndexersReadable indexers
  | .function params result _ => Ty.ParamsReadable params ∧ Ty.Readable result
  | .primitive _ _ => True
  | .string _ _ => True
  | .number value _ => value.IsShort
  | .boolean _ _ => True
  | .typeof ⟨id, none, _⟩ _ => id.IsPlain ∧ id.IsFree
  | .typeof ⟨id, some args, _⟩ _ =>
    (id.IsPlain ∧ TypeTag.ofName? id.dotted = none) ∧ Ty.AllReadable args
  | .stray _ => False

def Ty.AllReadable : List Ty → Prop
  | [] => True
  | type :: types => Ty.Readable type ∧ Ty.AllReadable types

def Ty.PropertiesReadable : List (Property Ty) → Prop
  | [] => True
  | ⟨key, value, _, _⟩ :: properties =>
    (IsPlainName key ∧ Ty.Readable value) ∧ Ty.PropertiesReadable properties

def Ty.IndexersReadable : List (Indexer Ty) → Prop
  | [] => True
  | ⟨key, value, id, _⟩ :: indexers =>
    ((∀ name ∈ id, IsPlainName name) ∧ Ty.Readable key ∧ Ty.Readable value) ∧
      Ty.IndexersReadable indexers

/-- The parameters of a function annotation have no names. -/
def Ty.ParamsReadable : List (FunctionTypeParam Ty) → Prop
  | [] => True
  | ⟨type, name⟩ :: params => (Ty.Readable type ∧ name = none) ∧ Ty.ParamsReadable params

end

mutual

/-- The form of an annotation. -/
def Ty.toForm : Ty → Form
  | .named ⟨id, none, _⟩ => .symbol id.dotted
  | .named ⟨id, some args, _⟩ => .tagged id.dotted (Ty.toForms args)
  | .array element _ => .tagged "array" [Ty.toForm element]
  | .nullable inner _ => .tagged "maybe" [Ty.toForm inner]
  | .tuple types _ => .tagged "tuple" (Ty.toForms types)
  | .union types _ => .tagged "union" (Ty.toForms types)
  | .intersection types _ => .tagged "intersection" (Ty.toForms types)
  | .object ⟨properties, indexers, _⟩ =>
    .tagged "object" (Ty.propertyForms properties ++ Ty.indexerForms indexers)
  | .function params result _ =>
    .tagged "fn" [.list (Ty.paramForms params) {}, Ty.toForm result]
  | .primitive value _ => .symbol value.keyword
  | .string value _ => .text value
  | .number value _ => .number value
  | .boolean value _ => .symbol (if value then "true" else "false")
  | .typeof ⟨id, none, _⟩ _ => .tagged "typeof" [.symbol id.dotted]
  | .typeof ⟨id, some args, _⟩ _ => .tagged "typeof" [.tagged id.dotted (Ty.toForms args)]
  | .stray _ => .list [] {}

def Ty.toForms : List Ty → List Form
  | [] => []
  | type :: types => Ty.toForm type :: Ty.toForms types

def Ty.propertyForms : List (Property Ty) → List Form
  | [] => []
  | ⟨key, value, optional, _⟩ :: properties =>
    .tagged (if optional then "prop?" else "prop") [.symbol key, Ty.toForm value]
      :: Ty.propertyForms properties

def Ty.indexerForms : List (Indexer Ty) → List Form
  | [] => []
  | ⟨key, value, none, _⟩ :: indexers =>
    .tagged "indexer" [Ty.toForm key, Ty.toForm value] :: Ty.indexerForms indexers
  | ⟨key, value, some id, _⟩ :: indexers =>
    .tagged "indexer" [.symbol id, Ty.toForm key, Ty.toForm value] :: Ty.indexerForms indexers

def Ty.paramForms : List (FunctionTypeParam Ty) → List Form
  | [] => []
  | ⟨type, _⟩ :: params => Ty.toForm type :: Ty.paramForms params

end

section
variable {file : String}

namespace Ty

-- A rendered annotation is read by the production of its tag.
attribute [local simp] ofForm

theorem named_of_unlocated {type : Ty} {ref : TypeRef Ty}
    (h : type.unlocated = (Ty.named ref).unlocated) :
    ∃ found, type = .named found ∧ found.unlocated = ref.unlocated := by
  obtain ⟨id, _ | args, loc⟩ := ref
  all_goals
    cases type with
    | named found =>
      obtain ⟨id', _ | args', loc'⟩ := found
      all_goals simp_all [unlocated, TypeRef.unlocated]
    | typeof found loc' =>
      obtain ⟨id', _ | args', _⟩ := found
      all_goals simp [unlocated] at h
    | array | nullable | tuple | union | intersection | object | function | primitive | string
    | number | boolean | stray => simp [unlocated] at h

theorem unlocated_typeof {first second : TypeRef Ty} (h : first.unlocated = second.unlocated)
    (loc loc' : Location) :
    (Ty.typeof first loc).unlocated = (Ty.typeof second loc').unlocated := by
  obtain ⟨id, _ | args, _⟩ := first
  all_goals
    obtain ⟨id', _ | args', _⟩ := second
    all_goals simp_all [unlocated, TypeRef.unlocated]

theorem renders_reference {id : QualifiedName} (plain : id.IsPlain) (free : id.IsFree)
    (loc : Location) :
    Renders (ofForm file) unlocated (.named ⟨id, none, loc⟩) (.symbol id.dotted) := by
  obtain ⟨primitive, yes, no⟩ := free
  refine renders_symbol plain.isSymbol ⟨.named ⟨id, none, .unknown⟩, ?_, rfl⟩
  simp [ofSymbol, primitive, yes, no, plain.ofString, bind, Except.bind, pure, Except.pure]

theorem renders_applied {id : QualifiedName} {args : List Ty} {forms : List Form}
    (plain : id.IsPlain) (tag : TypeTag.ofName? id.dotted = none)
    (h : RendersAll (ofForms file) unlocatedAll args forms) (loc : Location) :
    Renders (ofForm file) unlocated (.named ⟨id, some args, loc⟩) (.tagged id.dotted forms) := by
  refine h.tagged plain.isSymbol
    (fun position types => .named ⟨id, some types, position.inFile file⟩)
    (fun items position => ?_) fun _ types same => by simp [unlocated, same]
  simp [tag, plain.ofString, bind, Except.bind]

theorem renders_typeof {ref : TypeRef Ty} {form : Form}
    (h : Renders (ofForm file) unlocated (.named ref) form) (loc : Location) :
    Renders (ofForm file) unlocated (.typeof ref loc) (.tagged "typeof" [form]) := by
  refine renders_tagged (isSymbol_keyword rfl) ⟨h.writable, trivial⟩ fun positions position => ?_
  obtain ⟨type, read, same⟩ := h.reads positions
  obtain ⟨found, rfl, sameRef⟩ := named_of_unlocated same
  have tag : TypeTag.ofName? "typeof" = some .typeof := rfl
  refine ⟨.typeof found (position.inFile file), ?_, unlocated_typeof sameRef _ _⟩
  simp [Form.locateAll, tag, read, bind, Except.bind, pure, Except.pure]

theorem renders_array {element : Ty} {form : Form}
    (h : Renders (ofForm file) unlocated element form) (loc : Location) :
    Renders (ofForm file) unlocated (.array element loc) (.tagged "array" [form]) := by
  have tag : TypeTag.ofName? "array" = some .array := rfl
  exact h.tagged (isSymbol_keyword rfl) (fun position type => .array type (position.inFile file))
    (fun item position => by simp [tag]) fun _ type same => by simp [unlocated, same]

theorem renders_nullable {inner : Ty} {form : Form}
    (h : Renders (ofForm file) unlocated inner form) (loc : Location) :
    Renders (ofForm file) unlocated (.nullable inner loc) (.tagged "maybe" [form]) := by
  have tag : TypeTag.ofName? "maybe" = some .maybe := rfl
  exact h.tagged (isSymbol_keyword rfl) (fun position type => .nullable type (position.inFile file))
    (fun item position => by simp [tag]) fun _ type same => by simp [unlocated, same]

theorem renders_tuple {types : List Ty} {forms : List Form}
    (h : RendersAll (ofForms file) unlocatedAll types forms) (loc : Location) :
    Renders (ofForm file) unlocated (.tuple types loc) (.tagged "tuple" forms) := by
  have tag : TypeTag.ofName? "tuple" = some .tuple := rfl
  exact h.tagged (isSymbol_keyword rfl) (fun position found => .tuple found (position.inFile file))
    (fun items position => by simp [tag]) fun _ found same => by simp [unlocated, same]

/-- The members of a union or an intersection are read like those of a tuple, if there are any. -/
theorem renders_operands (tag : TypeTag) {wrap : List Ty → Location → Ty}
    (symbol : Form.IsSymbol tag.name)
    (read : ∀ first others position,
      ofForm file (.list (.symbol tag.name :: first :: others) position)
      = do return wrap ((← ofForm file first) :: (← ofForms file others)) (position.inFile file))
    (bare : ∀ types loc, (wrap types loc).unlocated = wrap (unlocatedAll types) .unknown)
    {types : List Ty} {form : Form} {forms : List Form}
    (h : RendersAll (ofForms file) unlocatedAll types (form :: forms)) (loc : Location) :
    Renders (ofForm file) unlocated (wrap types loc) (.tagged tag.name (form :: forms)) := by
  refine renders_tagged symbol h.writable fun positions position => ?_
  obtain ⟨found, each, same⟩ := h.reads positions
  refine ⟨wrap found (position.inFile file), ?_, by rw [bare, bare, same]⟩
  rw [Form.locateAll] at each ⊢
  simp only [ofForms, bind_eq_ok_iff, pure_eq_ok_iff] at each
  obtain ⟨type, first, types, others, rfl⟩ := each
  simp [read, first, others, bind, Except.bind, pure, Except.pure]

theorem renders_primitive (value : Primitive) (loc : Location) :
    Renders (ofForm file) unlocated (.primitive value loc) (.symbol value.keyword) := by
  have symbol : Form.IsSymbol value.keyword := by
    cases value <;> exact isSymbol_keyword rfl
  refine renders_symbol symbol ⟨.primitive value .unknown, ?_, rfl⟩
  simp [ofSymbol, Primitive.ofKeyword?_keyword]

theorem renders_boolean (value : Bool) (loc : Location) :
    Renders (ofForm file) unlocated (.boolean value loc)
      (.symbol (if value then "true" else "false")) := by
  cases value
  · exact renders_symbol (isSymbol_keyword rfl) ⟨.boolean false .unknown, rfl, rfl⟩
  · exact renders_symbol (isSymbol_keyword rfl) ⟨.boolean true .unknown, rfl, rfl⟩

/-! ### Objects -/

/-- The members of an object without their locations. -/
def unlocatedMembers (members : List (Property Ty) × List (Indexer Ty)) :
    List (Property Ty) × List (Indexer Ty) :=
  (unlocatedProperties members.1, unlocatedIndexers members.2)

theorem rendersAll_property {key : String} {value : Ty} {optional : Bool} {form : Form}
    {forms : List Form} {properties : List (Property Ty)} {indexers : List (Indexer Ty)}
    (name : IsPlainName key) (h : Renders (ofForm file) unlocated value form)
    (hs : RendersAll (membersOfForms file) unlocatedMembers (properties, indexers) forms)
    (loc : Location) :
    RendersAll (membersOfForms file) unlocatedMembers
      (⟨key, value, optional, loc⟩ :: properties, indexers)
      (.tagged (if optional then "prop?" else "prop") [.symbol key, form] :: forms) := by
  have symbol : Form.IsSymbol (if optional then "prop?" else "prop") := by
    cases optional
    · exact isSymbol_keyword rfl
    · exact isSymbol_keyword rfl
  refine rendersAll_tagged_cons symbol ⟨name.isSymbol, h.writable, trivial⟩ hs.writable
    fun positions position rest => ?_
  obtain ⟨type, read, same⟩ := h.reads positions
  obtain ⟨⟨others, found⟩, readRest, sameRest⟩ := hs.reads rest
  refine ⟨(⟨key, type, optional, position.inFile file⟩ :: others, found), ?_, ?_⟩
  · cases optional <;> simp [Form.locateAll, Form.locate, membersOfForms, Form.asSymbol, read,
      readRest, bind, Except.bind, pure, Except.pure]
  · simp_all [unlocatedMembers, unlocatedProperties]

theorem rendersAll_indexer {key value : Ty} {keyForm valueForm : Form} {forms : List Form}
    {properties : List (Property Ty)} {indexers : List (Indexer Ty)} (id : Option String)
    (names : ∀ name ∈ id, IsPlainName name) (hk : Renders (ofForm file) unlocated key keyForm)
    (hv : Renders (ofForm file) unlocated value valueForm)
    (hs : RendersAll (membersOfForms file) unlocatedMembers (properties, indexers) forms)
    (loc : Location) :
    RendersAll (membersOfForms file) unlocatedMembers
      (properties, ⟨key, value, id, loc⟩ :: indexers)
      (.tagged "indexer" (id.toList.map .symbol ++ [keyForm, valueForm]) :: forms) := by
  have writable : Form.AllWritable (id.toList.map .symbol ++ [keyForm, valueForm]) := by
    cases id with
    | none => exact ⟨hk.writable, hv.writable, trivial⟩
    | some name => exact ⟨(names name rfl).isSymbol, hk.writable, hv.writable, trivial⟩
  refine rendersAll_tagged_cons (isSymbol_keyword rfl) writable hs.writable
    fun positions position rest => ?_
  obtain ⟨domain, readKey, sameKey⟩ := hk.reads positions
  obtain ⟨codomain, readValue, sameValue⟩ := hv.reads (keyForm.locate positions).2
  obtain ⟨⟨found, others⟩, readRest, sameRest⟩ := hs.reads rest
  refine ⟨(found, ⟨domain, codomain, id, position.inFile file⟩ :: others), ?_, ?_⟩
  · cases id <;> simp [Form.locateAll, Form.locate, membersOfForms, Form.asSymbol, readKey,
      readValue, readRest, bind, Except.bind, pure, Except.pure]
  · simp_all [unlocatedMembers, unlocatedIndexers]

theorem renders_object {properties : List (Property Ty)} {indexers : List (Indexer Ty)}
    {forms : List Form}
    (h : RendersAll (membersOfForms file) unlocatedMembers (properties, indexers) forms)
    (loc : Location) :
    Renders (ofForm file) unlocated (.object ⟨properties, indexers, loc⟩)
      (.tagged "object" forms) := by
  have tag : TypeTag.ofName? "object" = some .object := rfl
  refine h.tagged (isSymbol_keyword rfl)
    (fun position members => .object ⟨members.1, members.2, position.inFile file⟩)
    (fun items position => by simp [tag]) fun _ members same => ?_
  simp_all [unlocated, unlocatedMembers]

/-! ### Functions -/

theorem unlocatedParams_map (types : List Ty) :
    unlocatedParams (types.map ({ type := · })) = (unlocatedAll types).map ({ type := · }) := by
  induction types with
  | nil => rfl
  | cons type types ih => simp [unlocatedParams, unlocatedAll, ih]

theorem renders_function {types : List Ty} {forms : List Form} {result : Ty} {form : Form}
    (h : RendersAll (ofForms file) unlocatedAll types forms)
    (hr : Renders (ofForm file) unlocated result form) (loc : Location) :
    Renders (ofForm file) unlocated (.function (types.map ({ type := · })) result loc)
      (.tagged "fn" [.list forms {}, form]) := by
  refine renders_tagged (isSymbol_keyword rfl) ⟨⟨h.writable, rfl⟩, hr.writable, trivial⟩
    fun positions position => ?_
  obtain ⟨params, read, same⟩ := h.reads positions.tail
  obtain ⟨type, readResult, sameResult⟩ := hr.reads (Form.locateAll positions.tail forms).2
  have tag : TypeTag.ofName? "fn" = some .fn := rfl
  refine ⟨.function (params.map ({ type := · })) type (position.inFile file), ?_, ?_⟩
  · simp [Form.locateAll, Form.locate, tag, read, readResult, bind, Except.bind, pure,
      Except.pure]
  · simp [unlocated, unlocatedParams_map, same, sameResult]

/-! ### All annotations -/

theorem params_eq_map : ∀ {params : List (FunctionTypeParam Ty)}, ParamsReadable params →
    params = (params.map (·.type)).map ({ type := · })
  | [], _ => rfl
  | ⟨type, name⟩ :: params, h => by
    obtain ⟨⟨-, rfl⟩, others⟩ := h
    rw [List.map_cons, List.map_cons, ← params_eq_map others]

mutual

/-- Every annotation that can be read has a form that is read as the annotation. -/
theorem renders : ∀ type : Ty, type.Readable → Renders (ofForm file) unlocated type type.toForm
  | .named ⟨_, none, loc⟩, h => renders_reference h.1 h.2 loc
  | .named ⟨_, some args, loc⟩, h => renders_applied h.1.1 h.1.2 (rendersAll args h.2) loc
  | .array element loc, h => renders_array (renders element h) loc
  | .nullable inner loc, h => renders_nullable (renders inner h) loc
  | .tuple types loc, h => renders_tuple (rendersAll types h) loc
  | .union (type :: types) loc, h =>
    renders_operands .union (isSymbol_keyword rfl)
      (fun _ _ _ => by simp [TypeTag.ofName?, TypeTag.all, TypeTag.name])
      (fun _ _ => by simp [unlocated]) (rendersAll (type :: types) h.2) loc
  | .intersection (type :: types) loc, h =>
    renders_operands .intersection (isSymbol_keyword rfl)
      (fun _ _ _ => by simp [TypeTag.ofName?, TypeTag.all, TypeTag.name])
      (fun _ _ => by simp [unlocated]) (rendersAll (type :: types) h.2) loc
  | .union [] _, h => absurd rfl h.1
  | .intersection [] _, h => absurd rfl h.1
  | .object ⟨properties, indexers, loc⟩, h =>
    renders_object (rendersAll_properties properties h.1 (rendersAll_indexers indexers h.2)) loc
  | .function params result loc, h => by
    have form := renders_function (rendersAll_params params h.1) (renders result h.2) loc
    rwa [← params_eq_map h.1] at form
  | .primitive value loc, _ => renders_primitive value loc
  | .string value loc, _ => ⟨trivial, fun _ => ⟨.string value .unknown, rfl, rfl⟩⟩
  | .number (.int n) loc, h => ⟨h, fun _ => ⟨.number (.int n) .unknown, rfl, rfl⟩⟩
  | .number (.float _) _, h => h.elim
  | .boolean value loc, _ => renders_boolean value loc
  | .typeof ⟨_, none, refLoc⟩ loc, h => renders_typeof (renders_reference h.1 h.2 refLoc) loc
  | .typeof ⟨_, some args, refLoc⟩ loc, h =>
    renders_typeof (renders_applied h.1.1 h.1.2 (rendersAll args h.2) refLoc) loc

theorem rendersAll : ∀ types : List Ty, AllReadable types →
    RendersAll (ofForms file) unlocatedAll types (toForms types)
  | [], _ => rendersAll_nil rfl
  | type :: types, h =>
    (renders type h.1).cons (fun _ _ => rfl) (fun _ _ => rfl) (rendersAll types h.2)

theorem rendersAll_properties {forms : List Form} {indexers : List (Indexer Ty)} :
    ∀ properties : List (Property Ty), PropertiesReadable properties →
    RendersAll (membersOfForms file) unlocatedMembers ([], indexers) forms →
    RendersAll (membersOfForms file) unlocatedMembers (properties, indexers)
      (propertyForms properties ++ forms)
  | [], _, hs => hs
  | ⟨_, value, _, loc⟩ :: properties, h, hs =>
    rendersAll_property h.1.1 (renders value h.1.2) (rendersAll_properties properties h.2 hs) loc

theorem rendersAll_indexers : ∀ indexers : List (Indexer Ty), IndexersReadable indexers →
    RendersAll (membersOfForms file) unlocatedMembers ([], indexers) (indexerForms indexers)
  | [], _ => ⟨trivial, fun _ => ⟨([], []), rfl, rfl⟩⟩
  | ⟨key, value, none, loc⟩ :: indexers, h =>
    rendersAll_indexer none h.1.1 (renders key h.1.2.1) (renders value h.1.2.2)
      (rendersAll_indexers indexers h.2) loc
  | ⟨key, value, some id, loc⟩ :: indexers, h =>
    rendersAll_indexer (some id) h.1.1 (renders key h.1.2.1) (renders value h.1.2.2)
      (rendersAll_indexers indexers h.2) loc

theorem rendersAll_params : ∀ params : List (FunctionTypeParam Ty), ParamsReadable params →
    RendersAll (ofForms file) unlocatedAll (params.map (·.type)) (paramForms params)
  | [], _ => rendersAll_nil rfl
  | ⟨type, _⟩ :: params, h =>
    (renders type h.1.1).cons (fun _ _ => rfl) (fun _ _ => rfl) (rendersAll_params params h.2)

end

end Ty

end

end TypeGuard
