import Mathlib.Data.List.Nodup
import TypeGuard.Proofs.Descriptor.Acceptance
import TypeGuard.Proofs.Destructuring

/-!
# Validators as the library reads them

What the expression of a validator accepts when the validation library evaluates it, call by call.
The expression that a descriptor is lowered to accepts what the descriptor accepts, if no object type
lists a key twice: an object literal keeps one of the two entries.
-/

namespace TypeGuard

/-- A predicate holds of a value: one of the program, or a function that compares its argument with
a number. -/
inductive World.Holds (world : World) : Expr → Value → Prop where
  | named {e : Expr} {v : Value} (q : QualifiedName) :
      e = .ofName q → world.predicate e v → Holds world e v
  | equal {name : String} {value : Number} {loc : Location} {x : Binary64} :
      x.equals value.toBinary64 = true →
      Holds world (.function { params := [{ binding := .ident name }] }
        [.ret (some (.binary "===" (.ident name) (.number value)))] none loc) (.number x)

/-- The type that an expression builds with the library accepts a value. A combinator takes further
arguments, such as the name of the type, which do not matter to what it accepts. -/
inductive World.Accepts (world : World) (library : Expr) : Expr → Value → Prop where
  | named {e : Expr} {v : Value} (q : QualifiedName) :
      e = .ofName q → world.type e v → Accepts world library e v
  | irreducible {name : String} {v : Value} :
      world.Member name v → Accepts world library (.member library name) v
  | list {element : Expr} {rest : List Expr} {vs : List Value} :
      (∀ x ∈ vs, Accepts world library element x) →
      Accepts world library (.call (.member library "list") (element :: rest)) (.array vs)
  | absent {inner : Expr} {rest : List Expr} {v : Value} : v.isNil = true →
      Accepts world library (.call (.member library "maybe") (inner :: rest)) v
  | present {inner : Expr} {rest : List Expr} {v : Value} : Accepts world library inner v →
      Accepts world library (.call (.member library "maybe") (inner :: rest)) v
  | tuple {items rest : List Expr} {vs : List Value} : items.length = vs.length →
      (∀ p ∈ items.zip vs, Accepts world library p.1 p.2) →
      Accepts world library (.call (.member library "tuple") (.array items :: rest)) (.array vs)
  | union {members rest : List Expr} {e : Expr} {v : Value} : e ∈ members →
      Accepts world library e v →
      Accepts world library (.call (.member library "union") (.array members :: rest)) v
  | enums {values rest : List Expr} {s : String} : .string s ∈ values →
      Accepts world library
        (.call (.member (.member library "enums") "of") (.array values :: rest)) (.string s)
  | dict {domain codomain : Expr} {rest : List Expr} {properties : String → Option Value} :
      (∀ key x, properties key = some x → Accepts world library domain (.string key)) →
      (∀ key x, properties key = some x → Accepts world library codomain x) →
      Accepts world library (.call (.member library "dict") (domain :: codomain :: rest))
        (.object properties)
  | refinement {base predicate : Expr} {rest : List Expr} {v : Value} :
      Accepts world library base v → Holds world predicate v →
      Accepts world library (.call (.member library "refinement") (base :: predicate :: rest)) v
  | intersection {members rest : List Expr} {v : Value} :
      (∀ e ∈ members, Accepts world library e v) →
      Accepts world library (.call (.member library "intersection") (.array members :: rest)) v
  | interface {entries : List (Entry Expr)} {rest : List Expr} {v : Value} : world.hasProperties v →
      (∀ key e, Expr.entry? key entries = some e →
        Accepts world library e (v.get world.property key)) →
      Accepts world library (.call (.member library "interface") (.object entries :: rest)) v
  | extend {parts rest : List Expr} {v : Value} : (∀ e ∈ parts, Accepts world library e v) →
      Accepts world library
        (.call (.member (.member library "interface") "extend") (.array parts :: rest)) v

/-- The members of the library are what the library says, also where the program names them. -/
def World.Respects (world : World) (library : Expr) : Prop :=
  ∀ name v, world.type (.member library name) v ↔ world.Member name v

/-! ## One call at a time -/

theorem Expr.ofName_cases (q : QualifiedName) :
    (∃ name, Expr.ofName q = .ident name) ∨ ∃ e prop, Expr.ofName q = .member e prop := by
  have path : ∀ (path : List String) (e : Expr), (∃ name, e = .ident name) ∨
      (∃ e' prop, e = .member e' prop) → (∃ name, path.foldl Expr.member e = .ident name) ∨
      ∃ e' prop, path.foldl Expr.member e = .member e' prop := by
    intro path
    induction path with
    | nil => exact fun _ => id
    | cons part path ih => exact fun e _ => ih (.member e part) (.inr ⟨e, part, rfl⟩)
  unfold Expr.ofName
  split
  · exact .inl ⟨_, rfl⟩
  · exact path _ _ (.inl ⟨_, rfl⟩)

namespace World

variable {library : Expr} {world : World} {v : Value}

theorem holds_ofName {q : QualifiedName} :
    world.Holds (.ofName q) v ↔ world.predicate (.ofName q) v := by
  constructor
  · intro h
    generalize expr : Expr.ofName q = e at h
    cases h with
    | named _ _ holds => exact holds
    | equal _ => obtain ⟨name, h⟩ | ⟨e, prop, h⟩ := Expr.ofName_cases q <;> simp [h] at expr
  · exact fun h => .named q rfl h

theorem holds_equalsPredicate {value : Number} :
    world.Holds (Descriptor.equalsPredicate value) v ↔
      ∃ x, v = .number x ∧ x.equals value.toBinary64 = true := by
  constructor
  · intro h
    generalize expr : Descriptor.equalsPredicate value = e at h
    cases h with
    | named q named _ =>
      obtain ⟨name, h⟩ | ⟨e, prop, h⟩ := Expr.ofName_cases q <;>
        simp [h, named, Descriptor.equalsPredicate] at expr
    | @equal _ value' _ x equal =>
      cases expr
      exact ⟨x, rfl, equal⟩
  · rintro ⟨x, rfl, equal⟩
    exact .equal equal

theorem accepts_ofName (respects : world.Respects library) {q : QualifiedName} :
    world.Accepts library (.ofName q) v ↔ world.type (.ofName q) v := by
  constructor
  · intro h
    generalize expr : Expr.ofName q = e at h
    cases h with
    | named _ _ holds => exact holds
    | irreducible holds => exact (respects _ _).2 holds
    | _ => obtain ⟨name, h⟩ | ⟨e, prop, h⟩ := Expr.ofName_cases q <;> simp [h] at expr
  · exact fun h => .named q rfl h

theorem accepts_irreducible (respects : world.Respects library) {name : String} :
    world.Accepts library (.member library name) v ↔ world.Member name v := by
  constructor
  · intro h
    generalize expr : Expr.member library name = e at h
    cases h with
    | named _ _ holds =>
      rw [← expr] at holds
      exact (respects _ _).1 holds
    | irreducible holds =>
      cases expr
      exact holds
    | _ => cases expr
  · exact .irreducible

/-- What a call of the library can be, and what it accepts then. -/
theorem accepts_call {callee : Expr} {args : List Expr} :
    world.Accepts library (.call callee args) v ↔
      (∃ element rest, callee = .member library "list" ∧ args = element :: rest ∧
        v.IsArrayOf (world.Accepts library element)) ∨
      (∃ inner rest, callee = .member library "maybe" ∧ args = inner :: rest ∧
        (v.isNil = true ∨ world.Accepts library inner v)) ∨
      (∃ items rest, callee = .member library "tuple" ∧ args = .array items :: rest ∧
        ∃ vs, v = .array vs ∧ List.Forall₂ (world.Accepts library) items vs) ∨
      (∃ members rest, callee = .member library "union" ∧ args = .array members :: rest ∧
        ∃ e ∈ members, world.Accepts library e v) ∨
      (∃ values rest, callee = .member (.member library "enums") "of" ∧
        args = .array values :: rest ∧ ∃ s, .string s ∈ values ∧ v = .string s) ∨
      (∃ domain codomain rest, callee = .member library "dict" ∧
        args = domain :: codomain :: rest ∧
        v.IsDictOf (world.Accepts library domain) (world.Accepts library codomain)) ∨
      (∃ base predicate rest, callee = .member library "refinement" ∧
        args = base :: predicate :: rest ∧
        world.Accepts library base v ∧ world.Holds predicate v) ∨
      (∃ members rest, callee = .member library "intersection" ∧ args = .array members :: rest ∧
        ∀ e ∈ members, world.Accepts library e v) ∨
      (∃ entries rest, callee = .member library "interface" ∧ args = .object entries :: rest ∧
        world.hasProperties v ∧
        ∀ key e, Expr.entry? key entries = some e →
          world.Accepts library e (v.get world.property key)) ∨
      (∃ parts rest, callee = .member (.member library "interface") "extend" ∧
        args = .array parts :: rest ∧ ∀ e ∈ parts, world.Accepts library e v) := by
  constructor
  · intro h
    cases h with
    | named q named _ =>
      obtain ⟨name, h⟩ | ⟨e, prop, h⟩ := Expr.ofName_cases q <;> simp [h] at named
    | _ => grind [Value.IsArrayOf, Value.IsDictOf, List.forall₂_iff_zip]
  · rintro (h | h | h | h | h | h | h | h | h | h)
    · obtain ⟨element, rest, rfl, rfl, vs, rfl, each⟩ := h
      exact .list each
    · obtain ⟨inner, rest, rfl, rfl, absent | present⟩ := h
      · exact .absent absent
      · exact .present present
    · obtain ⟨items, rest, rfl, rfl, vs, rfl, each⟩ := h
      exact .tuple each.length_eq fun p member => List.forall₂_iff_zip.1 each |>.2 member
    · obtain ⟨members, rest, rfl, rfl, e, member, accepts⟩ := h
      exact .union member accepts
    · obtain ⟨values, rest, rfl, rfl, s, member, rfl⟩ := h
      exact .enums member
    · obtain ⟨domain, codomain, rest, rfl, rfl, properties, rfl, each⟩ := h
      exact .dict (fun key x found => (each key x found).1) fun key x found => (each key x found).2
    · obtain ⟨base, predicate, rest, rfl, rfl, accepts, holds⟩ := h
      exact .refinement accepts holds
    · obtain ⟨members, rest, rfl, rfl, each⟩ := h
      exact .intersection each
    · obtain ⟨entries, rest, rfl, rfl, present, each⟩ := h
      exact .interface present each
    · obtain ⟨parts, rest, rfl, rfl, each⟩ := h
      exact .extend each

end World

/-! ## Lowered descriptors -/

namespace Descriptor

mutual

/-- The keys of each object type in a descriptor. -/
def keyLists : Descriptor → List (List String)
  | .reference _ | .primitive _ | .enums _ _ | .literal _ _ => []
  | .list element _ => keyLists element
  | .maybe inner _ => keyLists inner
  | .tuple items _ => allKeyLists items
  | .union members _ => allKeyLists members
  | .dict domain codomain _ => keyLists domain ++ keyLists codomain
  | .refinement base _ _ => keyLists base
  | .intersection members _ => allKeyLists members
  | .interface props _ => props.map Prod.fst :: propKeyLists props
  | .extend mixins props _ => allKeyLists mixins ++ keyLists props

def allKeyLists : List Descriptor → List (List String)
  | [] => []
  | d :: ds => keyLists d ++ allKeyLists ds

def propKeyLists : List (String × Descriptor) → List (List String)
  | [] => []
  | (_, d) :: props => keyLists d ++ propKeyLists props

end

/-- No object type in the descriptor lists a key twice. -/
def KeysDistinct (d : Descriptor) : Prop := ∀ keys ∈ d.keyLists, keys.Nodup

instance (d : Descriptor) : Decidable d.KeysDistinct :=
  inferInstanceAs (Decidable (∀ keys ∈ d.keyLists, keys.Nodup))

variable {library : Expr} {world : World}

theorem entry?_lowerProps_eq_none {key : String} {props : List (String × Descriptor)}
    (absent : key ∉ props.map Prod.fst) : Expr.entry? key (lowerProps library props) = none := by
  induction props with
  | nil => rfl
  | cons p props ih =>
    rw [List.map_cons, List.mem_cons, not_or] at absent
    simp [lowerProps, Expr.entry?, ih absent.2, absent.1]

section
variable {ds : List Descriptor} {es : List Expr}
  (h : List.Forall₂ (fun d e => ∀ v, world.Accepts library e v ↔ Accepts world d v) ds es)
include h

theorem acceptsEach_iff (vs : List Value) :
    List.Forall₂ (world.Accepts library) es vs ↔ AcceptsEach world ds vs := by
  induction h generalizing vs with
  | nil => cases vs <;> simp [AcceptsEach]
  | cons first _ ih => cases vs <;> simp [AcceptsEach, first, ih]

theorem acceptsSome_iff (v : Value) :
    (∃ e ∈ es, world.Accepts library e v) ↔ AcceptsSome world ds v := by
  induction h with
  | nil => simp [AcceptsSome]
  | cons first _ ih => simp [AcceptsSome, first, ih]

theorem acceptsAll_exprs_iff (v : Value) :
    (∀ e ∈ es, world.Accepts library e v) ↔ AcceptsAll world ds v := by
  induction h with
  | nil => simp [AcceptsAll]
  | cons first _ ih => simp [AcceptsAll, first, ih]

end

mutual

/-- The library accepts with the expression of a descriptor what the descriptor accepts. -/
theorem accepts_lower (respects : world.Respects library) : ∀ d : Descriptor, d.Dotted →
    d.KeysDistinct → ∀ v, world.Accepts library (d.lower library) v ↔ d.Accepts world v
  | .reference expr, dotted, _, v => by
    obtain ⟨q, rfl⟩ := dotted expr (List.mem_singleton_self expr)
    exact World.accepts_ofName respects
  | .primitive base, _, _, v => World.accepts_irreducible respects
  | .list element name, dotted, distinct, v => by
    simp only [lower, combine, Accepts]
    simp [World.accepts_call, Value.IsArrayOf, accepts_lower respects element dotted distinct]
  | .maybe inner name, dotted, distinct, v => by
    simp only [lower, combine, Accepts]
    simp [World.accepts_call, accepts_lower respects inner dotted distinct]
  | .tuple items name, dotted, distinct, v => by
    have each := accepts_lowerAll respects items dotted distinct
    simp only [lower, combine, Accepts]
    simp [World.accepts_call, acceptsEach_iff each]
  | .union members name, dotted, distinct, v => by
    have each := accepts_lowerAll respects members dotted distinct
    simp only [lower, combine, Accepts]
    simp [World.accepts_call, acceptsSome_iff each]
  | .enums values name, _, _, v => by
    simp only [lower, combine, Accepts]
    simp [World.accepts_call]
  | .dict domain codomain name, dotted, distinct, v => by
    obtain ⟨dottedKeys, dottedValues⟩ := List.forall_mem_append.1 dotted
    obtain ⟨distinctKeys, distinctValues⟩ := List.forall_mem_append.1 distinct
    have first := accepts_lower respects domain dottedKeys distinctKeys
    have second := accepts_lower respects codomain dottedValues distinctValues
    simp only [lower, combine, Accepts]
    simp [World.accepts_call, Value.IsDictOf, first, second]
  | .refinement base predicate name, dotted, distinct, v => by
    obtain ⟨dottedBase, dottedPredicate⟩ := List.forall_mem_append.1 dotted
    have inner := accepts_lower respects base dottedBase distinct
    obtain ⟨q, rfl⟩ := dottedPredicate predicate (List.mem_singleton_self _)
    simp only [lower, combine, Accepts]
    simp [World.accepts_call, inner, World.holds_ofName]
  | .intersection members name, dotted, distinct, v => by
    have each := accepts_lowerAll respects members dotted distinct
    simp only [lower, combine, Accepts]
    simp [World.accepts_call, acceptsAll_exprs_iff each]
  | .interface props name, dotted, distinct, v => by
    obtain ⟨keys, distinct⟩ := List.forall_mem_cons.1 distinct
    have each := accepts_lowerProps respects props dotted distinct keys v
    simp only [lower, combine, Accepts]
    simp [World.accepts_call, each]
  | .extend mixins props name, dotted, distinct, v => by
    obtain ⟨dottedMixins, dottedOwn⟩ := List.forall_mem_append.1 dotted
    obtain ⟨distinctMixins, distinctOwn⟩ := List.forall_mem_append.1 distinct
    have each := accepts_lowerAll respects mixins dottedMixins distinctMixins
    have own := accepts_lower respects props dottedOwn distinctOwn
    simp only [lower, combine, Accepts, ← acceptsAll_exprs_iff each]
    simp [World.accepts_call, or_imp, forall_and, own]
  | .literal value name, _, _, v => by
    have number : world.Accepts library (.member library Irreducible.number.name) v ↔
        ∃ x, v = .number x := World.accepts_irreducible respects
    simp only [lower, combine, Accepts]
    simp [World.accepts_call, number, World.holds_equalsPredicate]
    exact fun x same _ => ⟨x, same⟩
termination_by structural d => d

theorem accepts_lowerAll (respects : world.Respects library) : ∀ ds : List Descriptor,
    (∀ e ∈ allExpressions ds, ∃ q, e = .ofName q) → (∀ keys ∈ allKeyLists ds, keys.Nodup) →
      List.Forall₂ (fun d e => ∀ v, world.Accepts library e v ↔ Accepts world d v) ds
        (lowerAll library ds)
  | [], _, _ => .nil
  | d :: ds, dotted, distinct => by
    obtain ⟨dottedFirst, dotted⟩ := List.forall_mem_append.1 dotted
    obtain ⟨distinctFirst, distinct⟩ := List.forall_mem_append.1 distinct
    exact .cons (accepts_lower respects d dottedFirst distinctFirst)
      (accepts_lowerAll respects ds dotted distinct)
termination_by structural ds => ds

theorem accepts_lowerProps (respects : world.Respects library) :
    ∀ props : List (String × Descriptor), (∀ e ∈ propExpressions props, ∃ q, e = .ofName q) →
      (∀ keys ∈ propKeyLists props, keys.Nodup) → (props.map Prod.fst).Nodup →
      ∀ v, (∀ key e, Expr.entry? key (lowerProps library props) = some e →
        world.Accepts library e (v.get world.property key)) ↔ AcceptsProps world props v
  | [], _, _, _, v => by simp [lowerProps, Expr.entry?, AcceptsProps]
  | (key, d) :: props, dotted, distinct, keys, v => by
    obtain ⟨dottedFirst, dotted⟩ := List.forall_mem_append.1 dotted
    obtain ⟨distinctFirst, distinct⟩ := List.forall_mem_append.1 distinct
    obtain ⟨new, keys⟩ := List.nodup_cons.1 keys
    have first := accepts_lower respects d dottedFirst distinctFirst
    have others := accepts_lowerProps respects props dotted distinct keys v
    -- No later entry is for this key, so that its own one counts.
    have absent : Expr.entry? key (lowerProps library props) = none := entry?_lowerProps_eq_none new
    simp only [lowerProps, AcceptsProps, ← others, ← first, Expr.entry?]
    constructor
    · intro h
      refine ⟨h key _ (by simp [absent]), fun key' e found => h key' e (by simp [found])⟩
    · rintro ⟨own, h⟩ key' e found
      obtain found | ⟨-, isOwn⟩ := Option.or_eq_some_iff.1 found
      · exact h key' e found
      · obtain ⟨rfl, rfl⟩ : key' = key ∧ d.lower library = e := by simpa using isOwn
        exact own
termination_by structural props => props

end

/-- The descriptor accepts exactly the values with the given meaning, and so does the expression
that it is lowered to, with any reference to the library, unless an object literal in it has two
entries for one key. -/
def Validates (world : World) (d : Descriptor) (meaning : Value → Prop) : Prop :=
  ∀ v, (d.Accepts world v ↔ meaning v) ∧
    (d.KeysDistinct → ∀ library, world.Respects library →
      (world.Accepts library (d.lower library) v ↔ meaning v))

theorem Dotted.validates {d : Descriptor} (dotted : d.Dotted) {meaning : Value → Prop}
    (h : ∀ v, d.Accepts world v ↔ meaning v) : d.Validates world meaning :=
  fun v => ⟨h v, fun distinct _ respects =>
    (accepts_lower respects d dotted distinct v).trans (h v)⟩

end Descriptor

/-- The encoding keeps the meaning: the validator of an annotation, of a type alias or of an
interface accepts exactly the values that are described, whatever the types and predicates of the
program are and under whatever name the type is shown. -/
theorem descriptor_validates_satisfies (world : World) (scope : Scope) (d : Descriptor) :
    (∀ (type : Ty) (name : Option String), type.descriptor scope name = .ok d →
      d.Validates world (type.Satisfies world scope)) ∧
    (∀ decl : TypeAlias, decl.descriptor scope = .ok d →
      d.Validates world (decl.Satisfies world scope)) ∧
    (∀ decl : InterfaceDecl, decl.descriptor scope = .ok d →
      d.Validates world (decl.Satisfies world scope)) := by
  refine ⟨fun type name h => ?_, fun decl h => ?_, fun decl h => ?_⟩
  · have dotted : d.Dotted := Ty.descriptor_induction (Ty.dotted_rules scope) h
    exact dotted.validates (Ty.accepts_iff h)
  · exact (TypeAlias.descriptor_dotted h).validates (TypeAlias.accepts_iff h)
  · exact (InterfaceDecl.descriptor_dotted h).validates (InterfaceDecl.accepts_iff h)

/-- A world without types, and with one predicate for the values that are objects. -/
def objectsWorld : World where
  type _ _ := False
  predicate _ v := ∃ properties, v = .object properties
  hasProperties v := v.isNil = false
  property _ _ := .undefined
  irreducible _ _ := False

/-- The same world, in which the program can also name the types of the library `t`. -/
def namedObjectsWorld : World :=
  { objectsWorld with type := fun e v => ∃ name, e = .member (.ident "t") name ∧
      objectsWorld.Member name v }

theorem namedObjectsWorld_respects : namedObjectsWorld.Respects (.ident "t") := by
  intro name v
  constructor
  · rintro ⟨name', same, member⟩
    cases same
    exact member
  · exact fun member => ⟨name, rfl, member⟩

/-- An account: an object narrowed by a predicate, with a choice of strings and an optional list of
a generic type. -/
def accountType : Ty :=
  .intersection
    [.object { properties :=
        [{ key := "plan"
           value := .union [.string "free" .unknown, .string "paid" .unknown] .unknown },
          { key := "notes", value := .array (.named { name := ⟨["T"]⟩ }) .unknown
            optional := true }] },
      .named { name := ⟨["$Refinement"]⟩
               args := some [.typeof { name := ⟨["isObject"]⟩ } .unknown] }] .unknown

theorem accountType_validates : ∃ d, accountType.descriptor [["T"]] (some "Account") = .ok d ∧
    d.KeysDistinct ∧
    d.Validates namedObjectsWorld (accountType.Satisfies namedObjectsWorld [["T"]]) ∧
    ∀ v, namedObjectsWorld.Accepts (.ident "t") (d.lower (.ident "t")) v ↔
      accountType.Satisfies namedObjectsWorld [["T"]] v := by
  obtain ⟨d, mapped, distinct⟩ : ∃ d,
      accountType.descriptor [["T"]] (some "Account") = .ok d ∧ d.KeysDistinct := ⟨_, rfl, by decide⟩
  have validates := (descriptor_validates_satisfies namedObjectsWorld [["T"]] d).1 accountType
    (some "Account") mapped
  exact ⟨d, mapped, distinct, validates,
    fun v => (validates v).2 distinct _ namedObjectsWorld_respects⟩

end TypeGuard
