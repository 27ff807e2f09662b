import TypeGuard.Proofs.Descriptor.Scope
import TypeGuard.Proofs.Value

/-!
# What descriptors accept

The values that a descriptor accepts are those that its annotation describes. Acceptance follows the
combinators of the validation library, and the meaning of annotations follows their structure; both
are relative to what the types and predicates of the program are.
-/

namespace TypeGuard

/-- What a program takes from outside: its types and predicates, which values can be asked for
properties, the properties of values that are no objects, and the other types of the validation
library. -/
structure World where
  type : Expr → Value → Prop
  predicate : Expr → Value → Prop
  hasProperties : Value → Prop
  property : Value → String → Value
  irreducible : String → Value → Prop

/-- The value is an array whose elements are all as given. -/
def Value.IsArrayOf (element : Value → Prop) (v : Value) : Prop :=
  ∃ vs, v = .array vs ∧ ∀ x ∈ vs, element x

/-- The value is an object whose keys and values are all as given. -/
def Value.IsDictOf (key value : Value → Prop) (v : Value) : Prop :=
  ∃ properties, v = .object properties ∧
    ∀ name x, properties name = some x → key (.string name) ∧ value x

section
variable (world : World)

/-! ## Acceptance -/

/-- The type of the library with the given name accepts the value. -/
def World.Member (name : String) (v : Value) : Prop :=
  match Irreducible.ofName name with
  | .number => ∃ x, v = .number x
  | .string => ∃ s, v = .string s
  | .boolean => ∃ b, v = .boolean b
  | .nil => v.isNil = true
  | .any => True
  | .function => ∃ f, v = .function f
  | .other name => world.irreducible name v

namespace Descriptor

mutual

/-- The validator of the descriptor accepts the value. -/
def Accepts : Descriptor → Value → Prop
  | .reference expr, v => world.type expr v
  | .primitive base, v => world.Member base.name v
  | .list element _, v => v.IsArrayOf (Accepts element)
  | .maybe inner _, v => v.isNil = true ∨ Accepts inner v
  | .tuple items _, v => ∃ vs, v = .array vs ∧ AcceptsEach items vs
  | .union members _, v => AcceptsSome members v
  | .enums values _, v => ∃ s ∈ values, v = .string s
  | .dict domain codomain _, v => v.IsDictOf (Accepts domain) (Accepts codomain)
  | .refinement base predicate _, v => Accepts base v ∧ world.predicate predicate v
  | .intersection members _, v => AcceptsAll members v
  | .interface props _, v => world.hasProperties v ∧ AcceptsProps props v
  | .extend mixins props _, v => AcceptsAll mixins v ∧ Accepts props v
  | .literal value _, v => ∃ x, v = .number x ∧ x.equals value.toBinary64 = true

def AcceptsEach : List Descriptor → List Value → Prop
  | [], vs => vs = []
  | d :: ds, vs => ∃ x xs, vs = x :: xs ∧ Accepts d x ∧ AcceptsEach ds xs

def AcceptsSome : List Descriptor → Value → Prop
  | [], _ => False
  | d :: ds, v => Accepts d v ∨ AcceptsSome ds v

def AcceptsAll : List Descriptor → Value → Prop
  | [], _ => True
  | d :: ds, v => Accepts d v ∧ AcceptsAll ds v

def AcceptsProps : List (String × Descriptor) → Value → Prop
  | [], _ => True
  | (key, d) :: props, v => Accepts d (v.get world.property key) ∧ AcceptsProps props v

end

end Descriptor

/-! ## Meaning -/

def Primitive.Satisfies : Primitive → Value → Prop
  | .number, v => ∃ x, v = .number x
  | .string, v => ∃ s, v = .string s
  | .boolean, v => ∃ b, v = .boolean b
  | .void, v => v.isNil = true
  | .null, v => v.isNil = true
  | .any, _ => True
  | .mixed, _ => True

/-- The predicate of a refinement marker holds of the value. -/
def TypeRef.Refines (ref : TypeRef Ty) (v : Value) : Prop :=
  match ref.args with
  | some [.typeof argument _] => world.predicate (.ofName argument.name) v
  | _ => False

variable (scope : Scope)

namespace Ty

mutual

/-- The annotation describes the value. An operand of an intersection may be a refinement marker,
which describes the values of which its predicate holds. -/
def Satisfies : Ty → Value → Prop
  | .named ⟨id, args, loc⟩, v =>
    if id.isSimply "Array" then
      match args with
      | some [element] => v.IsArrayOf (Satisfies element)
      | _ => False
    else if id.boundIn scope then True
    else if id.isSimply refinementMarker then TypeRef.Refines world ⟨id, args, loc⟩ v
    else world.type (.ofName id) v
  | .array element _, v => v.IsArrayOf (Satisfies element)
  | .nullable inner _, v => v.isNil = true ∨ Satisfies inner v
  | .tuple types _, v => ∃ vs, v = .array vs ∧ SatisfiesEach types vs
  | .union types _, v => SatisfiesSome types v
  | .intersection types _, v => SatisfiesAll types v
  | .object ⟨properties, indexers, _⟩, v =>
    match indexers with
    | [] => world.hasProperties v ∧ SatisfiesProps properties v
    | [⟨key, value, _, _⟩] => v.IsDictOf (Satisfies key) (Satisfies value)
    | _ => False
  | .function _ _ _, v => ∃ f, v = .function f
  | .primitive value _, v => value.Satisfies v
  | .string value _, v => v = .string value
  | .number value _, v => ∃ x, v = .number x ∧ x.equals value.toBinary64 = true
  | .boolean value _, v => v = .boolean value
  -- What is not checked at run time describes nothing.
  | .typeof _ _, _ => False
  | .stray (.record .functionType _), v => ∃ f, v = .function f
  | .stray _, _ => False

def SatisfiesEach : List Ty → List Value → Prop
  | [], vs => vs = []
  | type :: types, vs => ∃ x xs, vs = x :: xs ∧ Satisfies type x ∧ SatisfiesEach types xs

def SatisfiesSome : List Ty → Value → Prop
  | [], _ => False
  | type :: types, v => Satisfies type v ∨ SatisfiesSome types v

def SatisfiesAll : List Ty → Value → Prop
  | [], _ => True
  | type :: types, v => Satisfies type v ∧ SatisfiesAll types v

/-- Each property has a value as described, where an optional one may also have none. -/
def SatisfiesProps : List (Property Ty) → Value → Prop
  | [], _ => True
  | ⟨key, value, optional, _⟩ :: properties, v =>
    (Satisfies value (v.get world.property key) ∨
      optional = true ∧ (v.get world.property key).isNil = true) ∧
    SatisfiesProps properties v

end

end Ty

/-- The values that a type alias stands for. -/
def TypeAlias.Satisfies (decl : TypeAlias) (v : Value) : Prop :=
  decl.right.Satisfies world (decl.typeParams :: scope) v

/-- The values that an interface stands for: those of all supertypes that have its own properties.
A refinement marker among the supertypes is a predicate. -/
def InterfaceDecl.Satisfies (decl : InterfaceDecl) (v : Value) : Prop :=
  if decl.supertypes = [] then decl.body.Satisfies world (decl.typeParams :: scope) v
  else
    (∀ ref ∈ decl.supertypes,
      if ref.isRefinement then ref.Refines world v else world.type (.ofName ref.name) v) ∧
    world.hasProperties v ∧
    Ty.SatisfiesProps world (decl.typeParams :: scope) decl.body.shape.properties v

end

/-! ## The encoding keeps the meaning -/

section
variable {world : World} {scope : Scope}

theorem Value.IsArrayOf.congr {P Q : Value → Prop} (h : ∀ x, P x ↔ Q x) (v : Value) :
    v.IsArrayOf P ↔ v.IsArrayOf Q := by
  simp only [Value.IsArrayOf, h]

theorem Value.IsDictOf.congr {P Q P' Q' : Value → Prop} (h : ∀ x, P x ↔ Q x)
    (h' : ∀ x, P' x ↔ Q' x) (v : Value) : v.IsDictOf P P' ↔ v.IsDictOf Q Q' := by
  simp only [Value.IsDictOf, h, h']

theorem Descriptor.acceptsAll_iff {ds : List Descriptor} {v : Value} :
    Descriptor.AcceptsAll world ds v ↔ ∀ d ∈ ds, d.Accepts world v := by
  induction ds with
  | nil => simp [Descriptor.AcceptsAll]
  | cons d ds ih => simp [Descriptor.AcceptsAll, ih]

theorem Descriptor.accepts_refine {base : Descriptor} {predicates : List Expr}
    {name : Option String} {v : Value} :
    (base.refine predicates name).Accepts world v ↔
      base.Accepts world v ∧ ∀ p ∈ predicates, world.predicate p v := by
  unfold Descriptor.refine
  induction predicates generalizing base with
  | nil => simp
  | cons predicate predicates ih => simp [ih, Descriptor.Accepts, and_assoc]

/-- What an operand of an intersection asks of a value. -/
def Operand.Accepts (world : World) : Operand → Value → Prop
  | .type d, v => d.Accepts world v
  | .refinement predicate _, v => world.predicate predicate v

theorem Operand.types_and_predicates_iff {os : List Operand} {v : Value} :
    ((∀ d ∈ Operand.types os, d.Accepts world v) ∧
      ∀ p ∈ Operand.predicates os, world.predicate p v) ↔ ∀ o ∈ os, o.Accepts world v := by
  induction os with
  | nil => simp [Operand.types, Operand.predicates]
  | cons o os ih =>
    rw [List.forall_mem_cons, ← ih]
    cases o with
    | type d => simp [Operand.types, Operand.predicates, Operand.Accepts, and_assoc]
    | refinement predicate loc =>
      simp [Operand.types, Operand.predicates, Operand.Accepts, and_left_comm]

/-- An intersection accepts what all its operands accept, in whatever order types and predicates are
applied. -/
theorem Operand.accepts_intersect {os : List Operand} {name : Option String} {v : Value} :
    (Operand.intersect os name).Accepts world v ↔ ∀ o ∈ os, o.Accepts world v := by
  rw [← Operand.types_and_predicates_iff, Operand.intersect]
  split
  next base single => simp [Descriptor.accepts_refine, single]
  · rw [Descriptor.accepts_refine, Descriptor.Accepts, Descriptor.acceptsAll_iff]

namespace Ty

theorem satisfiesSome_of_stringLiterals? {types : List Ty} {values : List String}
    (h : stringLiterals? types = some values) (v : Value) :
    (∃ s ∈ values, v = .string s) ↔ SatisfiesSome world scope types v := by
  induction types generalizing values with
  | nil =>
    cases h
    simp [SatisfiesSome]
  | cons type types ih =>
    cases type with
    | string value loc =>
      obtain ⟨others, found, rfl⟩ := Option.map_eq_some_iff.1 h
      simp [SatisfiesSome, Satisfies, ← ih found]
    | _ => cases h

theorem acceptsEach_iff {types : List Ty} {ds : List Descriptor}
    (h : List.Forall₂ (fun type d => ∀ v, Descriptor.Accepts world d v ↔
      Satisfies world scope type v) types ds) (vs : List Value) :
    Descriptor.AcceptsEach world ds vs ↔ SatisfiesEach world scope types vs := by
  induction h generalizing vs with
  | nil => rfl
  | cons first _ ih => simp only [Descriptor.AcceptsEach, SatisfiesEach, first, ih]

theorem acceptsSome_iff {types : List Ty} {ds : List Descriptor}
    (h : List.Forall₂ (fun type d => ∀ v, Descriptor.Accepts world d v ↔
      Satisfies world scope type v) types ds) (v : Value) :
    Descriptor.AcceptsSome world ds v ↔ SatisfiesSome world scope types v := by
  induction h with
  | nil => rfl
  | cons first _ ih => simp only [Descriptor.AcceptsSome, SatisfiesSome, first, ih]

theorem acceptsAll_operands_iff {types : List Ty} {os : List Operand}
    (h : List.Forall₂ (fun type o => ∀ v, Operand.Accepts world o v ↔
      Satisfies world scope type v) types os) (v : Value) :
    (∀ o ∈ os, o.Accepts world v) ↔ SatisfiesAll world scope types v := by
  induction h with
  | nil => simp [SatisfiesAll]
  | cons first _ ih => simp [SatisfiesAll, first, ih]

theorem accepts_property {p : Property Ty} {d : Descriptor}
    (h : ∀ v, Descriptor.Accepts world d v ↔ Satisfies world scope p.value v) (v : Value) :
    (p.descriptor d).Accepts world v ↔
      Satisfies world scope p.value v ∨ p.optional = true ∧ v.isNil = true := by
  unfold Property.descriptor
  split
  next optional => simp [Descriptor.Accepts, h, optional, or_comm]
  next required => simp [h, required]

theorem acceptsProps_iff {properties : List (Property Ty)} {ds : List Descriptor}
    (h : List.Forall₂ (fun p d => ∀ v, Descriptor.Accepts world d v ↔
      Satisfies world scope p.value v) properties ds) (v : Value) :
    Descriptor.AcceptsProps world
        (properties.zipWith (fun p d => (p.key, p.descriptor d)) ds) v ↔
      SatisfiesProps world scope properties v := by
  induction h with
  | nil => rfl
  | cons first _ ih => exact and_congr (accepts_property first _) ih

theorem satisfies_named {id : QualifiedName} {args : Option (List Ty)} {loc : Location} {v : Value}
    (other : id.isSimply "Array" = false) :
    Satisfies world scope (.named ⟨id, args, loc⟩) v ↔
      if id.boundIn scope then True
      else if id.isSimply refinementMarker then TypeRef.Refines world ⟨id, args, loc⟩ v
      else world.type (.ofName id) v := by
  unfold Satisfies
  rw [other, if_neg Bool.false_ne_true]

/-- An operand accepts what its annotation describes. -/
theorem accepts_rules (world : World) (scope : Scope) :
    EncodingRules scope fun type o => ∀ v, o.Accepts world v ↔ Satisfies world scope type v where
  arrayOf {id element loc d name} isArray h v := by
    have simply : id.isSimply "Array" = true := by simp [QualifiedName.isSimply, isArray]
    simp only [Satisfies, simply, if_true]
    exact Value.IsArrayOf.congr h v
  parameter {parameter args loc} other bound v := by
    rw [satisfies_named (by simpa [QualifiedName.isSimply] using other)]
    rw [QualifiedName.boundIn, if_pos bound]
    exact Iff.rfl
  marker unbound v := by
    rw [satisfies_named (by decide)]
    simp [QualifiedName.boundIn, unbound, QualifiedName.isSimply, TypeRef.Refines, Operand.Accepts]
  reference {id args loc} isReference v := by
    rw [satisfies_named isReference.not_array, isReference.unbound, isReference.not_marker]
    rfl
  array h := Value.IsArrayOf.congr h
  nullable h v := or_congr_right (h v)
  tuple h v := exists_congr fun vs => and_congr_right fun _ => acceptsEach_iff h vs
  enums literals := satisfiesSome_of_stringLiterals? literals
  union _ h := acceptsSome_iff h
  intersection h _ v := Operand.accepts_intersect.trans (acceptsAll_operands_iff h v)
  interface h v := and_congr_right fun _ => acceptsProps_iff h v
  dict hd hc := Value.IsDictOf.congr hd hc
  function _ := Iff.rfl
  primitive {value loc} v := by cases value <;> rfl
  string {value loc name} v := by simp [Operand.Accepts, Descriptor.Accepts, Satisfies]
  number _ := Iff.rfl
  stray _ := Iff.rfl

end Ty

theorem Ty.accepts_iff {type : Ty} {name : Option String} {d : Descriptor}
    (h : type.descriptor scope name = .ok d) (v : Value) :
    d.Accepts world v ↔ type.Satisfies world scope v :=
  Ty.descriptor_induction (Ty.accepts_rules world scope) h v

theorem TypeAlias.accepts_iff {decl : TypeAlias} {d : Descriptor}
    (h : decl.descriptor scope = .ok d) (v : Value) :
    d.Accepts world v ↔ decl.Satisfies world scope v :=
  Ty.accepts_iff (TypeAlias.descriptor_eq_ok h) v

theorem TypeRef.accepts_supertypes {refs : List (TypeRef Ty)} {os : List Operand}
    (h : List.Forall₂ (fun ref o => ref.supertype = .ok o) refs os) (v : Value) :
    (∀ o ∈ os, o.Accepts world v) ↔ ∀ ref ∈ refs,
      if ref.isRefinement then ref.Refines world v else world.type (.ofName ref.name) v := by
  induction h with
  | nil => simp
  | @cons ref o _ _ mapped _ ih =>
    rw [List.forall_mem_cons, List.forall_mem_cons, ih]
    refine and_congr_left fun _ => ?_
    obtain ⟨isMarker, argument, loc, args, rfl⟩ | ⟨other, rfl⟩ := TypeRef.supertype_eq_ok mapped
    · have refinement : ref.isRefinement = true := by
        simp [TypeRef.isRefinement, QualifiedName.isSimply, isMarker]
      rw [if_pos refinement, TypeRef.Refines, args]
      rfl
    · have reference : ¬ ref.isRefinement = true := by
        simpa [TypeRef.isRefinement, QualifiedName.isSimply] using other
      rw [if_neg reference]
      rfl

theorem InterfaceDecl.accepts_iff {decl : InterfaceDecl} {d : Descriptor}
    (h : decl.descriptor scope = .ok d) (v : Value) :
    d.Accepts world v ↔ decl.Satisfies world scope v := by
  obtain ⟨none, body⟩ | ⟨some, supertypes, props, each, hprops, rfl⟩ :=
    InterfaceDecl.descriptor_eq_ok h
  · rw [InterfaceDecl.Satisfies, if_pos none]
    exact Ty.accepts_iff body v
  · obtain ⟨ds, own, rfl⟩ := Ty.props_induction (Ty.accepts_rules world _) _ hprops
    rw [InterfaceDecl.Satisfies, if_neg some, ← TypeRef.accepts_supertypes each,
      ← Operand.types_and_predicates_iff, ← Ty.acceptsProps_iff own, Descriptor.Accepts,
      Descriptor.acceptsAll_iff, Descriptor.accepts_refine, Descriptor.Accepts]
    tauto

end

end TypeGuard
