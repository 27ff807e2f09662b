import Mathlib.Data.List.Forall2
import TypeGuard.Descriptor.OfTy

/-!
# The rules of the encoding

Which annotation stands for which descriptor, as one rule for each way in which an annotation is
encoded. `Ty.operand_induction` says that nothing is encoded by any other rule: what the rules keep
holds of every annotation that has a descriptor.
-/

namespace TypeGuard

theorem bind_eq_ok_iff {ε α β : Type} {x : Except ε α} {f : α → Except ε β} {b : β} :
    (x >>= f) = .ok b ↔ ∃ a, x = .ok a ∧ f a = .ok b := by
  cases x <;> simp [bind, Except.bind]

theorem pure_eq_ok_iff {ε α : Type} {a b : α} :
    (pure a : Except ε α) = .ok b ↔ a = b := by
  simp [pure, Except.pure]

theorem Operand.toType_eq_ok_iff {o : Operand} {d : Descriptor} :
    o.toType = .ok d ↔ o = .type d := by
  cases o <;> simp [Operand.toType]

/-- The name is neither the array type, nor a type parameter in scope, nor the refinement marker. -/
def QualifiedName.IsReference (scope : Scope) (id : QualifiedName) : Prop :=
  ∀ name, id.parts = [name] →
    name ≠ "Array" ∧ scope.binds name = false ∧ name ≠ refinementMarker

/-- The descriptor of a property, given that of its value. -/
def Property.descriptor {α : Type} (property : Property α) (value : Descriptor) : Descriptor :=
  if property.optional then .maybe value none else value

/-- The descriptor of the operands of an intersection, of which at least one is a type. -/
def Operand.intersect (operands : List Operand) (name : Option String) : Descriptor :=
  match Operand.types operands with
  | [base] => base.refine (Operand.predicates operands) name
  | members => Descriptor.refine (.intersection members name) (Operand.predicates operands) name

namespace Ty

/-- The relation `holds` is kept by every rule of the encoding in the given scope. -/
structure EncodingRules (scope : Scope) (holds : Ty → Operand → Prop) : Prop where
  arrayOf {id : QualifiedName} {element : Ty} {loc : Location} {d : Descriptor}
    {name : Option String} : id.parts = ["Array"] → holds element (.type d) →
    holds (.named ⟨id, some [element], loc⟩) (.type (.list d name))
  parameter {parameter : String} {args : Option (List Ty)} {loc : Location} :
    parameter ≠ "Array" → scope.binds parameter = true →
    holds (.named ⟨⟨[parameter]⟩, args, loc⟩) (.type (.primitive .any))
  marker {argument : TypeRef Ty} {loc argumentLoc : Location} :
    scope.binds refinementMarker = false →
    holds (.named ⟨⟨[refinementMarker]⟩, some [.typeof argument argumentLoc], loc⟩)
      (.refinement (.ofName argument.name) loc)
  reference {id : QualifiedName} {args : Option (List Ty)} {loc : Location} :
    id.IsReference scope → holds (.named ⟨id, args, loc⟩) (.type (.reference (.ofName id)))
  array {element : Ty} {loc : Location} {d : Descriptor} {name : Option String} :
    holds element (.type d) → holds (.array element loc) (.type (.list d name))
  nullable {inner : Ty} {loc : Location} {d : Descriptor} {name : Option String} :
    holds inner (.type d) → holds (.nullable inner loc) (.type (.maybe d name))
  tuple {types : List Ty} {loc : Location} {ds : List Descriptor} {name : Option String} :
    List.Forall₂ (fun type d => holds type (.type d)) types ds →
    holds (.tuple types loc) (.type (.tuple ds name))
  enums {types : List Ty} {loc : Location} {values : List String} {name : Option String} :
    stringLiterals? types = some values → holds (.union types loc) (.type (.enums values name))
  union {types : List Ty} {loc : Location} {ds : List Descriptor} {name : Option String} :
    stringLiterals? types = none →
    List.Forall₂ (fun type d => holds type (.type d)) types ds →
    holds (.union types loc) (.type (.union ds name))
  intersection {types : List Ty} {loc : Location} {operands : List Operand}
    {name : Option String} :
    List.Forall₂ holds types operands → Operand.types operands ≠ [] →
    holds (.intersection types loc) (.type (Operand.intersect operands name))
  interface {properties : List (Property Ty)} {loc : Location} {ds : List Descriptor}
    {name : Option String} :
    List.Forall₂ (fun property d => holds property.value (.type d)) properties ds →
    holds (.object ⟨properties, [], loc⟩)
      (.type (.interface (properties.zipWith (fun p d => (p.key, p.descriptor d)) ds) name))
  dict {properties : List (Property Ty)} {indexer : Indexer Ty} {loc : Location}
    {domain codomain : Descriptor} {name : Option String} :
    holds indexer.key (.type domain) → holds indexer.value (.type codomain) →
    holds (.object ⟨properties, [indexer], loc⟩) (.type (.dict domain codomain name))
  function {params : List (FunctionTypeParam Ty)} {result : Ty} {loc : Location} :
    holds (.function params result loc) (.type (.primitive .function))
  primitive {value : Primitive} {loc : Location} :
    holds (.primitive value loc) (.type (.primitive value.irreducible))
  string {value : String} {loc : Location} {name : Option String} :
    holds (.string value loc) (.type (.enums [value] name))
  number {value : Number} {loc : Location} {name : Option String} :
    holds (.number value loc) (.type (.literal value name))
  stray {fields : List Datum} :
    holds (.stray (.record .functionType fields)) (.type (.primitive .function))

section
variable {scope : Scope} {holds : Ty → Operand → Prop}

theorem named_induction (rules : EncodingRules scope holds) {id : QualifiedName}
    {args : Option (List Ty)} {loc : Location} {name : Option String} {o : Operand}
    (element : ∀ t d, args = some [t] → operand scope none t = .ok (.type d) → holds t (.type d))
    (h : operand scope name (.named ⟨id, args, loc⟩) = .ok o) :
    holds (.named ⟨id, args, loc⟩) o := by
  obtain ⟨parts⟩ := id
  unfold operand at h
  dsimp only at h
  split at h
  next isArray =>
    have parts_eq : parts = ["Array"] := by simpa [QualifiedName.isSimply] using isArray
    split at h
    next t =>
      simp only [bind_eq_ok_iff, pure_eq_ok_iff, Operand.toType_eq_ok_iff] at h
      obtain ⟨_, mapped, d, rfl, rfl⟩ := h
      exact rules.arrayOf parts_eq (element t d rfl mapped)
    · simp at h
  next notArray =>
    split at h
    next parameter =>
      have ne : parameter ≠ "Array" := by simpa [QualifiedName.isSimply] using notArray
      split at h
      next bound =>
        cases h
        exact rules.parameter ne bound
      next unbound =>
        have free : scope.binds parameter = false := by simpa using unbound
        split at h
        next isMarker =>
          subst isMarker
          simp only [bind_eq_ok_iff, pure_eq_ok_iff, TypeRef.predicate] at h
          obtain ⟨predicate, mapped, rfl⟩ := h
          split at mapped
          · cases mapped
            exact rules.marker free
          · simp at mapped
        next notMarker =>
          cases h
          refine rules.reference fun s hs => ?_
          cases hs
          exact ⟨ne, free, notMarker⟩
    next several =>
      cases h
      exact rules.reference fun s hs => absurd hs (several s)

mutual

/-- What the rules of the encoding keep holds of every annotation that is encoded. -/
theorem operand_induction (rules : EncodingRules scope holds) :
    ∀ (type : Ty) {name : Option String} {o : Operand},
      operand scope name type = .ok o → holds type o
  | .named ⟨id, none, loc⟩, name, o, h => named_induction rules (by simp) h
  | .named ⟨id, some [], loc⟩, name, o, h => named_induction rules (by simp) h
  | .named ⟨id, some [t], loc⟩, name, o, h =>
    named_induction rules
      (fun _ _ same mapped => by cases same; exact operand_induction rules t mapped) h
  | .named ⟨id, some (_ :: _ :: _), loc⟩, name, o, h => named_induction rules (by simp) h
  | .array element loc, name, o, h => by
    simp only [operand, bind_eq_ok_iff, pure_eq_ok_iff, Operand.toType_eq_ok_iff] at h
    obtain ⟨_, mapped, d, rfl, rfl⟩ := h
    exact rules.array (operand_induction rules element mapped)
  | .nullable inner loc, name, o, h => by
    simp only [operand, bind_eq_ok_iff, pure_eq_ok_iff, Operand.toType_eq_ok_iff] at h
    obtain ⟨_, mapped, d, rfl, rfl⟩ := h
    exact rules.nullable (operand_induction rules inner mapped)
  | .tuple types loc, name, o, h => by
    simp only [operand, bind_eq_ok_iff, pure_eq_ok_iff] at h
    obtain ⟨ds, mapped, rfl⟩ := h
    exact rules.tuple (descriptors_induction rules types mapped)
  | .union types loc, name, o, h => by
    rw [operand] at h
    split at h
    next values literals =>
      cases h
      exact rules.enums literals
    next other =>
      simp only [bind_eq_ok_iff, pure_eq_ok_iff] at h
      obtain ⟨ds, mapped, rfl⟩ := h
      exact rules.union other (descriptors_induction rules types mapped)
  | .intersection types loc, name, o, h => by
    simp only [operand, bind_eq_ok_iff] at h
    obtain ⟨os, mapped, h⟩ := h
    have each := operands_induction rules types mapped
    split at h
    · simp [throw, throwThe, MonadExceptOf.throw] at h
    next base single =>
      cases h
      have encoded : holds (.intersection types loc) (.type (Operand.intersect os name)) :=
        rules.intersection each (by simp [single])
      simpa [Operand.intersect, single] using encoded
    next members none one =>
      cases h
      have encoded : holds (.intersection types loc) (.type (Operand.intersect os name)) :=
        rules.intersection each none
      rw [Operand.intersect] at encoded
      split at encoded
      next base single => exact absurd single (one base)
      · exact encoded
  | .object ⟨properties, [], loc⟩, name, o, h => by
    simp only [operand, bind_eq_ok_iff, pure_eq_ok_iff] at h
    obtain ⟨ps, mapped, rfl⟩ := h
    obtain ⟨ds, each, rfl⟩ := props_induction rules properties mapped
    exact rules.interface each
  | .object ⟨properties, [⟨key, value, id, indexerLoc⟩], loc⟩, name, o, h => by
    simp only [operand, bind_eq_ok_iff, pure_eq_ok_iff, Operand.toType_eq_ok_iff] at h
    obtain ⟨_, hkey, domain, rfl, _, hvalue, codomain, rfl, rfl⟩ := h
    exact rules.dict (operand_induction rules key hkey) (operand_induction rules value hvalue)
  | .object ⟨properties, _ :: _ :: _, loc⟩, name, o, h => by simp [operand] at h
  | .function _ _ _, name, o, h => by
    cases h
    exact rules.function
  | .primitive _ _, name, o, h => by
    cases h
    exact rules.primitive
  | .string _ _, name, o, h => by
    cases h
    exact rules.string
  | .number _ _, name, o, h => by
    cases h
    exact rules.number
  | .boolean _ _, name, o, h => by simp [operand] at h
  | .typeof _ _, name, o, h => by simp [operand] at h
  | .stray value, name, o, h => by
    rw [operand] at h
    unfold Datum.operand at h
    split at h
    · cases h
      exact rules.stray
    · simp at h

theorem operands_induction (rules : EncodingRules scope holds) :
    ∀ (types : List Ty) {os : List Operand},
      operands scope types = .ok os → List.Forall₂ holds types os
  | [], os, h => by
    cases h
    exact .nil
  | type :: types, os, h => by
    simp only [operands, bind_eq_ok_iff, pure_eq_ok_iff] at h
    obtain ⟨o, mapped, rest, others, rfl⟩ := h
    exact .cons (operand_induction rules type mapped) (operands_induction rules types others)

theorem descriptors_induction (rules : EncodingRules scope holds) :
    ∀ (types : List Ty) {ds : List Descriptor}, descriptors scope types = .ok ds →
      List.Forall₂ (fun type d => holds type (.type d)) types ds
  | [], ds, h => by
    cases h
    exact .nil
  | type :: types, ds, h => by
    simp only [descriptors, bind_eq_ok_iff, pure_eq_ok_iff, Operand.toType_eq_ok_iff] at h
    obtain ⟨_, mapped, d, rfl, rest, others, rfl⟩ := h
    exact .cons (operand_induction rules type mapped) (descriptors_induction rules types others)

theorem props_induction (rules : EncodingRules scope holds) :
    ∀ (properties : List (Property Ty)) {ps : List (String × Descriptor)},
      props scope properties = .ok ps →
      ∃ ds, List.Forall₂ (fun property d => holds property.value (.type d)) properties ds ∧
        ps = properties.zipWith (fun p d => (p.key, p.descriptor d)) ds
  | [], ps, h => by
    cases h
    exact ⟨[], .nil, rfl⟩
  | ⟨key, value, optional, loc⟩ :: properties, ps, h => by
    simp only [props, bind_eq_ok_iff, pure_eq_ok_iff, Operand.toType_eq_ok_iff] at h
    obtain ⟨_, mapped, d, rfl, rest, others, rfl⟩ := h
    obtain ⟨ds, each, rfl⟩ := props_induction rules properties others
    exact ⟨d :: ds, .cons (operand_induction rules value mapped) each, rfl⟩

end

theorem descriptor_induction (rules : EncodingRules scope holds) {type : Ty}
    {name : Option String} {d : Descriptor} (h : type.descriptor scope name = .ok d) :
    holds type (.type d) := by
  simp only [descriptor, bind_eq_ok_iff, Operand.toType_eq_ok_iff] at h
  obtain ⟨_, mapped, rfl⟩ := h
  exact operand_induction rules type mapped

end

end Ty

/-! ## Declarations -/

theorem TypeAlias.descriptor_eq_ok {scope : Scope} {decl : TypeAlias} {d : Descriptor}
    (h : decl.descriptor scope = .ok d) :
    decl.right.descriptor (decl.typeParams :: scope) (some decl.name) = .ok d := by
  unfold TypeAlias.descriptor TypeAlias.descriptorIn at h
  split at h
  · simp at h
  · exact h

theorem TypeRef.supertype_eq_ok {ref : TypeRef Ty} {o : Operand} (h : ref.supertype = .ok o) :
    (ref.name.parts = [refinementMarker] ∧ ∃ argument loc,
      ref.args = some [.typeof argument loc] ∧ o = .refinement (.ofName argument.name) ref.loc) ∨
    (ref.name.parts ≠ [refinementMarker] ∧ o = .type (.reference (.ofName ref.name))) := by
  unfold TypeRef.supertype at h
  split at h
  next isMarker =>
    simp only [bind_eq_ok_iff, pure_eq_ok_iff, TypeRef.predicate] at h
    obtain ⟨predicate, mapped, rfl⟩ := h
    split at mapped
    next argument loc args =>
      cases mapped
      exact .inl ⟨by simpa [isRefinement, QualifiedName.isSimply] using isMarker,
        argument, loc, args, rfl⟩
    · simp at mapped
  next notMarker =>
    cases h
    exact .inr ⟨by simpa [isRefinement, QualifiedName.isSimply] using notMarker, rfl⟩

theorem supertypes_eq_ok {refs : List (TypeRef Ty)} {os : List Operand}
    (h : refs.mapM TypeRef.supertype = .ok os) :
    List.Forall₂ (fun ref o => ref.supertype = .ok o) refs os := by
  induction refs generalizing os with
  | nil =>
    cases h
    exact .nil
  | cons ref refs ih =>
    simp only [List.mapM_cons, bind_eq_ok_iff, pure_eq_ok_iff] at h
    obtain ⟨o, first, rest, others, rfl⟩ := h
    exact .cons first (ih others)

/-- The descriptor of an interface: that of its members, or with supertypes an extension of these
by its own properties. -/
theorem InterfaceDecl.descriptor_eq_ok {scope : Scope} {decl : InterfaceDecl} {d : Descriptor}
    (h : decl.descriptor scope = .ok d) :
    (decl.supertypes = [] ∧
      decl.body.descriptor (decl.typeParams :: scope) (some decl.name) = .ok d) ∨
    (decl.supertypes ≠ [] ∧ ∃ supertypes props,
      List.Forall₂ (fun ref o => ref.supertype = .ok o) decl.supertypes supertypes ∧
      Ty.props (decl.typeParams :: scope) decl.body.shape.properties = .ok props ∧
      d = .extend (Operand.types supertypes)
        (Descriptor.refine (.interface props none) (Operand.predicates supertypes) none)
        (some decl.name)) := by
  unfold InterfaceDecl.descriptor InterfaceDecl.descriptorIn at h
  split at h
  · simp at h
  split at h
  next none => exact .inl ⟨by simpa using none, h⟩
  next some =>
    split at h
    · simp at h
    · simp only [bind_eq_ok_iff, pure_eq_ok_iff] at h
      obtain ⟨supertypes, hsupertypes, props, hprops, rfl⟩ := h
      exact .inr ⟨by simpa using some, supertypes, props, supertypes_eq_ok hsupertypes, hprops,
        rfl⟩

end TypeGuard
