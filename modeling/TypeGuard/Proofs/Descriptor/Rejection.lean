import TypeGuard.Diagnostic.Basic
import TypeGuard.Proofs.Descriptor.Scope
import TypeGuard.Proofs.Outcome

/-!
# Annotations without a descriptor

An annotation is looked into from left to right, and what stands inside it comes first. Some of its
parts are never looked at: the arguments of a reference, unless it is a single one of `Array`, the
parts of a function annotation, and the properties beside an indexer. An annotation has no
descriptor exactly if one of the places that are looked at has a fault of its own, and the error is
that of the first.

## Main definitions

* `Ty.children`: the places that are looked at directly inside an annotation.
* `Ty.Visited`: the places that are looked at at any depth.
* `Ty.visits`: these places in the order in which they are settled.
* `Visit.fault?`: what is wrong with a place itself.
-/

namespace TypeGuard

/-- A place that is looked at in an annotation. -/
structure Visit where
  type : Ty
  /-- The place is directly in an intersection. -/
  operand : Bool

namespace Ty

/-- The refinement marker, unless a type parameter in scope has its name. -/
def isMarker (scope : Scope) : Ty → Bool
  | .named ref => ref.name.isSimply refinementMarker && !scope.binds refinementMarker
  | _ => false

/-- The places that are looked at directly inside an annotation. -/
def children : Ty → List Visit
  | .named ⟨id, args, _⟩ =>
    if id.isSimply "Array" then
      match args with
      | some [element] => [⟨element, false⟩]
      | _ => []
    else []
  | .array element _ => [⟨element, false⟩]
  | .nullable inner _ => [⟨inner, false⟩]
  | .tuple types _ => types.map (⟨·, false⟩)
  | .union types _ =>
    match stringLiterals? types with
    | some _ => []
    | none => types.map (⟨·, false⟩)
  | .intersection types _ => types.map (⟨·, true⟩)
  | .object ⟨properties, indexers, _⟩ =>
    match indexers with
    | [] => properties.map fun property => ⟨property.value, false⟩
    | [indexer] => [⟨indexer.key, false⟩, ⟨indexer.value, false⟩]
    | _ => []
  | _ => []

/-- The place is reached from the root of the annotation. -/
inductive Visited (root : Ty) : Visit → Prop
  | root : Visited root ⟨root, false⟩
  | step {place inner : Visit} : Visited root place → inner ∈ place.type.children →
    Visited root inner

mutual

/-- The places inside an annotation, from left to right, each behind those inside itself. -/
def inside : Ty → List Visit
  | .named ⟨id, args, _⟩ =>
    if id.isSimply "Array" then
      match args with
      | some [element] => inside element ++ [⟨element, false⟩]
      | _ => []
    else []
  | .array element _ => inside element ++ [⟨element, false⟩]
  | .nullable inner _ => inside inner ++ [⟨inner, false⟩]
  | .tuple types _ => insideAll false types
  | .union types _ =>
    match stringLiterals? types with
    | some _ => []
    | none => insideAll false types
  | .intersection types _ => insideAll true types
  | .object ⟨properties, indexers, _⟩ =>
    match indexers with
    | [] => insideProps properties
    | [⟨key, value, _, _⟩] => inside key ++ ⟨key, false⟩ :: (inside value ++ [⟨value, false⟩])
    | _ => []
  | _ => []
termination_by structural type => type

def insideAll (operand : Bool) : List Ty → List Visit
  | [] => []
  | type :: types => inside type ++ ⟨type, operand⟩ :: insideAll operand types
termination_by structural types => types

def insideProps : List (Property Ty) → List Visit
  | [] => []
  | ⟨_, value, _, _⟩ :: properties => inside value ++ ⟨value, false⟩ :: insideProps properties
termination_by structural properties => properties

end

/-- The places that are looked at in an annotation, in the order in which they are settled. -/
def visits (type : Ty) : List Visit := inside type ++ [⟨type, false⟩]

/-- The kind of fault that an annotation can have. -/
def faultKind : Ty → FaultKind
  | .named ref => if ref.name.isSimply "Array" then .arrayArity else .invalidRefinement
  | _ => .unsupportedType

end Ty

/-- The one argument of the reference is the type of a value. -/
def TypeRef.hasPredicate (ref : TypeRef Ty) : Bool :=
  match ref.args with
  | some [.typeof _ _] => true
  | _ => false

/-- What is wrong with a tree in the place of an annotation, unless it is a function annotation. -/
def Datum.fault? : Datum → Option TypeError
  | .record .functionType _ => none
  | value => some value.unsupported

/-- What is wrong with a place itself, whatever is wrong inside it. -/
def Visit.fault? (scope : Scope) (place : Visit) : Option TypeError :=
  match place.type with
  | .named ⟨id, args, loc⟩ =>
    if id.isSimply "Array" then
      match args with
      | some [_] => none
      | _ => some (.arrayArity loc)
    else if Ty.isMarker scope (.named ⟨id, args, loc⟩) then
      if !TypeRef.hasPredicate ⟨id, args, loc⟩ then some (.malformedRefinement loc)
      else if !place.operand then some (.misplacedRefinement loc)
      else none
    else none
  | .intersection types loc =>
    if types.all (Ty.isMarker scope) then some (.onlyRefinements loc) else none
  | .object ⟨_, indexers, loc⟩ =>
    if 2 ≤ indexers.length then some (.severalIndexers indexers.length loc) else none
  | .boolean _ loc => some (.unsupported "BooleanLiteralTypeAnnotation" (some loc))
  | .typeof _ loc => some (.unsupported "TypeofTypeAnnotation" (some loc))
  | .stray value => value.fault?
  | _ => none

namespace Ty

/-! ## The places that are looked at -/

theorem insideAll_eq (operand : Bool) (types : List Ty) :
    insideAll operand types = types.flatMap fun type => inside type ++ [⟨type, operand⟩] := by
  induction types with
  | nil => rfl
  | cons type types ih => simp [insideAll, ih]

theorem insideProps_eq (properties : List (Property Ty)) :
    insideProps properties
      = properties.flatMap fun property => inside property.value ++ [⟨property.value, false⟩] := by
  induction properties with
  | nil => rfl
  | cons property properties ih => simp [insideProps, ih]

theorem inside_named {id : QualifiedName} {args : Option (List Ty)} {loc : Location}
    (other : id.isSimply "Array" = false) : inside (.named ⟨id, args, loc⟩) = [] := by
  unfold inside
  rw [other, if_neg Bool.false_ne_true]

/-- The places inside an annotation are its children, each behind the places inside it. -/
theorem inside_eq (type : Ty) :
    inside type = type.children.flatMap fun place => inside place.type ++ [place] := by
  cases type with
  | named ref =>
    obtain ⟨id, args, loc⟩ := ref
    cases isArray : id.isSimply "Array" with
    | false => simp [inside_named, children, isArray]
    | true =>
      rcases args with _ | ⟨_ | ⟨element, _ | ⟨second, others⟩⟩⟩
      all_goals simp [inside, children, isArray]
  | union types loc =>
    rw [inside, children]
    split
    · rfl
    · rw [insideAll_eq, List.flatMap_map]
  | tuple types loc | intersection types loc =>
    rw [inside, children, insideAll_eq, List.flatMap_map]
  | object shape =>
    obtain ⟨properties, indexers, loc⟩ := shape
    rcases indexers with _ | ⟨⟨key, value, id, indexerLoc⟩, _ | ⟨second, others⟩⟩
    · simp [inside, children, insideProps_eq, List.flatMap_map]
    · simp [inside, children]
    · rfl
  | array element loc | nullable inner loc => simp [inside, children]
  | function | primitive | string | number | boolean | typeof | stray => rfl

theorem mem_inside_iff {type : Ty} {place : Visit} :
    place ∈ inside type ↔ ∃ child ∈ type.children, place ∈ inside child.type ∨ place = child := by
  rw [inside_eq]
  simp

theorem sizeOf_lt_of_mem_types {types : List Ty} {operand : Bool} {place : Visit}
    (h : place ∈ types.map (Visit.mk · operand)) : sizeOf place.type < sizeOf types := by
  obtain ⟨type, member, rfl⟩ := List.mem_map.1 h
  exact List.sizeOf_lt_of_mem member

theorem sizeOf_lt_of_mem_children {type : Ty} {place : Visit} (h : place ∈ type.children) :
    sizeOf place.type < sizeOf type := by
  cases type with
  | named ref =>
    obtain ⟨id, args, loc⟩ := ref
    rcases args with _ | ⟨_ | ⟨element, _ | ⟨second, others⟩⟩⟩
    · simp [children] at h
    · simp [children] at h
    · obtain ⟨-, rfl⟩ : id.isSimply "Array" = true ∧ place = ⟨element, false⟩ := by
        simpa [children] using h
      simp
      omega
    · simp [children] at h
  | array element loc | nullable inner loc =>
    obtain rfl := List.mem_singleton.1 h
    simp
    omega
  | tuple types loc | intersection types loc =>
    have smaller := sizeOf_lt_of_mem_types h
    simp
    omega
  | union types loc =>
    rw [children] at h
    split at h
    · simp at h
    · have smaller := sizeOf_lt_of_mem_types h
      simp
      omega
  | object shape =>
    obtain ⟨properties, indexers, loc⟩ := shape
    rcases indexers with _ | ⟨⟨key, value, id, indexerLoc⟩, _ | ⟨second, others⟩⟩
    · obtain ⟨property, member, rfl⟩ := List.mem_map.1 h
      have smaller := List.sizeOf_lt_of_mem member
      obtain ⟨key, value, optional, propertyLoc⟩ := property
      simp at smaller ⊢
      omega
    · obtain rfl | rfl : place = ⟨key, false⟩ ∨ place = ⟨value, false⟩ := by
        simpa [children] using h
      all_goals
        simp
        omega
    · simp [children] at h
  | function | primitive | string | number | boolean | typeof | stray => simp [children] at h

/-- What holds of an annotation if it holds of the places inside it holds of all annotations. -/
theorem children_induction {holds : Ty → Prop}
    (step : ∀ type : Ty, (∀ place ∈ type.children, holds place.type) → holds type) (type : Ty) :
    holds type :=
  step type fun place _ => children_induction step place.type
termination_by sizeOf type
decreasing_by exact sizeOf_lt_of_mem_children ‹_›

theorem visited_of_mem_inside {root : Ty} {place inner : Visit} (outer : Visited root place)
    (h : inner ∈ inside place.type) : Visited root inner := by
  induction hp : place.type using children_induction generalizing place with
  | step type ih =>
    subst hp
    obtain ⟨child, member, deeper | rfl⟩ := mem_inside_iff.1 h
    · exact ih child member (.step outer member) deeper rfl
    · exact .step outer member

theorem children_subset_inside {type : Ty} {place inner : Visit} (h : place ∈ inside type)
    (member : inner ∈ place.type.children) : inner ∈ inside type := by
  induction type using children_induction with
  | step type ih =>
    obtain ⟨child, found, deeper | rfl⟩ := mem_inside_iff.1 h
    · exact mem_inside_iff.2 ⟨child, found, .inl (ih child found deeper)⟩
    · exact mem_inside_iff.2
        ⟨place, found, .inl (mem_inside_iff.2 ⟨inner, member, .inr rfl⟩)⟩

theorem mem_visits_iff {type : Ty} {place : Visit} : place ∈ type.visits ↔ Visited type place := by
  constructor
  · intro member
    rcases List.mem_append.1 member with deeper | top
    · exact visited_of_mem_inside .root deeper
    · obtain rfl := List.mem_singleton.1 top
      exact .root
  · intro visited
    induction visited with
    | root => exact List.mem_append_right _ (List.mem_singleton_self _)
    | @step place inner _ child ih =>
      apply List.mem_append_left
      rcases List.mem_append.1 ih with deeper | top
      · exact children_subset_inside deeper child
      · obtain rfl := List.mem_singleton.1 top
        exact mem_inside_iff.2 ⟨inner, child, .inr rfl⟩

end Ty

/-! ## The first fault -/

/-- The first fault among places. -/
def firstFault (scope : Scope) (places : List Visit) : Option TypeError :=
  places.findSome? (Visit.fault? scope)

@[simp] theorem firstFault_append (scope : Scope) (first second : List Visit) :
    firstFault scope (first ++ second) = (firstFault scope first).or (firstFault scope second) :=
  List.findSome?_append

@[simp] theorem firstFault_cons (scope : Scope) (place : Visit) (places : List Visit) :
    firstFault scope (place :: places) = (place.fault? scope).or (firstFault scope places) := by
  rw [firstFault, List.findSome?_cons]
  cases place.fault? scope <;> rfl

@[simp] theorem firstFault_nil (scope : Scope) : firstFault scope [] = none := rfl

def Operand.isRefinement : Operand → Bool
  | .type _ => false
  | .refinement _ _ => true

theorem Operand.types_eq_nil_iff {os : List Operand} :
    Operand.types os = [] ↔ os.all Operand.isRefinement = true := by
  induction os with
  | nil => simp [Operand.types]
  | cons o os ih =>
    cases o with
    | type d => simp [Operand.types, Operand.isRefinement]
    | refinement predicate loc => simpa [Operand.types, Operand.isRefinement] using ih

theorem TypeRef.failure?_predicate (ref : TypeRef Ty) :
    failure? ref.predicate
      = if !ref.hasPredicate then some (.malformedRefinement ref.loc) else none := by
  by_cases given : ∃ argument loc, ref.args = some [.typeof argument loc]
  · obtain ⟨argument, loc, args⟩ := given
    simp [predicate, hasPredicate, args, failure?]
  · have other (argument : TypeRef Ty) (loc : Location) :
        ref.args = some [.typeof argument loc] → False :=
      fun args => given ⟨argument, loc, args⟩
    have missing : ref.hasPredicate = false := by
      unfold hasPredicate
      split
      next args => exact (other _ _ args).elim
      next => rfl
    have failed : ref.predicate = .error (.malformedRefinement ref.loc) := by
      unfold predicate
      split
      next args => exact (other _ _ args).elim
      next => rfl
    rw [missing, failed]
    rfl

theorem Datum.failure?_operand (value : Datum) : failure? value.operand = value.fault? := by
  unfold Datum.operand
  split
  · rfl
  next other =>
    unfold Datum.fault?
    split
    next fields => exact absurd rfl (other fields)
    · rfl

theorem Datum.kind_of_fault? {value : Datum} {e : TypeError} (h : value.fault? = some e) :
    e.fault.kind = .unsupportedType := by
  unfold Datum.fault? at h
  split at h
  · cases h
  · cases h
    unfold Datum.unsupported
    split <;> rfl

namespace Ty

variable {scope : Scope}

/-- Of the annotations that stand for something, exactly the markers stand for a refinement. -/
theorem isRefinement_rules (scope : Scope) :
    EncodingRules scope fun type o => o.isRefinement = type.isMarker scope where
  arrayOf isArray _ := by
    have other : "Array" ≠ refinementMarker := by decide
    simp [Operand.isRefinement, isMarker, QualifiedName.isSimply, isArray, other]
  parameter {parameter args loc} _ bound := by
    by_cases same : parameter = refinementMarker
    · subst same
      simp [Operand.isRefinement, isMarker, bound]
    · simp [Operand.isRefinement, isMarker, QualifiedName.isSimply, same]
  marker unbound := by simp [Operand.isRefinement, isMarker, QualifiedName.isSimply, unbound]
  reference isReference := by simp [Operand.isRefinement, isMarker, isReference.not_marker]
  array _ := rfl
  nullable _ := rfl
  tuple _ := rfl
  enums _ := rfl
  union _ _ := rfl
  intersection _ _ := rfl
  interface _ := rfl
  dict _ _ := rfl
  function := rfl
  primitive := rfl
  string := rfl
  number := rfl
  stray := rfl

theorem exists_named_of_isMarker {type : Ty} (h : type.isMarker scope = true) :
    ∃ args loc, type = .named ⟨⟨[refinementMarker]⟩, args, loc⟩ ∧
      scope.binds refinementMarker = false := by
  cases type with
  | named ref =>
    obtain ⟨⟨parts⟩, args, loc⟩ := ref
    obtain ⟨rfl, unbound⟩ : parts = [refinementMarker] ∧ scope.binds refinementMarker = false := by
      simpa [isMarker, QualifiedName.isSimply] using h
    exact ⟨args, loc, rfl, unbound⟩
  | _ => cases h

/-- A marker stands for its predicate, if it has one. -/
theorem operand_marker (unbound : scope.binds refinementMarker = false) (name : Option String)
    (args : Option (List Ty)) (loc : Location) :
    operand scope name (.named ⟨⟨[refinementMarker]⟩, args, loc⟩) = (do
      return .refinement (← TypeRef.predicate ⟨⟨[refinementMarker]⟩, args, loc⟩) loc) := by
  rw [operand_named _ _ _ _ _ (by decide)]
  simp [QualifiedName.boundIn, unbound, QualifiedName.isSimply]

theorem fault?_marker (unbound : scope.binds refinementMarker = false)
    (args : Option (List Ty)) (loc : Location) (operand : Bool) :
    Visit.fault? scope ⟨.named ⟨⟨[refinementMarker]⟩, args, loc⟩, operand⟩ =
      if !TypeRef.hasPredicate ⟨⟨[refinementMarker]⟩, args, loc⟩ then
        some (.malformedRefinement loc)
      else if !operand then some (.misplacedRefinement loc)
      else none := by
  have other : QualifiedName.isSimply ⟨[refinementMarker]⟩ "Array" = false := by decide
  have marker : isMarker scope (.named ⟨⟨[refinementMarker]⟩, args, loc⟩) = true := by
    simp [isMarker, QualifiedName.isSimply, unbound]
  simp only [Visit.fault?, other, marker, Bool.false_eq_true, if_false, if_true]

/-- Only for a marker it matters whether it is an operand. -/
theorem fault?_eq_of_not_isMarker {type : Ty} (h : type.isMarker scope = false)
    (operand operand' : Bool) :
    Visit.fault? scope ⟨type, operand⟩ = Visit.fault? scope ⟨type, operand'⟩ := by
  cases type with
  | named ref =>
    obtain ⟨id, args, loc⟩ := ref
    simp [Visit.fault?, h]
  | _ => rfl

/-- In the place of a type, a marker is a fault of its own. -/
theorem failure?_toType {type : Ty} {name : Option String}
    (h : failure? (operand scope name type) = firstFault scope (inside type ++ [⟨type, true⟩])) :
    failure? (operand scope name type >>= Operand.toType)
      = firstFault scope (inside type ++ [⟨type, false⟩]) := by
  cases isMarker : type.isMarker scope with
  | true =>
    obtain ⟨args, loc, rfl, unbound⟩ := exists_named_of_isMarker isMarker
    have misplaced (predicate : Expr) :
        failure? (pure (Operand.refinement predicate loc) >>= Operand.toType)
          = some (.misplacedRefinement loc) := rfl
    rw [operand_marker unbound, inside_named (by decide), List.nil_append, firstFault_cons,
      fault?_marker unbound, bind_assoc, failure?_bind misplaced, TypeRef.failure?_predicate]
    cases TypeRef.hasPredicate ⟨⟨[refinementMarker]⟩, args, loc⟩ <;> rfl
  | false =>
    rw [firstFault_append, firstFault_cons, fault?_eq_of_not_isMarker isMarker false true,
      ← firstFault_cons, ← firstFault_append, ← h]
    cases mapped : operand scope name type with
    | error e => rfl
    | ok o =>
      have kind := (operand_induction (isRefinement_rules scope) type mapped).trans isMarker
      cases o with
      | type d => rfl
      | refinement => cases kind

theorem failure?_named_of_not_array {id : QualifiedName} (other : id.isSimply "Array" = false)
    (args : Option (List Ty)) (loc : Location) (name : Option String) :
    failure? (operand scope name (.named ⟨id, args, loc⟩))
      = Visit.fault? scope ⟨.named ⟨id, args, loc⟩, true⟩ := by
  cases marker : isMarker scope (.named ⟨id, args, loc⟩) with
  | true =>
    obtain ⟨args', loc', same, unbound⟩ := exists_named_of_isMarker marker
    cases same
    rw [operand_marker unbound, failure?_bind_pure, fault?_marker unbound,
      TypeRef.failure?_predicate]
    cases TypeRef.hasPredicate ⟨⟨[refinementMarker]⟩, args, loc⟩ <;> rfl
  | false =>
    have sound : Visit.fault? scope ⟨.named ⟨id, args, loc⟩, true⟩ = none := by
      simp [Visit.fault?, other, marker]
    rw [sound, operand_named _ _ _ _ _ other]
    cases bound : id.boundIn scope with
    | true => rfl
    | false =>
      have reference : id.isSimply refinementMarker = false := by
        by_contra isMarker
        have parts : id.parts = [refinementMarker] := by
          simpa [QualifiedName.isSimply] using isMarker
        have free : scope.binds refinementMarker = false := by
          simpa [QualifiedName.boundIn, parts] using bound
        simp [Ty.isMarker, QualifiedName.isSimply, parts, free] at marker
      simp [reference, failure?]

/-- The operands of an intersection are all refinements exactly if they are all markers. -/
theorem types_eq_nil_iff_all_isMarker {types : List Ty} {os : List Operand}
    (h : operands scope types = .ok os) :
    Operand.types os = [] ↔ types.all (isMarker scope) = true := by
  have each := operands_induction (isRefinement_rules scope) types h
  rw [Operand.types_eq_nil_iff]
  clear h
  induction each with
  | nil => rfl
  | cons first _ ih => simp only [List.all_cons, Bool.and_eq_true, first, ih]

theorem fault?_intersection (types : List Ty) (loc : Location) (operand : Bool) :
    Visit.fault? scope ⟨.intersection types loc, operand⟩
      = if types.all (isMarker scope) then some (.onlyRefinements loc) else none := rfl

theorem failure?_intersection {types : List Ty} (loc : Location) (name : Option String)
    (h : failure? (operands scope types) = firstFault scope (insideAll true types)) :
    failure? (operand scope name (.intersection types loc))
      = firstFault scope (insideAll true types ++ [⟨.intersection types loc, true⟩]) := by
  rw [operand, firstFault_append, ← h, firstFault_cons, fault?_intersection]
  cases mapped : operands scope types with
  | error e => rfl
  | ok os =>
    have only := types_eq_nil_iff_all_isMarker mapped
    cases found : Operand.types os with
    | nil =>
      rw [if_pos (only.1 found)]
      simp [bind, Except.bind, found, failure?, throw, throwThe, MonadExceptOf.throw]
    | cons base others =>
      have mixed : ¬ types.all (isMarker scope) = true := fun all => by simp [only.2 all] at found
      rw [if_neg mixed]
      cases others <;> simp [bind, Except.bind, found, failure?, pure, Except.pure]

mutual

/-- An annotation in the place of an operand fails with the first fault in it. -/
theorem failure?_operand : ∀ (type : Ty) (name : Option String),
    failure? (operand scope name type) = firstFault scope (inside type ++ [⟨type, true⟩])
  | .named ⟨id, args, loc⟩, name => by
    cases isArray : id.isSimply "Array" with
    | true =>
      match args with
      | some [element] =>
        simp only [operand, inside, isArray, if_true]
        rw [← bind_assoc, failure?_bind_pure, failure?_toType (failure?_operand element none),
          firstFault_append]
        simp [Visit.fault?, isArray]
      | none | some [] | some (_ :: _ :: _) =>
        simp [operand, inside, isArray, Visit.fault?, failure?]
    | false =>
      rw [failure?_named_of_not_array isArray, inside_named isArray]
      simp
  | .array element loc, name => by
    rw [operand, inside, ← bind_assoc, failure?_bind_pure,
      failure?_toType (failure?_operand element none), firstFault_append]
    simp [Visit.fault?]
  | .nullable inner loc, name => by
    rw [operand, inside, ← bind_assoc, failure?_bind_pure,
      failure?_toType (failure?_operand inner none), firstFault_append]
    simp [Visit.fault?]
  | .tuple types loc, name => by
    rw [operand, inside, failure?_bind_pure, failure?_descriptors types, firstFault_append]
    simp [Visit.fault?]
  | .union types loc, name => by
    rw [operand, inside]
    cases stringLiterals? types with
    | some values => rfl
    | none =>
      dsimp only
      rw [failure?_bind_pure, failure?_descriptors types, firstFault_append]
      simp [Visit.fault?]
  | .intersection types loc, name => failure?_intersection loc name (failure?_operands types)
  | .object ⟨properties, [], loc⟩, name => by
    simp only [operand, inside]
    rw [failure?_bind_pure, failure?_props properties, firstFault_append]
    simp [Visit.fault?]
  | .object ⟨properties, [⟨key, value, id, indexerLoc⟩], loc⟩, name => by
    simp only [operand, inside]
    rw [← bind_assoc, failure?_bind fun _ => by rw [← bind_assoc, failure?_bind_pure],
      failure?_toType (failure?_operand key none), failure?_toType (failure?_operand value none)]
    simp [Visit.fault?, Option.or_assoc]
  | .object ⟨properties, _ :: _ :: _, loc⟩, name => by
    simp [operand, inside, Visit.fault?, failure?]
  | .stray value, name => by
    rw [operand, Datum.failure?_operand]
    simp [inside, Visit.fault?]
  | .function _ _ _, name | .primitive _ _, name | .string _ _, name | .number _ _, name
  | .boolean _ _, name | .typeof _ _, name => rfl
termination_by structural type => type

theorem failure?_operands : ∀ types : List Ty,
    failure? (operands scope types) = firstFault scope (insideAll true types)
  | [] => rfl
  | type :: types => by
    rw [operands, failure?_bind fun _ => failure?_bind_pure _, failure?_operand type none,
      failure?_operands types, insideAll]
    simp [Option.or_assoc]
termination_by structural types => types

theorem failure?_descriptors : ∀ types : List Ty,
    failure? (descriptors scope types) = firstFault scope (insideAll false types)
  | [] => rfl
  | type :: types => by
    rw [descriptors, ← bind_assoc, failure?_bind fun _ => failure?_bind_pure _,
      failure?_toType (failure?_operand type none), failure?_descriptors types, insideAll]
    simp [Option.or_assoc]
termination_by structural types => types

theorem failure?_props : ∀ properties : List (Property Ty),
    failure? (props scope properties) = firstFault scope (insideProps properties)
  | [] => rfl
  | ⟨key, value, optional, loc⟩ :: properties => by
    rw [props, ← bind_assoc, failure?_bind fun _ => failure?_bind_pure _,
      failure?_toType (failure?_operand value none), failure?_props properties, insideProps]
    simp [Option.or_assoc]
termination_by structural properties => properties

end

/-- An annotation fails with the first fault in it. -/
theorem failure?_descriptor (scope : Scope) (name : Option String) (type : Ty) :
    failure? (type.descriptor scope name) = firstFault scope type.visits :=
  failure?_toType (failure?_operand type name)

theorem kind_of_fault? {scope : Scope} {place : Visit} {e : TypeError}
    (h : place.fault? scope = some e) : e.fault.kind = place.type.faultKind := by
  obtain ⟨type, operand⟩ := place
  cases type with
  | named ref =>
    obtain ⟨id, args, loc⟩ := ref
    simp only [Visit.fault?, faultKind] at h ⊢
    split at h
    next isArray =>
      split at h
      · cases h
      · cases h
        exact (if_pos isArray).symm
    next other =>
      rw [if_neg other]
      repeat' split at h
      all_goals cases h
      all_goals rfl
  | stray value => exact Datum.kind_of_fault? h
  | intersection | object =>
    simp only [Visit.fault?] at h
    split at h
    · cases h
      rfl
    · cases h
  | boolean | typeof =>
    cases h
    rfl
  | array | nullable | tuple | union | function | primitive | string | number => cases h

/-- An annotation has no descriptor exactly if a place that is looked at has a fault, and the error
is that of the first such place, where places come from left to right and each behind those inside
it. -/
theorem descriptor_eq_error_iff_first_fault (scope : Scope) (name : Option String) (type : Ty) :
    (∀ e, type.descriptor scope name = .error e ↔ ∃ before place after,
      type.visits = before ++ place :: after ∧
      (∀ earlier ∈ before, earlier.fault? scope = none) ∧
      place.fault? scope = some e ∧ e.fault.kind = place.type.faultKind) ∧
    ((∃ e, type.descriptor scope name = .error e) ↔
      ∃ place, Visited type place ∧ place.fault? scope ≠ none) := by
  have fails (e : TypeError) :
      type.descriptor scope name = .error e ↔ firstFault scope type.visits = some e := by
    rw [← failure?_eq_some_iff, failure?_descriptor]
  constructor
  · intro e
    rw [fails, firstFault, List.findSome?_eq_some_iff]
    constructor
    · rintro ⟨before, place, after, split, fault, sound⟩
      exact ⟨before, place, after, split, sound, fault, kind_of_fault? fault⟩
    · rintro ⟨before, place, after, split, sound, fault, -⟩
      exact ⟨before, place, after, split, fault, sound⟩
  · simp only [fails, ← Option.isSome_iff_exists, ← Option.isSome_iff_ne_none, ← mem_visits_iff]
    exact List.findSome?_isSome_iff

end Ty

-- The markers in an intersection are settled before the intersection, so that a misshapen one is
-- reported even where no other operand is a type.
example : (Ty.intersection [.named ⟨⟨["$Refinement"]⟩, none, ⟨"a", 1, 5⟩⟩] ⟨"a", 1, 1⟩).descriptor
    [] none = .error (.malformedRefinement ⟨"a", 1, 5⟩) := rfl

end TypeGuard
