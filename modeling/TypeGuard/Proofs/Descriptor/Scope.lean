import TypeGuard.Proofs.Descriptor.Names

/-!
# Type parameters in annotations

An annotation is encoded as if each type parameter in scope were written `any`, and of a scope only
the names count that the encoding looks at. Conversely the scope shows in the descriptor: each name
that is no parameter leaves an expression there.
-/

namespace TypeGuard

/-- The name is a type parameter in scope. -/
def QualifiedName.boundIn (scope : Scope) (id : QualifiedName) : Bool :=
  match id.parts with
  | [name] => scope.binds name
  | _ => false

theorem QualifiedName.boundIn_append (scope scope' : Scope) (id : QualifiedName) :
    id.boundIn (scope ++ scope') = (id.boundIn scope || id.boundIn scope') := by
  unfold boundIn
  split
  · simp [Scope.binds]
  · rfl

theorem QualifiedName.boundIn_cons (own : List String) (frames : Scope) (id : QualifiedName) :
    id.boundIn (own :: frames) = (id.boundIn [own] || id.boundIn frames) :=
  boundIn_append [own] frames id

@[simp] theorem QualifiedName.boundIn_empty (id : QualifiedName) : id.boundIn [[]] = false := by
  unfold boundIn
  split <;> rfl

section
variable {scope : Scope} {id : QualifiedName} (h : id.IsReference scope)
include h

theorem QualifiedName.IsReference.not_array : id.isSimply "Array" = false := by
  by_contra isArray
  have parts : id.parts = ["Array"] := by simpa [isSimply] using isArray
  exact (h _ parts).1 rfl

theorem QualifiedName.IsReference.not_marker : id.isSimply refinementMarker = false := by
  by_contra isMarker
  have parts : id.parts = [refinementMarker] := by simpa [isSimply] using isMarker
  exact (h _ parts).2.2 rfl

theorem QualifiedName.IsReference.unbound : id.boundIn scope = false := by
  unfold boundIn
  split
  next name parts => exact (h name parts).2.1
  · rfl

end

namespace Ty

mutual

/-- The names that are looked up when the annotation is encoded. -/
def names : Ty → List QualifiedName
  | .named ⟨id, args, _⟩ =>
    if id.isSimply "Array" then
      match args with
      | some [element] => names element
      | _ => []
    else [id]
  | .array element _ => names element
  | .nullable inner _ => names inner
  | .tuple types _ => allNames types
  | .union types _ => allNames types
  | .intersection types _ => allNames types
  | .object ⟨properties, indexers, _⟩ =>
    match indexers with
    | [] => propNames properties
    | [⟨key, value, _, _⟩] => names key ++ names value
    | _ => []
  | _ => []

def allNames : List Ty → List QualifiedName
  | [] => []
  | type :: types => names type ++ allNames types

def propNames : List (Property Ty) → List QualifiedName
  | [] => []
  | ⟨_, value, _, _⟩ :: properties => names value ++ propNames properties

end

mutual

/-- The annotation with `any` in the place of each of the given type parameters. -/
def eraseParams (params : Scope) : Ty → Ty
  | .named ⟨id, args, loc⟩ =>
    if id.isSimply "Array" then
      match args with
      | some [element] => .named ⟨id, some [eraseParams params element], loc⟩
      | _ => .named ⟨id, args, loc⟩
    else if id.boundIn params then .primitive .any loc
    else .named ⟨id, args, loc⟩
  | .array element loc => .array (eraseParams params element) loc
  | .nullable inner loc => .nullable (eraseParams params inner) loc
  | .tuple types loc => .tuple (eraseParamsAll params types) loc
  | .union types loc => .union (eraseParamsAll params types) loc
  | .intersection types loc => .intersection (eraseParamsAll params types) loc
  | .object ⟨properties, indexers, loc⟩ =>
    match indexers with
    | [⟨key, value, id, indexerLoc⟩] =>
      .object ⟨eraseParamsProps params properties,
        [⟨eraseParams params key, eraseParams params value, id, indexerLoc⟩], loc⟩
    | _ => .object ⟨eraseParamsProps params properties, indexers, loc⟩
  | type => type

def eraseParamsAll (params : Scope) : List Ty → List Ty
  | [] => []
  | type :: types => eraseParams params type :: eraseParamsAll params types

def eraseParamsProps (params : Scope) : List (Property Ty) → List (Property Ty)
  | [] => []
  | ⟨key, value, optional, loc⟩ :: properties =>
    ⟨key, eraseParams params value, optional, loc⟩ :: eraseParamsProps params properties

end

/-! ## Parameters are encoded as `any` -/

theorem operand_named (scope : Scope) (name : Option String) (id : QualifiedName)
    (args : Option (List Ty)) (loc : Location) (other : id.isSimply "Array" = false) :
    operand scope name (.named ⟨id, args, loc⟩) =
      if id.boundIn scope then .ok (.type (.primitive .any))
      else if id.isSimply refinementMarker then do
        return .refinement (← TypeRef.predicate ⟨id, args, loc⟩) loc
      else .ok (.type (.reference (.ofName id))) := by
  obtain ⟨parts⟩ := id
  unfold operand
  dsimp only
  rw [other, if_neg Bool.false_ne_true]
  match parts with
  | [] => rfl
  | [part] => simp [QualifiedName.boundIn, QualifiedName.isSimply]
  | _ :: _ :: _ => simp [QualifiedName.boundIn, QualifiedName.isSimply]

theorem stringLiterals?_eraseParamsAll (params : Scope) (types : List Ty) :
    stringLiterals? (eraseParamsAll params types) = stringLiterals? types := by
  induction types with
  | nil => rfl
  | cons type types ih =>
    cases type with
    | string value loc => simp [eraseParamsAll, eraseParams, stringLiterals?, ih]
    | named ref =>
      obtain ⟨id, args, loc⟩ := ref
      unfold eraseParamsAll eraseParams
      repeat' split
      all_goals rfl
    | object shape =>
      obtain ⟨properties, indexers, loc⟩ := shape
      unfold eraseParamsAll eraseParams
      split <;> rfl
    | _ => rfl

theorem names_named {id : QualifiedName} {args : Option (List Ty)} {loc : Location}
    (other : id.isSimply "Array" = false) : names (.named ⟨id, args, loc⟩) = [id] := by
  unfold names
  rw [other, if_neg Bool.false_ne_true]

theorem eraseParams_named {params : Scope} {id : QualifiedName} {args : Option (List Ty)}
    {loc : Location} (other : id.isSimply "Array" = false) :
    eraseParams params (.named ⟨id, args, loc⟩)
      = if id.boundIn params then .primitive .any loc else .named ⟨id, args, loc⟩ := by
  unfold eraseParams
  rw [other, if_neg Bool.false_ne_true]

mutual

/-- The type parameters in scope are encoded as if they were written `any`. -/
theorem operand_eraseParams (params scope : Scope) :
    ∀ (type : Ty) (name : Option String),
      operand scope name (eraseParams params type) = operand (params ++ scope) name type
  | .named ⟨id, args, loc⟩, name => by
    cases isArray : id.isSimply "Array" with
    | true =>
      match args with
      | some [element] =>
        simp only [eraseParams, operand, isArray, if_true, operand_eraseParams params scope element]
      | none | some [] | some (_ :: _ :: _) => simp only [eraseParams, operand, isArray, if_true]
    | false =>
      rw [operand_named _ _ _ _ _ isArray, eraseParams_named isArray]
      have bound := QualifiedName.boundIn_append params scope id
      cases h : id.boundIn params with
      | true => simp [bound, h, operand, Primitive.irreducible]
      | false => simp [bound, h, operand_named _ _ _ _ _ isArray]
  | .array element loc, name => by
    rw [eraseParams, operand, operand, operand_eraseParams params scope element none]
  | .nullable inner loc, name => by
    rw [eraseParams, operand, operand, operand_eraseParams params scope inner none]
  | .tuple types loc, name => by
    rw [eraseParams, operand, operand, descriptors_eraseParams params scope types]
  | .union types loc, name => by
    rw [eraseParams, operand, operand, descriptors_eraseParams params scope types,
      stringLiterals?_eraseParamsAll]
  | .intersection types loc, name => by
    rw [eraseParams, operand, operand, operands_eraseParams params scope types]
  | .object ⟨properties, [], loc⟩, name => by
    simp only [eraseParams, operand, props_eraseParams params scope properties]
  | .object ⟨properties, [⟨key, value, id, indexerLoc⟩], loc⟩, name => by
    rw [eraseParams, operand, operand, operand_eraseParams params scope key none,
      operand_eraseParams params scope value none]
  | .object ⟨properties, _ :: _ :: _, loc⟩, name => rfl
  | .function _ _ _, name | .primitive _ _, name | .string _ _, name | .number _ _, name
  | .boolean _ _, name | .typeof _ _, name | .stray _, name => rfl
termination_by structural type => type

theorem operands_eraseParams (params scope : Scope) :
    ∀ types : List Ty,
      operands scope (eraseParamsAll params types) = operands (params ++ scope) types
  | [] => rfl
  | type :: types => by
    rw [eraseParamsAll, operands, operands, operand_eraseParams params scope type none,
      operands_eraseParams params scope types]
termination_by structural types => types

theorem descriptors_eraseParams (params scope : Scope) :
    ∀ types : List Ty,
      descriptors scope (eraseParamsAll params types) = descriptors (params ++ scope) types
  | [] => rfl
  | type :: types => by
    rw [eraseParamsAll, descriptors, descriptors, operand_eraseParams params scope type none,
      descriptors_eraseParams params scope types]
termination_by structural types => types

theorem props_eraseParams (params scope : Scope) :
    ∀ properties : List (Property Ty),
      props scope (eraseParamsProps params properties) = props (params ++ scope) properties
  | [] => rfl
  | ⟨key, value, optional, loc⟩ :: properties => by
    rw [eraseParamsProps, props, props, operand_eraseParams params scope value none,
      props_eraseParams params scope properties]
termination_by structural properties => properties

end

/-! ## Only the names of an annotation count -/

mutual

theorem operand_congr {scope scope' : Scope} :
    ∀ (type : Ty) (name : Option String),
      (∀ id ∈ names type, id.boundIn scope = id.boundIn scope') →
      operand scope name type = operand scope' name type
  | .named ⟨id, args, loc⟩, name, same => by
    cases isArray : id.isSimply "Array" with
    | true =>
      match args with
      | some [element] =>
        simp only [names, isArray, if_true] at same
        simp only [operand, isArray, if_true, operand_congr element none same]
      | none | some [] | some (_ :: _ :: _) => simp only [operand, isArray, if_true]
    | false =>
      rw [names_named isArray] at same
      rw [operand_named _ _ _ _ _ isArray, operand_named _ _ _ _ _ isArray,
        same id (List.mem_singleton_self id)]
  | .array element loc, name, same => by
    rw [operand, operand, operand_congr element none same]
  | .nullable inner loc, name, same => by
    rw [operand, operand, operand_congr inner none same]
  | .tuple types loc, name, same => by
    rw [operand, operand, descriptors_congr types same]
  | .union types loc, name, same => by
    rw [operand, operand, descriptors_congr types same]
  | .intersection types loc, name, same => by
    rw [operand, operand, operands_congr types same]
  | .object ⟨properties, [], loc⟩, name, same => by
    rw [operand, operand, props_congr properties same]
  | .object ⟨properties, [⟨key, value, id, indexerLoc⟩], loc⟩, name, same => by
    rw [operand, operand, operand_congr key none fun id h => same id (List.mem_append_left _ h),
      operand_congr value none fun id h => same id (List.mem_append_right _ h)]
  | .object ⟨properties, _ :: _ :: _, loc⟩, name, _ => rfl
  | .function _ _ _, name, _ | .primitive _ _, name, _ | .string _ _, name, _
  | .number _ _, name, _ | .boolean _ _, name, _ | .typeof _ _, name, _ | .stray _, name, _ => rfl
termination_by structural type => type

theorem operands_congr {scope scope' : Scope} :
    ∀ types : List Ty, (∀ id ∈ allNames types, id.boundIn scope = id.boundIn scope') →
      operands scope types = operands scope' types
  | [], _ => rfl
  | type :: types, same => by
    rw [operands, operands, operand_congr type none fun id h => same id (List.mem_append_left _ h),
      operands_congr types fun id h => same id (List.mem_append_right _ h)]
termination_by structural types => types

theorem descriptors_congr {scope scope' : Scope} :
    ∀ types : List Ty, (∀ id ∈ allNames types, id.boundIn scope = id.boundIn scope') →
      descriptors scope types = descriptors scope' types
  | [], _ => rfl
  | type :: types, same => by
    rw [descriptors, descriptors,
      operand_congr type none fun id h => same id (List.mem_append_left _ h),
      descriptors_congr types fun id h => same id (List.mem_append_right _ h)]
termination_by structural types => types

theorem props_congr {scope scope' : Scope} :
    ∀ properties : List (Property Ty),
      (∀ id ∈ propNames properties, id.boundIn scope = id.boundIn scope') →
      props scope properties = props scope' properties
  | [], _ => rfl
  | ⟨key, value, optional, loc⟩ :: properties, same => by
    rw [props, props, operand_congr value none fun id h => same id (List.mem_append_left _ h),
      props_congr properties fun id h => same id (List.mem_append_right _ h)]
termination_by structural properties => properties

end

theorem descriptor_congr {scope scope' : Scope} {type : Ty}
    (same : ∀ id ∈ names type, id.boundIn scope = id.boundIn scope') (name : Option String) :
    type.descriptor scope name = type.descriptor scope' name := by
  rw [descriptor, descriptor, operand_congr type name same]

theorem descriptor_eraseParams (scope : Scope) (name : Option String) (type : Ty) :
    (eraseParams scope type).descriptor [[]] name = type.descriptor scope name := by
  calc (eraseParams scope type).descriptor [[]] name
      = type.descriptor (scope ++ [[]]) name := by
        rw [descriptor, descriptor, operand_eraseParams]
    _ = type.descriptor scope name :=
        descriptor_congr (fun id _ => by simp [QualifiedName.boundIn_append]) name

theorem props_eraseParamsProps (scope : Scope) (properties : List (Property Ty)) :
    props [[]] (eraseParamsProps scope properties) = props scope properties := by
  calc props [[]] (eraseParamsProps scope properties)
      = props (scope ++ [[]]) properties := props_eraseParams scope [[]] properties
    _ = props scope properties :=
        props_congr properties fun id _ => by simp [QualifiedName.boundIn_append]

end Ty

/-! ## The names that are no parameters -/

/-- The types and predicates of the program that an operand refers to. -/
def Operand.expressions : Operand → List Expr
  | .type d => d.expressions
  | .refinement predicate _ => [predicate]

/-- The operands of an intersection are sorted into types and predicates, and none gets lost. -/
theorem Operand.length_expressions_intersect (os : List Operand) (name : Option String) :
    (Operand.intersect os name).expressions.length = (os.flatMap Operand.expressions).length := by
  have sorted : (Descriptor.allExpressions (Operand.types os)).length
      + (Operand.predicates os).length = (os.flatMap Operand.expressions).length := by
    induction os with
    | nil => rfl
    | cons o os ih =>
      cases o <;>
        simp [Operand.types, Operand.predicates, Operand.expressions, Descriptor.allExpressions]
          at ih ⊢ <;> omega
  rw [← sorted, Operand.intersect]
  split
  next base single =>
    simp [Descriptor.expressions_refine, single, Descriptor.allExpressions]
  · simp [Descriptor.expressions_refine, Descriptor.expressions]

namespace Ty

/-- How many of the names are no type parameters in scope. -/
def free (scope : Scope) (ids : List QualifiedName) : Nat := ids.countP fun id => !id.boundIn scope

theorem allNames_of_stringLiterals? {types : List Ty} {values : List String}
    (h : stringLiterals? types = some values) : allNames types = [] := by
  induction types generalizing values with
  | nil => rfl
  | cons type types ih =>
    cases type with
    | string value loc =>
      obtain ⟨others, found, -⟩ := Option.map_eq_some_iff.1 h
      exact ih found
    | _ => cases h

section
variable {scope : Scope}

theorem length_allExpressions {types : List Ty} {ds : List Descriptor}
    (h : List.Forall₂ (fun type d => d.expressions.length = free scope (names type)) types ds) :
    (Descriptor.allExpressions ds).length = free scope (allNames types) := by
  induction h with
  | nil => rfl
  | cons first _ ih =>
    simp only [Descriptor.allExpressions, allNames, List.length_append, free, List.countP_append]
      at first ih ⊢
    omega

theorem length_operands {types : List Ty} {os : List Operand}
    (h : List.Forall₂ (fun type o => o.expressions.length = free scope (names type)) types os) :
    (os.flatMap Operand.expressions).length = free scope (allNames types) := by
  induction h with
  | nil => rfl
  | cons first _ ih =>
    simp only [List.flatMap_cons, allNames, List.length_append, free, List.countP_append]
      at first ih ⊢
    omega

theorem length_propExpressions {properties : List (Property Ty)} {ds : List Descriptor}
    (h : List.Forall₂ (fun p d => d.expressions.length = free scope (names p.value))
      properties ds) :
    (Descriptor.propExpressions
      (properties.zipWith (fun p d => (p.key, p.descriptor d)) ds)).length
      = free scope (propNames properties) := by
  induction h with
  | nil => rfl
  | @cons p d _ _ first _ ih =>
    have same : (p.descriptor d).expressions = d.expressions := by
      unfold Property.descriptor
      split <;> rfl
    simp only [List.zipWith_cons_cons, Descriptor.propExpressions, propNames, List.length_append,
      free, List.countP_append, same] at first ih ⊢
    omega

end

/-- Each name that is no type parameter in scope leaves one expression in the descriptor. -/
theorem free_rules (scope : Scope) :
    EncodingRules scope fun type o => o.expressions.length = free scope (names type) where
  arrayOf {id element loc d name} isArray h := by
    simpa [names, QualifiedName.isSimply, isArray, Operand.expressions, Descriptor.expressions]
      using h
  parameter {parameter args loc} other bound := by
    rw [names_named (by simpa [QualifiedName.isSimply] using other)]
    simp [free, QualifiedName.boundIn, bound, Operand.expressions, Descriptor.expressions]
  marker unbound := by
    rw [names_named (by decide)]
    simp [free, QualifiedName.boundIn, unbound, Operand.expressions]
  reference {id args loc} isReference := by
    rw [names_named isReference.not_array]
    simp [free, isReference.unbound, Operand.expressions, Descriptor.expressions]
  array h := h
  nullable h := h
  tuple h := length_allExpressions h
  enums {types loc values name} literals := by
    simp [names, allNames_of_stringLiterals? literals, free, Operand.expressions,
      Descriptor.expressions]
  union _ h := length_allExpressions h
  intersection h _ := (Operand.length_expressions_intersect _ _).trans (length_operands h)
  interface h := length_propExpressions h
  dict {properties indexer loc domain codomain name} hd hc := by
    obtain ⟨key, value, id, indexerLoc⟩ := indexer
    simp only [Operand.expressions, Descriptor.expressions, names, free, List.length_append,
      List.countP_append] at hd hc ⊢
    omega
  function := rfl
  primitive := rfl
  string := rfl
  number := rfl
  stray := rfl

end Ty

end TypeGuard
