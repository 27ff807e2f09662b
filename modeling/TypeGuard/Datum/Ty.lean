import TypeGuard.Syntax.Ty

/-!
# Annotations as plain data

The listing of an annotation, and the annotation that a tree from outside stands for. A tree that is
no annotation, or has a part that is not what its place asks for, is a stray one. So nothing of a
tree is lost.
-/

namespace TypeGuard

namespace Datum

def ofText? : Option String → Datum
  | some s => .text s
  | none => .nothing

def toText? : Datum → Option String
  | .text s => some s
  | _ => none

def ofTexts (ss : List String) : Datum := .sequence (ss.map .text)

def toTexts : Datum → List String
  | .sequence items => items.filterMap toText?
  | _ => []

end Datum

def QualifiedName.toDatum (q : QualifiedName) : Datum :=
  .record .qualifiedName [.ofTexts q.parts]

def QualifiedName.ofDatum? : Datum → Option QualifiedName
  | .record .qualifiedName [.sequence parts] => do return ⟨← parts.mapM Datum.toText?⟩
  | _ => none

/-- The text of a field that may be empty, if it is nothing else. -/
def Datum.optionalText? : Datum → Option (Option String)
  | .nothing => some none
  | .text s => some (some s)
  | _ => none

namespace Ty

mutual
/-- The annotation as plain data. -/
def toDatum : Ty → Datum
  | .named ⟨name, args, loc⟩ => .record .namedType [name.toDatum, argsToDatum args, .place loc]
  | .array element loc => .record .arrayType [toDatum element, .place loc]
  | .nullable inner loc => .record .nullableType [toDatum inner, .place loc]
  | .tuple types loc => .record .tupleType [.sequence (toData types), .place loc]
  | .union types loc => .record .unionType [.sequence (toData types), .place loc]
  | .intersection types loc => .record .intersectionType [.sequence (toData types), .place loc]
  | .object ⟨properties, indexers, loc⟩ =>
    .record .objectType
      [.sequence (propertiesToData properties), .sequence (indexersToData indexers), .place loc]
  | .function params result loc =>
    .record .functionType [.sequence (paramsToData params), toDatum result, .place loc]
  | .primitive value loc => .record .primitiveType [.primitive value, .place loc]
  | .string value loc => .record .stringLiteralType [.text value, .place loc]
  | .number value loc => .record .numberLiteralType [.number value, .place loc]
  | .boolean value loc => .record .booleanLiteralType [.flag value, .place loc]
  | .typeof ⟨name, args, refLoc⟩ loc =>
    .record .typeofType
      [.record .namedType [name.toDatum, argsToDatum args, .place refLoc], .place loc]
  | .stray value => value

def argsToDatum : Option (List Ty) → Datum
  | none => .nothing
  | some args => .sequence (toData args)

def toData : List Ty → List Datum
  | [] => []
  | type :: types => toDatum type :: toData types

def propertiesToData : List (Property Ty) → List Datum
  | [] => []
  | ⟨key, value, optional, loc⟩ :: properties =>
    .record .objectProperty [.text key, toDatum value, .flag optional, .place loc]
      :: propertiesToData properties

def indexersToData : List (Indexer Ty) → List Datum
  | [] => []
  | ⟨key, value, id, loc⟩ :: indexers =>
    .record .objectIndexer [toDatum key, toDatum value, .ofText? id, .place loc]
      :: indexersToData indexers

def paramsToData : List (FunctionTypeParam Ty) → List Datum
  | [] => []
  | ⟨type, name⟩ :: params =>
    .record .functionTypeParam [toDatum type, .ofText? name] :: paramsToData params
end

mutual
/-- The annotation that a tree stands for. -/
def ofDatum (value : Datum) : Ty :=
  match value with
  | .record .namedType [name, args, .place loc] =>
    match QualifiedName.ofDatum? name, argsOfDatum? args with
    | some name, some args => .named ⟨name, args, loc⟩
    | _, _ => .stray value
  | .record .arrayType [element, .place loc] => .array (ofDatum element) loc
  | .record .nullableType [inner, .place loc] => .nullable (ofDatum inner) loc
  | .record .tupleType [.sequence types, .place loc] => .tuple (ofData types) loc
  | .record .unionType [.sequence types, .place loc] => .union (ofData types) loc
  | .record .intersectionType [.sequence types, .place loc] => .intersection (ofData types) loc
  | .record .objectType [.sequence properties, .sequence indexers, .place loc] =>
    match propertiesOfData? properties, indexersOfData? indexers with
    | some properties, some indexers => .object ⟨properties, indexers, loc⟩
    | _, _ => .stray value
  | .record .functionType [.sequence params, result, .place loc] =>
    match paramsOfData? params with
    | some params => .function params (ofDatum result) loc
    | none => .stray value
  | .record .primitiveType [.primitive keyword, .place loc] => .primitive keyword loc
  | .record .stringLiteralType [.text content, .place loc] => .string content loc
  | .record .numberLiteralType [.number amount, .place loc] => .number amount loc
  | .record .booleanLiteralType [.flag truth, .place loc] => .boolean truth loc
  | .record .typeofType [.record .namedType [name, args, .place refLoc], .place loc] =>
    match QualifiedName.ofDatum? name, argsOfDatum? args with
    | some name, some args => .typeof ⟨name, args, refLoc⟩ loc
    | _, _ => .stray value
  | value => .stray value

def argsOfDatum? : Datum → Option (Option (List Ty))
  | .nothing => some none
  | .sequence args => some (some (ofData args))
  | _ => none

def ofData : List Datum → List Ty
  | [] => []
  | item :: items => ofDatum item :: ofData items

def propertiesOfData? : List Datum → Option (List (Property Ty))
  | [] => some []
  | .record .objectProperty [.text key, value, .flag optional, .place loc] :: items =>
    (propertiesOfData? items).map (⟨key, ofDatum value, optional, loc⟩ :: ·)
  | _ :: _ => none

def indexersOfData? : List Datum → Option (List (Indexer Ty))
  | [] => some []
  | .record .objectIndexer [key, value, id, .place loc] :: items =>
    match id.optionalText?, indexersOfData? items with
    | some id, some indexers => some (⟨ofDatum key, ofDatum value, id, loc⟩ :: indexers)
    | _, _ => none
  | _ :: _ => none

def paramsOfData? : List Datum → Option (List (FunctionTypeParam Ty))
  | [] => some []
  | .record .functionTypeParam [type, name] :: items =>
    match name.optionalText?, paramsOfData? items with
    | some name, some params => some (⟨ofDatum type, name⟩ :: params)
    | _, _ => none
  | _ :: _ => none
end

/-- The annotation that a tree stands for, if there is one. -/
def ofDatum? : Datum → Option Ty
  | .nothing => none
  | value => some (ofDatum value)

end Ty

namespace TypeRef

def toDatum (ref : TypeRef Ty) : Datum := (Ty.named ref).toDatum

def ofDatum? (value : Datum) : Option (TypeRef Ty) :=
  match Ty.ofDatum value with
  | .named ref => some ref
  | _ => none

end TypeRef

end TypeGuard
