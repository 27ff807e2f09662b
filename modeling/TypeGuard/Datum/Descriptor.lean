import TypeGuard.Datum.Program
import TypeGuard.Descriptor.OfTy

/-!
# Descriptors as plain data

The listing of a descriptor, and the descriptor that a tree from outside stands for.
-/

namespace TypeGuard

namespace Descriptor

mutual
/-- The descriptor as plain data. -/
def toDatum : Descriptor → Datum
  | .reference expr => .record .reference [expr.toDatum]
  | .primitive base => .record .primitive [.text base.name]
  | .list element name => .record .listOf [toDatum element, .ofText? name]
  | .maybe inner name => .record .maybe [toDatum inner, .ofText? name]
  | .tuple items name => .record .tupleOf [.sequence (toData items), .ofText? name]
  | .union members name => .record .unionOf [.sequence (toData members), .ofText? name]
  | .enums values name => .record .enumsOf [.ofTexts values, .ofText? name]
  | .dict domain codomain name =>
    .record .dictOf [toDatum domain, toDatum codomain, .ofText? name]
  | .refinement base predicate name =>
    .record .refinement [toDatum base, predicate.toDatum, .ofText? name]
  | .intersection members name =>
    .record .intersection [.sequence (toData members), .ofText? name]
  | .interface props name =>
    .record .interfaceType [.sequence (propsToData props), .ofText? name]
  | .extend mixins props name =>
    .record .interfaceExtend [.sequence (toData mixins), toDatum props, .ofText? name]
  | .literal value name => .record .literalRefinement [.number value, .ofText? name]

def toData : List Descriptor → List Datum
  | [] => []
  | d :: ds => toDatum d :: toData ds

def propsToData : List (String × Descriptor) → List Datum
  | [] => []
  | (key, d) :: props => .sequence [.text key, toDatum d] :: propsToData props
end

/-- A tree that is no descriptor, in the place of one. -/
structure Stray where
  value : Datum

def Stray.message (e : Stray) : String := "not a combinator: " ++ e.value.render

mutual
/-- The descriptor that a tree stands for; the first stray inside it is the error. -/
def ofDatum : Datum → Except Stray Descriptor
  | .record .reference [expr] => .ok (.reference (.ofDatum expr))
  | .record .primitive [.text name] => .ok (.primitive (.ofName name))
  | .record .listOf [element, name] => do return .list (← ofDatum element) name.toText?
  | .record .maybe [inner, name] => do return .maybe (← ofDatum inner) name.toText?
  | .record .tupleOf [.sequence items, name] => do return .tuple (← ofData items) name.toText?
  | .record .unionOf [.sequence members, name] => do
    return .union (← ofData members) name.toText?
  | .record .enumsOf [values, name] => .ok (.enums values.toTexts name.toText?)
  | .record .dictOf [domain, codomain, name] => do
    let domain ← ofDatum domain
    return .dict domain (← ofDatum codomain) name.toText?
  | .record .refinement [base, predicate, name] => do
    return .refinement (← ofDatum base) (.ofDatum predicate) name.toText?
  | .record .intersection [.sequence members, name] => do
    return .intersection (← ofData members) name.toText?
  | .record .interfaceType [.sequence props, name] => do
    return .interface (← propsOfData props) name.toText?
  | .record .interfaceExtend [.sequence mixins, props, name] => do
    let mixins ← ofData mixins
    return .extend mixins (← ofDatum props) name.toText?
  | .record .literalRefinement [.number value, name] => .ok (.literal value name.toText?)
  | value => .error ⟨value⟩

def ofData : List Datum → Except Stray (List Descriptor)
  | [] => .ok []
  | item :: items => do
    let d ← ofDatum item
    return d :: (← ofData items)

def propsOfData : List Datum → Except Stray (List (String × Descriptor))
  | [] => .ok []
  | .sequence [.text key, value] :: items => do
    let d ← ofDatum value
    return (key, d) :: (← propsOfData items)
  | _ :: items => propsOfData items
end

end Descriptor

/-- An operand as plain data. -/
def Operand.toDatum : Operand → Datum
  | .type descriptor => descriptor.toDatum
  | .refinement predicate loc => .record .refinementRequest [predicate.toDatum, .place loc]

end TypeGuard
