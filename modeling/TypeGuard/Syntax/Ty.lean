import TypeGuard.Datum.Basic

/-!
# Type annotations

The structural annotations of the source language. A tree may be handed in from outside, so a place
for an annotation may hold something else, a stray.
-/

namespace TypeGuard

/-- A name that may be dotted. -/
structure QualifiedName where
  parts : List String
  deriving DecidableEq, Repr, Inhabited

namespace QualifiedName

/-- The name is the single segment `s`. -/
def isSimply (q : QualifiedName) (s : String) : Bool := q.parts == [s]

end QualifiedName

/-- A reference to a type by name. The arguments are absent where the reference has none, and empty
where it has an empty list of them. -/
structure TypeRef (α : Type) where
  name : QualifiedName
  args : Option (List α) := none
  loc : Location := .unknown

/-- A property of an object shape. -/
structure Property (α : Type) where
  key : String
  value : α
  optional : Bool := false
  loc : Location := .unknown

/-- A signature for all keys of one type. -/
structure Indexer (α : Type) where
  key : α
  value : α
  id : Option String := none
  loc : Location := .unknown

structure ObjectShape (α : Type) where
  properties : List (Property α) := []
  indexers : List (Indexer α) := []
  loc : Location := .unknown

structure FunctionTypeParam (α : Type) where
  type : α
  name : Option String := none

inductive Ty where
  | named (ref : TypeRef Ty)
  | array (element : Ty) (loc : Location)
  | nullable (inner : Ty) (loc : Location)
  | tuple (types : List Ty) (loc : Location)
  | union (types : List Ty) (loc : Location)
  | intersection (types : List Ty) (loc : Location)
  | object (shape : ObjectShape Ty)
  | function (params : List (FunctionTypeParam Ty)) (result : Ty) (loc : Location)
  | primitive (value : Primitive) (loc : Location)
  | string (value : String) (loc : Location)
  | number (value : Number) (loc : Location)
  | boolean (value : Bool) (loc : Location)
  | typeof (ref : TypeRef Ty) (loc : Location)
  /-- Something that is no annotation, in the place of one. -/
  | stray (value : Datum)
  deriving Inhabited

end TypeGuard
