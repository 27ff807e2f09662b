import TypeGuard.Surface.Error
import TypeGuard.Syntax.Ty
import TypeGuard.Text.Lines

/-!
# Annotations from forms

An annotation is a keyword, a literal, a name that may be dotted, a form with one of eight tags, or a
name applied to arguments.
-/

namespace TypeGuard

/-- Reads a dotted name, none of whose segments may be empty. -/
def QualifiedName.ofString (name : String) : Except ParseError QualifiedName :=
  let parts := Text.split '.' name
  if parts.contains "" then .error (.misshapen (.malformedName name) none) else .ok ⟨parts⟩

/-- The tags of annotation forms. Any other head is the name of a type that is applied. -/
inductive TypeTag where
  | array
  | maybe
  | tuple
  | union
  | intersection
  | object
  | fn
  | typeof
  deriving DecidableEq, Repr

namespace TypeTag

def all : List TypeTag := [.array, .maybe, .tuple, .union, .intersection, .object, .fn, .typeof]

def name : TypeTag → String
  | .array => "array"
  | .maybe => "maybe"
  | .tuple => "tuple"
  | .union => "union"
  | .intersection => "intersection"
  | .object => "object"
  | .fn => "fn"
  | .typeof => "typeof"

def ofName? (s : String) : Option TypeTag := all.find? (·.name == s)

end TypeTag

namespace Ty

/-- Reads an annotation that is a single symbol. -/
def ofSymbol (name : String) : Except ParseError Ty :=
  match Primitive.ofKeyword? name with
  | some value => .ok (.primitive value .unknown)
  | none =>
    if name = "true" then .ok (.boolean true .unknown)
    else if name = "false" then .ok (.boolean false .unknown)
    else do return .named { name := ← QualifiedName.ofString name }

section
variable (file : String)

mutual
/-- Reads an annotation. -/
def ofForm : Form → Except ParseError Ty
  | .symbol name => ofSymbol name
  | .text value => .ok (.string value .unknown)
  | .number value => .ok (.number value .unknown)
  | .list (.symbol tag :: args) position =>
    let loc := position.inFile file
    match TypeTag.ofName? tag, args with
    | some .array, element :: _ => do return .array (← ofForm element) loc
    | some .maybe, inner :: _ => do return .nullable (← ofForm inner) loc
    | some .tuple, types => do return .tuple (← ofForms types) loc
    | some .union, first :: others => do
      return .union ((← ofForm first) :: (← ofForms others)) loc
    | some .intersection, first :: others => do
      return .intersection ((← ofForm first) :: (← ofForms others)) loc
    | some .object, members => do
      let (properties, indexers) ← membersOfForms members
      return .object ⟨properties, indexers, loc⟩
    | some .fn, .list params _ :: result :: _ => do
      let params ← ofForms params
      return .function (params.map ({ type := · })) (← ofForm result) loc
    | some .fn, params :: _ :: _ => params.refuse file (.notList none params)
    | some .fn, args => position.refuse file (.tooShort 3 (args.length + 1))
    | some .typeof, argument :: _ => do
      match ← ofForm argument with
      | .named ref => return .typeof ref loc
      | _ => argument.refuse file (.notReference argument)
    | some _, [] => position.refuse file (.tooShort 2 1)
    | none, args => do
      let name ← QualifiedName.ofString tag
      return .named ⟨name, some (← ofForms args), loc⟩
  | .list [] position => position.refuse file (.notType (.list [] position))
  | .list items position => position.refuse file (.untaggedType (.list items position))
  | form => form.refuse file (.notType form)

def ofForms : List Form → Except ParseError (List Ty)
  | [] => .ok []
  | form :: forms => do return (← ofForm form) :: (← ofForms forms)

/-- Reads the properties and indexers of an object form. -/
def membersOfForms : List Form → Except ParseError (List (Property Ty) × List (Indexer Ty))
  | [] => .ok ([], [])
  | .list (.symbol tag :: parts) position :: forms =>
    let loc := position.inFile file
    if tag = "prop" ∨ tag = "prop?" then
      match parts with
      | key :: value :: _ => do
        let property := ⟨← key.asSymbol, ← ofForm value, tag == "prop?", loc⟩
        let (properties, indexers) ← membersOfForms forms
        return (property :: properties, indexers)
      | parts => position.refuse file (.tooShort 3 (parts.length + 1))
    else if tag = "indexer" then
      match parts with
      | [key, value] => do
        let indexer := ⟨← ofForm key, ← ofForm value, none, loc⟩
        let (properties, indexers) ← membersOfForms forms
        return (properties, indexer :: indexers)
      | [id, key, value] => do
        let id ← id.asSymbol
        let indexer := ⟨← ofForm key, ← ofForm value, some id, loc⟩
        let (properties, indexers) ← membersOfForms forms
        return (properties, indexer :: indexers)
      | _ :: _ :: _ => position.refuse file .malformedIndexer
      | parts => position.refuse file (.tooShort 3 (parts.length + 1))
    else
      let member := .list (.symbol tag :: parts) position
      position.refuse file (.unknownMember member)
  | form :: _ => form.refuse file (.unknownMember form)
end

end

end Ty

/-- Reads a type reference. -/
def TypeRef.ofForm (file : String) (form : Form) : Except ParseError (TypeRef Ty) := do
  match ← Ty.ofForm file form with
  | .named ref => return ref
  | _ => form.refuse file (.notReference form)

/-- Reads an object form. -/
def ObjectShape.ofForm (file : String) : Form → Except ParseError (ObjectShape Ty)
  | .list items position => do
    let form := Form.list items position
    if form.head? = some "object" then
      let (properties, indexers) ← Ty.membersOfForms file (items.drop 1)
      return ⟨properties, indexers, position.inFile file⟩
    else position.refuse file (.wrongTag "object" form.head?)
  | form => form.refuse file (.notList (some "object") form)

/-- The file name of annotations that are read on their own. -/
def Ty.standaloneFile : String := "<annotation>"

/-- Parses an annotation that stands on its own. -/
def Ty.parse (source : String) : Except ParseError Ty := do
  match Form.read source with
  | .error e => throw (.unreadable e)
  | .ok form => Ty.ofForm Ty.standaloneFile form

end TypeGuard
