import TypeGuard.Descriptor.Basic

/-!
# Descriptors of annotations

Each annotation stands for a descriptor, or cannot be checked at run time. A type parameter in scope
accepts any value. The marker `$Refinement<typeof p>` is no type: in an intersection and among the
supertypes of an interface it narrows the other operands by the predicate `p`.
-/

namespace TypeGuard

/-- The name of the refinement marker. -/
def refinementMarker : String := "$Refinement"

/-- The type parameters in scope, a frame for each declaration that is being looked into. -/
abbrev Scope := List (List String)

/-- Some open frame binds the name. -/
def Scope.binds (scope : Scope) (name : String) : Bool := scope.any (·.contains name)

/-- Why an annotation or a type declaration has no descriptor. -/
inductive TypeError where
  | unsupported (kind : String) (loc : Option Location)
  | severalIndexers (count : Nat) (loc : Location)
  | onlyRefinements (loc : Location)
  | arrayArity (loc : Location)
  | malformedRefinement (loc : Location)
  | misplacedRefinement (loc : Location)
  | reservedName (loc : Location)
  | indexersWithSupertypes (interface : String) (loc : Location)
  deriving DecidableEq, Repr

namespace TypeError

def message : TypeError → String
  | .unsupported kind _ => "Unsupported type annotation: " ++ kind
  | .severalIndexers count _ =>
    s!"Unsupported object type annotation: {count} indexers (expected at most 1)"
  | .onlyRefinements _ =>
    "Unsupported intersection type annotation: at least one operand must be a type other than "
      ++ refinementMarker
  | .arrayArity _ =>
    "Unsupported Array type annotation: incorrect number of type parameters (expected 1)"
  | .malformedRefinement _ =>
    "Invalid refinement definition, example: $Refinement<typeof predicate>"
  | .misplacedRefinement _ =>
    refinementMarker ++ " can only be used in an intersection or in an interface extends clause"
  | .reservedName _ => refinementMarker ++ " is a reserved interface name for flowcomb"
  | .indexersWithSupertypes interface _ =>
    "Unsupported interface " ++ interface ++ ": indexers cannot be combined with extends"

def loc? : TypeError → Option Location
  | .unsupported _ loc => loc
  | .severalIndexers _ loc | .onlyRefinements loc | .arrayArity loc | .malformedRefinement loc
  | .misplacedRefinement loc | .reservedName loc | .indexersWithSupertypes _ loc => some loc

end TypeError

/-- What an operand of an intersection stands for. -/
inductive Operand where
  | type (descriptor : Descriptor)
  | refinement (predicate : Expr) (loc : Location)

namespace Operand

/-- The descriptor of an operand in the place of a type. -/
def toType : Operand → Except TypeError Descriptor
  | .type descriptor => .ok descriptor
  | .refinement _ loc => .error (.misplacedRefinement loc)

def types (operands : List Operand) : List Descriptor :=
  operands.filterMap fun
    | .type descriptor => some descriptor
    | .refinement _ _ => none

def predicates (operands : List Operand) : List Expr :=
  operands.filterMap fun
    | .type _ => none
    | .refinement predicate _ => some predicate

end Operand

/-- The descriptor narrowed by the predicates, from left to right. -/
def Descriptor.refine (base : Descriptor) (predicates : List Expr) (name : Option String) :
    Descriptor :=
  predicates.foldl (fun base predicate => .refinement base predicate name) base

/-- The descriptor of a primitive annotation. -/
def Primitive.irreducible : Primitive → Irreducible
  | .number => .number
  | .string => .string
  | .boolean => .boolean
  | .void => .nil
  | .null => .nil
  | .any => .any
  | .mixed => .any

/-- The object shape of an annotation; any other annotation has no members. -/
def Ty.shape : Ty → ObjectShape Ty
  | .object shape => shape
  | _ => {}

/-- Why a tree in the place of an annotation has no descriptor: under its own kind field if it has
one, and else under the name of its kind. -/
def Datum.unsupported : Datum → TypeError
  | .record .varDecl (.text kind :: _) => .unsupported kind none
  | .record .importSpecifier (.text kind :: _) => .unsupported kind none
  | .record .typeofType [_, .place loc] => .unsupported "TypeofTypeAnnotation" (some loc)
  | value => .unsupported value.kindName none

/-- What a stray in the place of an operand stands for. A function annotation is not looked into, so
its parts do not matter. -/
def Datum.operand : Datum → Except TypeError Operand
  | .record .functionType _ => .ok (.type (.primitive .function))
  | value => .error value.unsupported

namespace TypeRef

def isRefinement (ref : TypeRef Ty) : Bool := ref.name.isSimply refinementMarker

/-- The predicate of a refinement marker: the one value whose type is its argument. -/
def predicate (ref : TypeRef Ty) : Except TypeError Expr :=
  match ref.args with
  | some [.typeof argument _] => .ok (.ofName argument.name)
  | _ => .error (.malformedRefinement ref.loc)

end TypeRef

namespace Ty

/-- The values of string literals, if the annotations are nothing else. -/
def stringLiterals? : List Ty → Option (List String)
  | [] => some []
  | .string value _ :: types => (stringLiterals? types).map (value :: ·)
  | _ :: _ => none

section
variable (scope : Scope)

mutual
/-- What an annotation in the place of an operand stands for. -/
def operand (name : Option String) : Ty → Except TypeError Operand
  | .named ⟨id, args, loc⟩ =>
    if id.isSimply "Array" then
      match args with
      | some [element] => do
        return .type (.list (← (← operand none element).toType) name)
      | _ => .error (.arrayArity loc)
    else
      match id.parts with
      | [parameter] =>
        if scope.binds parameter then .ok (.type (.primitive .any))
        else if parameter = refinementMarker then do
          return .refinement (← TypeRef.predicate ⟨id, args, loc⟩) loc
        else .ok (.type (.reference (.ofName id)))
      | _ => .ok (.type (.reference (.ofName id)))
  | .array element _ => do return .type (.list (← (← operand none element).toType) name)
  | .nullable inner _ => do return .type (.maybe (← (← operand none inner).toType) name)
  | .tuple types _ => do return .type (.tuple (← descriptors types) name)
  | .union types _ =>
    match stringLiterals? types with
    | some values => .ok (.type (.enums values name))
    | none => do return .type (.union (← descriptors types) name)
  | .intersection types loc => do
    let operands ← operands types
    let predicates := Operand.predicates operands
    match Operand.types operands with
    | [] => throw (.onlyRefinements loc)
    | [base] => return .type (base.refine predicates name)
    | members => return .type (Descriptor.refine (.intersection members name) predicates name)
  | .object ⟨properties, indexers, loc⟩ =>
    match indexers with
    | [] => do return .type (.interface (← props properties) name)
    | [⟨key, value, _, _⟩] => do
      let domain ← (← operand none key).toType
      return .type (.dict domain (← (← operand none value).toType) name)
    | indexers => .error (.severalIndexers indexers.length loc)
  | .function _ _ _ => .ok (.type (.primitive .function))
  | .primitive value _ => .ok (.type (.primitive value.irreducible))
  | .string value _ => .ok (.type (.enums [value] name))
  | .number value _ => .ok (.type (.literal value name))
  | .boolean _ loc => .error (.unsupported "BooleanLiteralTypeAnnotation" (some loc))
  | .typeof _ loc => .error (.unsupported "TypeofTypeAnnotation" (some loc))
  | .stray value => value.operand

def operands : List Ty → Except TypeError (List Operand)
  | [] => .ok []
  | type :: types => do return (← operand none type) :: (← operands types)

def descriptors : List Ty → Except TypeError (List Descriptor)
  | [] => .ok []
  | type :: types => do return (← (← operand none type).toType) :: (← descriptors types)

/-- The descriptors of the properties of an object shape; an optional property may be absent. -/
def props : List (Property Ty) → Except TypeError (List (String × Descriptor))
  | [] => .ok []
  | ⟨key, value, optional, _⟩ :: properties => do
    let value ← (← operand none value).toType
    return (key, if optional then .maybe value none else value) :: (← props properties)
end

/-- The descriptor of an annotation. -/
def descriptor (name : Option String) (type : Ty) : Except TypeError Descriptor := do
  (← operand scope name type).toType

end

end Ty

/-- The descriptor of a type alias, in a scope with its own type parameters. -/
def TypeAlias.descriptorIn (scope : Scope) (decl : TypeAlias) : Except TypeError Descriptor :=
  if decl.name = refinementMarker then .error (.reservedName decl.loc)
  else decl.right.descriptor scope (some decl.name)

/-- The descriptor of a type alias. -/
def TypeAlias.descriptor (scope : Scope) (decl : TypeAlias) : Except TypeError Descriptor :=
  decl.descriptorIn (decl.typeParams :: scope)

/-- What a supertype of an interface stands for. -/
def TypeRef.supertype (ref : TypeRef Ty) : Except TypeError Operand :=
  if ref.isRefinement then do return .refinement (← ref.predicate) ref.loc
  else .ok (.type (.reference (.ofName ref.name)))

/-- The descriptor of an interface, in a scope with its own type parameters. The refinement markers
among its supertypes narrow its own properties. -/
def InterfaceDecl.descriptorIn (scope : Scope) (decl : InterfaceDecl) :
    Except TypeError Descriptor :=
  if decl.name = refinementMarker then .error (.reservedName decl.loc)
  else if decl.supertypes.isEmpty then
    decl.body.descriptor scope (some decl.name)
  else if !decl.body.shape.indexers.isEmpty then
    .error (.indexersWithSupertypes decl.name decl.loc)
  else do
    let supertypes ← decl.supertypes.mapM TypeRef.supertype
    let props ← Ty.props scope decl.body.shape.properties
    let own := Descriptor.refine (.interface props none) (Operand.predicates supertypes) none
    return .extend (Operand.types supertypes) own (some decl.name)

/-- The descriptor of an interface. -/
def InterfaceDecl.descriptor (scope : Scope) (decl : InterfaceDecl) : Except TypeError Descriptor :=
  decl.descriptorIn (decl.typeParams :: scope)

end TypeGuard
