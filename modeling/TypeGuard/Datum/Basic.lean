import TypeGuard.Location
import TypeGuard.Number.Basic
import TypeGuard.Syntax.Primitive
import TypeGuard.Text.Quoted

/-!
# Trees as plain data

A datum is a tree of records without a type of its own: what a syntax tree looks like when it is
listed or handed in from outside. Each record has a kind, and the kind fixes the names, the order and
the defaults of its fields.
-/

namespace TypeGuard

/-- The kinds of records. -/
inductive NodeKind where
  | qualifiedName | namedType | arrayType | nullableType | tupleType | unionType | intersectionType
  | objectProperty | objectIndexer | objectType | functionTypeParam | functionType | primitiveType
  | stringLiteralType | numberLiteralType | booleanLiteralType | typeofType
  | bindingIdent | defaultPattern | patternField | objectPattern | arrayPattern
  | param | functionSignature
  | raw | identifier | thisExpr | member | call | stringLit | numberLit | arrayLit | objectLit
  | spread | binary | functionExpr | arrowFunction
  | block | returnStmt | exprStmt | rawStmt | varDecl | functionDecl | typeAlias | interfaceDecl
  | importSpecifier | importDecl | exportDecl | program
  | reference | primitive | listOf | maybe | tupleOf | unionOf | enumsOf | dictOf | refinement
  | intersection | interfaceType | interfaceExtend | literalRefinement | refinementRequest
  deriving DecidableEq, Repr, Inhabited

/-- A tree as plain data. The fields of a record stand in the order of its kind. -/
inductive Datum where
  | nothing
  | text (value : String)
  | flag (value : Bool)
  | number (value : Number)
  | primitive (value : Primitive)
  | place (value : Location)
  | sequence (items : List Datum)
  | record (kind : NodeKind) (fields : List Datum)
  deriving Inhabited

/-- A field of a kind of record: its name, and its value where none is given. -/
structure Field where
  name : String
  default : Datum := .nothing

namespace NodeKind

/-- The name of a kind in listings and messages. -/
def name : NodeKind → String
  | .qualifiedName => "QualifiedName"
  | .namedType => "NamedType"
  | .arrayType => "ArrayType"
  | .nullableType => "NullableType"
  | .tupleType => "TupleType"
  | .unionType => "UnionType"
  | .intersectionType => "IntersectionType"
  | .objectProperty => "ObjectProperty"
  | .objectIndexer => "ObjectIndexer"
  | .objectType => "ObjectType"
  | .functionTypeParam => "FunctionTypeParam"
  | .functionType => "FunctionType"
  | .primitiveType => "PrimitiveType"
  | .stringLiteralType => "StringLiteralType"
  | .numberLiteralType => "NumberLiteralType"
  | .booleanLiteralType => "BooleanLiteralType"
  | .typeofType => "TypeofType"
  | .bindingIdent => "BindingIdent"
  | .defaultPattern => "DefaultPattern"
  | .patternField => "PatternField"
  | .objectPattern => "ObjectPattern"
  | .arrayPattern => "ArrayPattern"
  | .param => "Param"
  | .functionSignature => "FunctionSignature"
  | .raw => "Raw"
  | .identifier => "Identifier"
  | .thisExpr => "ThisExpr"
  | .member => "Member"
  | .call => "Call"
  | .stringLit => "StringLit"
  | .numberLit => "NumberLit"
  | .arrayLit => "ArrayLit"
  | .objectLit => "ObjectLit"
  | .spread => "Spread"
  | .binary => "Binary"
  | .functionExpr => "FunctionExpr"
  | .arrowFunction => "ArrowFunction"
  | .block => "Block"
  | .returnStmt => "Return"
  | .exprStmt => "ExprStmt"
  | .rawStmt => "RawStmt"
  | .varDecl => "VarDecl"
  | .functionDecl => "FunctionDecl"
  | .typeAlias => "TypeAlias"
  | .interfaceDecl => "InterfaceDecl"
  | .importSpecifier => "ImportSpecifier"
  | .importDecl => "ImportDecl"
  | .exportDecl => "ExportDecl"
  | .program => "Program"
  | .reference => "Reference"
  | .primitive => "Primitive"
  | .listOf => "ListOf"
  | .maybe => "Maybe"
  | .tupleOf => "TupleOf"
  | .unionOf => "UnionOf"
  | .enumsOf => "EnumsOf"
  | .dictOf => "DictOf"
  | .refinement => "Refinement"
  | .intersection => "Intersection"
  | .interfaceType => "InterfaceType"
  | .interfaceExtend => "InterfaceExtend"
  | .literalRefinement => "LiteralRefinement"
  | .refinementRequest => "RefinementRequest"

def all : List NodeKind := [
  .qualifiedName, .namedType, .arrayType, .nullableType, .tupleType, .unionType, .intersectionType,
  .objectProperty, .objectIndexer, .objectType, .functionTypeParam, .functionType, .primitiveType,
  .stringLiteralType, .numberLiteralType, .booleanLiteralType, .typeofType,
  .bindingIdent, .defaultPattern, .patternField, .objectPattern, .arrayPattern,
  .param, .functionSignature,
  .raw, .identifier, .thisExpr, .member, .call, .stringLit, .numberLit, .arrayLit, .objectLit,
  .spread, .binary, .functionExpr, .arrowFunction,
  .block, .returnStmt, .exprStmt, .rawStmt, .varDecl, .functionDecl, .typeAlias, .interfaceDecl,
  .importSpecifier, .importDecl, .exportDecl, .program,
  .reference, .primitive, .listOf, .maybe, .tupleOf, .unionOf, .enumsOf, .dictOf, .refinement,
  .intersection, .interfaceType, .interfaceExtend, .literalRefinement, .refinementRequest]

def ofName? (s : String) : Option NodeKind := all.find? (·.name == s)

/-- The location field that most kinds have. -/
def locField : Field := ⟨"loc", .place .unknown⟩

def emptyList : Datum := .sequence []

/-- The fields of a kind, in order. -/
def fields : NodeKind → List Field
  | .qualifiedName => [⟨"parts", emptyList⟩]
  | .namedType => [⟨"id", .nothing⟩, ⟨"type_args", .nothing⟩, locField]
  | .arrayType => [⟨"element", .nothing⟩, locField]
  | .nullableType => [⟨"inner", .nothing⟩, locField]
  | .tupleType => [⟨"types", emptyList⟩, locField]
  | .unionType => [⟨"types", emptyList⟩, locField]
  | .intersectionType => [⟨"types", emptyList⟩, locField]
  | .objectProperty => [⟨"key", .nothing⟩, ⟨"value", .nothing⟩, ⟨"optional", .flag false⟩, locField]
  | .objectIndexer => [⟨"key", .nothing⟩, ⟨"value", .nothing⟩, ⟨"id", .nothing⟩, locField]
  | .objectType => [⟨"properties", emptyList⟩, ⟨"indexers", emptyList⟩, locField]
  | .functionTypeParam => [⟨"annotation", .nothing⟩, ⟨"name", .nothing⟩]
  | .functionType => [⟨"params", emptyList⟩, ⟨"return_type", .nothing⟩, locField]
  | .primitiveType => [⟨"primitive", .nothing⟩, locField]
  | .stringLiteralType => [⟨"value", .nothing⟩, locField]
  | .numberLiteralType => [⟨"value", .nothing⟩, locField]
  | .booleanLiteralType => [⟨"value", .nothing⟩, locField]
  | .typeofType => [⟨"argument", .nothing⟩, locField]
  | .bindingIdent => [⟨"name", .nothing⟩]
  | .defaultPattern => [⟨"target", .nothing⟩, ⟨"default", .nothing⟩]
  | .patternField => [⟨"key", .nothing⟩, ⟨"value", .nothing⟩]
  | .objectPattern => [⟨"fields", emptyList⟩, ⟨"rest", .nothing⟩]
  | .arrayPattern => [⟨"elements", emptyList⟩, ⟨"rest", .nothing⟩]
  | .param =>
    [⟨"binding", .nothing⟩, ⟨"annotation", .nothing⟩, ⟨"optional", .flag false⟩,
     ⟨"default", .nothing⟩, ⟨"rest", .flag false⟩]
  | .functionSignature =>
    [⟨"params", emptyList⟩, ⟨"return_type", .nothing⟩, ⟨"type_params", emptyList⟩]
  | .raw => [⟨"text", .nothing⟩]
  | .identifier => [⟨"name", .nothing⟩]
  | .thisExpr => []
  | .member => [⟨"object", .nothing⟩, ⟨"prop", .nothing⟩]
  | .call => [⟨"callee", .nothing⟩, ⟨"args", emptyList⟩]
  | .stringLit => [⟨"value", .nothing⟩]
  | .numberLit => [⟨"value", .nothing⟩]
  | .arrayLit => [⟨"elements", emptyList⟩]
  | .objectLit => [⟨"entries", emptyList⟩]
  | .spread => [⟨"argument", .nothing⟩]
  | .binary => [⟨"op", .nothing⟩, ⟨"left", .nothing⟩, ⟨"right", .nothing⟩]
  | .functionExpr =>
    [⟨"signature", .nothing⟩, ⟨"body", .nothing⟩, ⟨"name", .nothing⟩, locField]
  | .arrowFunction => [⟨"signature", .nothing⟩, ⟨"body", .nothing⟩, locField]
  | .block => [⟨"body", emptyList⟩]
  | .returnStmt => [⟨"argument", .nothing⟩]
  | .exprStmt => [⟨"expression", .nothing⟩]
  | .rawStmt => [⟨"text", .nothing⟩]
  | .varDecl => [⟨"kind", .nothing⟩, ⟨"target", .nothing⟩, ⟨"init", .nothing⟩, locField]
  | .functionDecl =>
    [⟨"name", .nothing⟩, ⟨"signature", .nothing⟩, ⟨"body", .nothing⟩, locField]
  | .typeAlias => [⟨"name", .nothing⟩, ⟨"right", .nothing⟩, ⟨"type_params", emptyList⟩, locField]
  | .interfaceDecl =>
    [⟨"name", .nothing⟩, ⟨"body", .nothing⟩, ⟨"extends", emptyList⟩, ⟨"type_params", emptyList⟩,
     locField]
  | .importSpecifier => [⟨"kind", .nothing⟩, ⟨"local", .nothing⟩, ⟨"imported", .nothing⟩]
  | .importDecl => [⟨"source", .nothing⟩, ⟨"specifiers", emptyList⟩, locField]
  | .exportDecl => [⟨"declaration", .nothing⟩, locField]
  | .program => [⟨"body", emptyList⟩, ⟨"file", .text "<string>"⟩]
  | .reference => [⟨"expr", .nothing⟩]
  | .primitive => [⟨"name", .nothing⟩]
  | .listOf => [⟨"element", .nothing⟩, ⟨"name", .nothing⟩]
  | .maybe => [⟨"inner", .nothing⟩, ⟨"name", .nothing⟩]
  | .tupleOf => [⟨"items", emptyList⟩, ⟨"name", .nothing⟩]
  | .unionOf => [⟨"members", emptyList⟩, ⟨"name", .nothing⟩]
  | .enumsOf => [⟨"values", emptyList⟩, ⟨"name", .nothing⟩]
  | .dictOf => [⟨"domain", .nothing⟩, ⟨"codomain", .nothing⟩, ⟨"name", .nothing⟩]
  | .refinement => [⟨"base", .nothing⟩, ⟨"predicate", .nothing⟩, ⟨"name", .nothing⟩]
  | .intersection => [⟨"members", emptyList⟩, ⟨"name", .nothing⟩]
  | .interfaceType => [⟨"props", emptyList⟩, ⟨"name", .nothing⟩]
  | .interfaceExtend => [⟨"mixins", emptyList⟩, ⟨"props", .nothing⟩, ⟨"name", .nothing⟩]
  | .literalRefinement => [⟨"value", .nothing⟩, ⟨"name", .nothing⟩]
  | .refinementRequest => [⟨"predicate", .nothing⟩, locField]

/-- Whether a listing shows the field. Locations are shown of refinement markers only. -/
def shows (kind : NodeKind) (field : String) : Bool :=
  field != "loc" || kind == .refinementRequest

end NodeKind

namespace Datum

/-- The record with the given named fields; a field that is not given has its default. -/
def ofFields (kind : NodeKind) (given : List (String × Datum)) : Datum :=
  .record kind (kind.fields.map fun field => (given.lookup field.name).getD field.default)

/-- The name of a datum's kind, as messages give it. -/
def kindName : Datum → String
  | .nothing => "NoneType"
  | .text _ => "str"
  | .flag _ => "bool"
  | .number (.int _) => "int"
  | .number (.float _) => "float"
  | .primitive _ => "PrimitiveKind"
  | .place _ => "SourceLoc"
  | .sequence _ => "tuple"
  | .record kind _ => kind.name

/-- The field of a record under a name. -/
def field? (name : String) : Datum → Option Datum
  | .record kind values => ((kind.fields.map Field.name).zip values).lookup name
  | _ => none

/-- The location that a record has as its last field. -/
def loc? : Datum → Option Location
  | .record _ fields =>
    match fields.getLast? with
    | some (.place loc) => some loc
    | _ => none
  | _ => none

mutual
/-- A datum as listings and messages show it. -/
def render : Datum → String
  | .nothing => "None"
  | .text value => Text.quoted value
  | .flag value => if value then "True" else "False"
  | .number value => value.render
  | .primitive value =>
    "<PrimitiveKind." ++ value.keyword.toUpper ++ ": " ++ Text.quoted value.keyword ++ ">"
  | .place value =>
    "SourceLoc(file=" ++ Text.quoted value.file ++ s!", line={value.line}, col={value.col})"
  | .sequence items =>
    match renderAll items with
    | [single] => "(" ++ single ++ ",)"
    | shown => "(" ++ ", ".intercalate shown ++ ")"
  | .record kind fields =>
    kind.name ++ "("
      ++ ", ".intercalate
          (((kind.fields.zip (renderAll fields)).filter fun p => kind.shows p.1.name).map
            fun p => p.1.name ++ "=" ++ p.2)
      ++ ")"

def renderAll : List Datum → List String
  | [] => []
  | item :: items => render item :: renderAll items
end

end Datum

end TypeGuard
