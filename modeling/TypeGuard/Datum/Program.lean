import TypeGuard.Datum.Ty
import TypeGuard.Syntax.Program

/-!
# Programs as plain data

The listing of patterns, expressions and statements, and the trees that plain data stand for.
-/

namespace TypeGuard

namespace ImportSpecifier

def toDatum (s : ImportSpecifier) : Datum :=
  .record .importSpecifier [.text s.kind.keyword, .text s.localName, .ofText? s.imported]

def ofDatum? : Datum → Option ImportSpecifier
  | .record .importSpecifier [.text kind, .text localName, imported] =>
    some ⟨.ofKeyword kind, localName, imported.toText?⟩
  | _ => none

end ImportSpecifier

namespace TypeAlias

def toDatum (d : TypeAlias) : Datum :=
  .record .typeAlias [.text d.name, d.right.toDatum, .ofTexts d.typeParams, .place d.loc]

end TypeAlias

namespace InterfaceDecl

def toDatum (d : InterfaceDecl) : Datum :=
  .record .interfaceDecl
    [.text d.name, d.body.toDatum, .sequence (d.supertypes.map TypeRef.toDatum),
     .ofTexts d.typeParams, .place d.loc]

end InterfaceDecl

namespace ImportDecl

def toDatum (d : ImportDecl) : Datum :=
  .record .importDecl
    [.text d.source, .sequence (d.specifiers.map ImportSpecifier.toDatum), .place d.loc]

end ImportDecl

mutual

def Pattern.toDatum : Pattern → Datum
  | .ident name => .record .bindingIdent [.text name]
  | .object fields rest =>
    .record .objectPattern [.sequence (Pattern.fieldsToData fields), .ofText? rest]
  | .array elements rest =>
    .record .arrayPattern [.sequence (Pattern.elementsToData elements), .ofText? rest]
  | .default target value => .record .defaultPattern [target.toDatum, value.toDatum]
  | .stray value => value

def Pattern.fieldsToData : List (PatternField Pattern) → List Datum
  | [] => []
  | ⟨key, value⟩ :: fields =>
    .record .patternField [.text key, value.toDatum] :: Pattern.fieldsToData fields

def Pattern.elementsToData : List (Option Pattern) → List Datum
  | [] => []
  | none :: elements => .nothing :: Pattern.elementsToData elements
  | some element :: elements => element.toDatum :: Pattern.elementsToData elements

def Expr.toDatum : Expr → Datum
  | .raw text => .record .raw [.text text]
  | .ident name => .record .identifier [.text name]
  | .this => .record .thisExpr []
  | .member object prop => .record .member [object.toDatum, .text prop]
  | .call callee args => .record .call [callee.toDatum, .sequence (Expr.toData args)]
  | .string value => .record .stringLit [.text value]
  | .number value => .record .numberLit [.number value]
  | .array elements => .record .arrayLit [.sequence (Expr.toData elements)]
  | .object entries => .record .objectLit [.sequence (Expr.entriesToData entries)]
  | .spread argument => .record .spread [argument.toDatum]
  | .binary op left right => .record .binary [.text op, left.toDatum, right.toDatum]
  | .function ⟨params, returnType, typeParams⟩ body name loc =>
    .record .functionExpr
      [.record .functionSignature
        [.sequence (Expr.paramsToData params), (returnType.map Ty.toDatum).getD .nothing,
         .ofTexts typeParams],
       .record .block [.sequence (Stmt.toData body)], .ofText? name, .place loc]
  | .arrow ⟨params, returnType, typeParams⟩ body loc =>
    .record .arrowFunction
      [.record .functionSignature
        [.sequence (Expr.paramsToData params), (returnType.map Ty.toDatum).getD .nothing,
         .ofTexts typeParams],
       Expr.bodyToDatum body, .place loc]
  | .stray value => value

def Expr.bodyToDatum : Body Stmt Expr → Datum
  | .block body => .record .block [.sequence (Stmt.toData body)]
  | .expression value => value.toDatum

def Expr.toData : List Expr → List Datum
  | [] => []
  | e :: es => e.toDatum :: Expr.toData es

def Expr.entriesToData : List (Entry Expr) → List Datum
  | [] => []
  | .pair key value :: entries =>
    .sequence [.text key, value.toDatum] :: Expr.entriesToData entries
  | .spread argument :: entries =>
    .record .spread [argument.toDatum] :: Expr.entriesToData entries

def Expr.paramsToData : List (Param Pattern Expr) → List Datum
  | [] => []
  | ⟨binding, type, optional, none, rest⟩ :: params =>
    .record .param
      [binding.toDatum, (type.map Ty.toDatum).getD .nothing, .flag optional, .nothing, .flag rest]
      :: Expr.paramsToData params
  | ⟨binding, type, optional, some value, rest⟩ :: params =>
    .record .param
      [binding.toDatum, (type.map Ty.toDatum).getD .nothing, .flag optional, value.toDatum,
       .flag rest]
      :: Expr.paramsToData params

def Stmt.toDatum : Stmt → Datum
  | .block body => .record .block [.sequence (Stmt.toData body)]
  | .ret none => .record .returnStmt [.nothing]
  | .ret (some argument) => .record .returnStmt [argument.toDatum]
  | .expr expression => .record .exprStmt [expression.toDatum]
  | .raw text => .record .rawStmt [.text text]
  | .var kind target none loc =>
    .record .varDecl [.text kind.keyword, target.toDatum, .nothing, .place loc]
  | .var kind target (some init) loc =>
    .record .varDecl [.text kind.keyword, target.toDatum, init.toDatum, .place loc]
  | .function name ⟨params, returnType, typeParams⟩ body loc =>
    .record .functionDecl
      [.text name,
       .record .functionSignature
        [.sequence (Expr.paramsToData params), (returnType.map Ty.toDatum).getD .nothing,
         .ofTexts typeParams],
       .record .block [.sequence (Stmt.toData body)], .place loc]
  | .typeAlias decl => decl.toDatum
  | .interface decl => decl.toDatum
  | .imports decl => decl.toDatum
  | .exports declaration loc => .record .exportDecl [declaration.toDatum, .place loc]
  | .stray value => value

def Stmt.toData : List Stmt → List Datum
  | [] => []
  | s :: ss => s.toDatum :: Stmt.toData ss

end

mutual

def Pattern.ofDatum : Datum → Pattern
  | .record .bindingIdent [.text name] => .ident name
  | .record .objectPattern [.sequence fields, rest] =>
    .object (Pattern.fieldsOfData fields) rest.toText?
  | .record .arrayPattern [.sequence elements, rest] =>
    .array (Pattern.elementsOfData elements) rest.toText?
  | .record .defaultPattern [target, value] => .default (Pattern.ofDatum target) (Expr.ofDatum value)
  | value => .stray value

def Pattern.fieldsOfData : List Datum → List (PatternField Pattern)
  | [] => []
  | .record .patternField [.text key, value] :: items =>
    ⟨key, Pattern.ofDatum value⟩ :: Pattern.fieldsOfData items
  | _ :: items => Pattern.fieldsOfData items

def Pattern.elementsOfData : List Datum → List (Option Pattern)
  | [] => []
  | .nothing :: items => none :: Pattern.elementsOfData items
  | item :: items => some (Pattern.ofDatum item) :: Pattern.elementsOfData items

def Expr.ofDatum : Datum → Expr
  | .record .raw [.text text] => .raw text
  | .record .identifier [.text name] => .ident name
  | .record .thisExpr [] => .this
  | .record .member [object, .text prop] => .member (Expr.ofDatum object) prop
  | .record .call [callee, .sequence args] => .call (Expr.ofDatum callee) (Expr.ofData args)
  | .record .stringLit [.text value] => .string value
  | .record .numberLit [.number value] => .number value
  | .record .arrayLit [.sequence elements] => .array (Expr.ofData elements)
  | .record .objectLit [.sequence entries] => .object (Expr.entriesOfData entries)
  | .record .spread [argument] => .spread (Expr.ofDatum argument)
  | .record .binary [.text op, left, right] =>
    .binary op (Expr.ofDatum left) (Expr.ofDatum right)
  | .record .functionExpr [signature, body, name, .place loc] =>
    .function (Expr.signatureOfDatum signature) (Stmt.blockOfDatum body) name.toText? loc
  | .record .arrowFunction [signature, body, .place loc] =>
    .arrow (Expr.signatureOfDatum signature) (Expr.bodyOfDatum body) loc
  | value => .stray value

def Expr.ofDatum? : Datum → Option Expr
  | .nothing => none
  | value => some (Expr.ofDatum value)

def Expr.ofData : List Datum → List Expr
  | [] => []
  | item :: items => Expr.ofDatum item :: Expr.ofData items

def Expr.entriesOfData : List Datum → List (Entry Expr)
  | [] => []
  | .sequence [.text key, value] :: items =>
    .pair key (Expr.ofDatum value) :: Expr.entriesOfData items
  | .record .spread [argument] :: items =>
    .spread (Expr.ofDatum argument) :: Expr.entriesOfData items
  | _ :: items => Expr.entriesOfData items

/-- The body of a function: a block is one, and all else is an expression. -/
def Expr.bodyOfDatum : Datum → Body Stmt Expr
  | .record .block [.sequence body] => .block (Stmt.ofData body)
  | value => .expression (Expr.ofDatum value)

def Expr.signatureOfDatum : Datum → Signature Pattern Expr
  | .record .functionSignature [.sequence params, returnType, typeParams] =>
    ⟨Expr.paramsOfData params, Ty.ofDatum? returnType, typeParams.toTexts⟩
  | _ => {}

def Expr.paramsOfData : List Datum → List (Param Pattern Expr)
  | [] => []
  | .record .param [binding, type, .flag optional, value, .flag rest] :: items =>
    ⟨Pattern.ofDatum binding, Ty.ofDatum? type, optional, Expr.ofDatum? value, rest⟩
      :: Expr.paramsOfData items
  | _ :: items => Expr.paramsOfData items

def Stmt.ofDatum : Datum → Stmt
  | .record .block [.sequence body] => .block (Stmt.ofData body)
  | .record .returnStmt [argument] => .ret (Expr.ofDatum? argument)
  | .record .exprStmt [expression] => .expr (Expr.ofDatum expression)
  | .record .rawStmt [.text text] => .raw text
  | .record .varDecl [.text kind, target, init, .place loc] =>
    .var (.ofKeyword kind) (Pattern.ofDatum target) (Expr.ofDatum? init) loc
  | .record .functionDecl [.text name, signature, body, .place loc] =>
    .function name (Expr.signatureOfDatum signature) (Stmt.blockOfDatum body) loc
  | .record .typeAlias [.text name, right, typeParams, .place loc] =>
    .typeAlias ⟨name, Ty.ofDatum right, typeParams.toTexts, loc⟩
  | .record .interfaceDecl [.text name, body, .sequence supertypes, typeParams, .place loc] =>
    .interface
      ⟨name, Ty.ofDatum body, supertypes.filterMap TypeRef.ofDatum?, typeParams.toTexts, loc⟩
  | .record .importDecl [.text source, .sequence specifiers, .place loc] =>
    .imports ⟨source, specifiers.filterMap ImportSpecifier.ofDatum?, loc⟩
  | .record .exportDecl [declaration, .place loc] => .exports (Stmt.ofDatum declaration) loc
  | value => .stray value

def Stmt.ofData : List Datum → List Stmt
  | [] => []
  | item :: items => Stmt.ofDatum item :: Stmt.ofData items

def Stmt.blockOfDatum : Datum → List Stmt
  | .record .block [.sequence body] => Stmt.ofData body
  | _ => []

end

/-- The program that a tree stands for. -/
def Program.ofDatum : Datum → Program
  | .record .program [.sequence body, .text file] => ⟨Stmt.ofData body, file⟩
  | _ => {}

def Param.ofDatum? (value : Datum) : Option (Param Pattern Expr) :=
  (Expr.paramsOfData [value]).head?

/-- The signature and body of a function given as a declaration, as an expression, or as the
initial value of a variable. -/
def Body.ofFunction? : Datum → Option (Signature Pattern Expr × Body Stmt Expr)
  | .record .functionDecl [_, signature, body, _] =>
    some (Expr.signatureOfDatum signature, Expr.bodyOfDatum body)
  | .record .functionExpr [signature, body, _, _] =>
    some (Expr.signatureOfDatum signature, Expr.bodyOfDatum body)
  | .record .arrowFunction [signature, body, _] =>
    some (Expr.signatureOfDatum signature, Expr.bodyOfDatum body)
  | .record .varDecl [_, _, init, _] => Body.ofFunction? init
  | _ => none

end TypeGuard
