import TypeGuard.Form.Reader

/-!
# Parse errors

Why a text is no program. An error about the shape of a form has the location of the list at fault;
an error about an atom has none.
-/

namespace TypeGuard

/-- What is wrong with the shape of a form. -/
inductive FormError where
  | notSymbol (got : Form)
  | notString (got : Form)
  | notList (tag : Option String) (got : Form)
  | tooShort (least actual : Nat)
  | wrongTag (expected : String) (got : Option String)
  | malformedName (name : String)
  | untaggedType (got : Form)
  | notType (got : Form)
  | notReference (got : Form)
  | unknownMember (got : Form)
  | malformedIndexer
  | notTarget (got : Form)
  | unknownParam (tag : Option String)
  | optionalWithoutType
  | noParams
  | noBody
  | noArrowBody
  | unknownExpr (got : Form)
  | unknownStmt (tag : Option String)
  | unknownSpecifier (got : Form)
  | notOneType (aliasName : String)
  | noInterfaceBody (interface : String)
  | bodyNotLast (function : String)
  | constWithoutValue

/-- The tags of statements, in alphabetical order. -/
def statementTags : List String :=
  ["const", "export", "function", "import", "interface", "let", "return", "stmt", "type", "var"]

namespace FormError

def tagged (tag : String) : String := "(" ++ tag ++ " ...)"

def message : FormError → String
  | .notSymbol got => "Expected symbol, got " ++ got.kindName ++ ": " ++ got.render
  | .notString got => "Expected string literal, got " ++ got.kindName ++ ": " ++ got.render
  | .notList tag got =>
    "Expected list" ++ ((tag.map (" " ++ tagged ·)).getD "") ++ ", got " ++ got.kindName ++ ": "
      ++ got.render
  | .tooShort least actual =>
    s!"Form too short: expected at least {least} elements, got {actual}"
  | .wrongTag expected got => "Expected " ++ tagged expected ++ ", got " ++ tagged (got.getD "?")
  | .malformedName name => "Malformed qualified name: " ++ Text.quoted name
  | .untaggedType got => "Expected annotation form (tag ...), got: " ++ got.render
  | .notType got => "Expected type annotation, got: " ++ got.render
  | .notReference got => "Expected a type reference, got: " ++ got.render
  | .unknownMember got => "Unknown object member form: " ++ got.render
  | .malformedIndexer => "Expected (indexer [id] key value)"
  | .notTarget got => "Expected binding target, got: " ++ got.render
  | .unknownParam tag => "Unknown parameter form: " ++ tagged (tag.getD "?")
  | .optionalWithoutType => "Optional parameter needs a type: (param? name T)"
  | .noParams => "Missing parameter list"
  | .noBody => "Missing (body ...)"
  | .noArrowBody => "Missing arrow function body"
  | .unknownExpr got => "Unknown expression form: " ++ got.render
  | .unknownStmt tag =>
    "Unknown statement form: " ++ tagged (tag.getD "?") ++ ". Expected one of: ["
      ++ ", ".intercalate (statementTags.map Text.quoted) ++ "]"
  | .unknownSpecifier got => "Unknown import specifier: " ++ got.render
  | .notOneType name => "Expected exactly one annotation in type alias " ++ name
  | .noInterfaceBody name => "Expected an (object ...) body for interface " ++ name
  | .bodyNotLast name => "Expected (body ...) as the last element of function " ++ name
  | .constWithoutValue => "const declaration needs an initializer"

end FormError

/-- Why a text cannot be parsed. -/
inductive ParseError where
  /-- The text is no form. -/
  | unreadable (cause : ReadError)
  /-- A form is not what its place asks for. -/
  | misshapen (cause : FormError) (loc : Option Location)

namespace ParseError

def message : ParseError → String
  | .unreadable cause => "S-expression syntax error: " ++ cause.reason
  | .misshapen cause _ => cause.message

def loc? : ParseError → Option Location
  | .unreadable _ => none
  | .misshapen _ loc => loc

end ParseError

/-- Refuses a form of a file; a list gives the error its location. -/
def Form.refuse {α : Type} (file : String) (form : Form) (cause : FormError) :
    Except ParseError α :=
  .error (.misshapen cause (form.position?.map (·.inFile file)))

/-- Refuses the list that opens at `position`. -/
def Position.refuse {α : Type} (file : String) (position : Position) (cause : FormError) :
    Except ParseError α :=
  .error (.misshapen cause (some (position.inFile file)))

namespace Form

/-- The name of a symbol. -/
def asSymbol : Form → Except ParseError String
  | .symbol name => .ok name
  | form => .error (.misshapen (.notSymbol form) none)

/-- The value of a string. -/
def asString : Form → Except ParseError String
  | .text value => .ok value
  | form => .error (.misshapen (.notString form) none)

/-- The items of a list. -/
def asList : Form → Except ParseError (List Form)
  | .list items _ => .ok items
  | form => .error (.misshapen (.notList none form) none)

end Form

end TypeGuard
