import TypeGuard.Json.Basic

/-!
# Compiler options

Two switches: one leaves out the assertion helper, the other leaves functions as they are and the
helper with them. Options are read from an object whose keys may be written in two ways.
-/

namespace TypeGuard

structure Options where
  skipHelpers : Bool := false
  skipAsserts : Bool := false
  deriving DecidableEq, Repr

/-- Why a value holds no options. -/
inductive OptionError where
  | unknown (key : String)
  | notBoolean (key : String) (value : Json)
  /-- The value is neither an object nor empty. -/
  | noMapping (kind : String)

def OptionError.message : OptionError → String
  | .unknown key => "Unknown compiler option: " ++ Text.quoted key
  | .notBoolean key value =>
    "Option " ++ Text.quoted key ++ " must be a boolean, got " ++ value.display
  | .noMapping kind => Text.quoted kind ++ " object has no attribute 'items'"

namespace Options

/-- Whether the assertion helper goes into the output. -/
def injectHelper (o : Options) : Bool := !(o.skipHelpers || o.skipAsserts)

/-- Sets the switch that a key names. -/
def set? (o : Options) (key : String) (value : Bool) : Option Options :=
  if key = "skip_helpers" ∨ key = "skipHelpers" then some { o with skipHelpers := value }
  else if key = "skip_asserts" ∨ key = "skipAsserts" then some { o with skipAsserts := value }
  else none

/-- Takes one member of an options object. -/
def take (o : Options) (member : String × Json) : Except OptionError Options :=
  match o.set? member.1 false, member.2 with
  | none, _ => .error (.unknown member.1)
  | some _, .bool value => .ok ((o.set? member.1 value).getD o)
  | some _, value => .error (.notBoolean member.1 value)

/-- The options that the members of an object give; of two members for one switch the later one
counts. -/
def ofMembers (members : List (String × Json)) : Except OptionError Options :=
  members.foldlM take {}

/-- The options in a value. An empty value of any kind gives the defaults. -/
def ofJson (value : Json) : Except OptionError Options :=
  match value with
  | .object members => ofMembers members
  | value => if value.isEmpty then .ok {} else .error (.noMapping value.kindName)

/-- The options with the given switches set. -/
def merged (o : Options) (skipHelpers skipAsserts : Option Bool) : Options :=
  ⟨skipHelpers.getD o.skipHelpers, skipAsserts.getD o.skipAsserts⟩

def render (o : Options) : String :=
  "CompilerOptions(skip_helpers=" ++ (Json.bool o.skipHelpers).display ++ ", skip_asserts="
    ++ (Json.bool o.skipAsserts).display ++ ")"

end Options

end TypeGuard
