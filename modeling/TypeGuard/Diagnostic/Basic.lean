import TypeGuard.Descriptor.OfTy
import TypeGuard.Diagnostic.Code
import TypeGuard.Options
import TypeGuard.Script.Printer
import TypeGuard.Surface.Error

/-!
# Faults and diagnostics

A fault is a failure of some kind, with a message and perhaps a location. A diagnostic is a fault
reported at a place in a file.
-/

namespace TypeGuard

/-- The kinds of faults. -/
inductive FaultKind where
  | general
  /-- The text is no form. -/
  | unreadable
  /-- A form is not what its place asks for. -/
  | misshapen
  | configuration
  | unprintable
  | lowering
  | unsupportedType
  | arrayArity
  | invalidRefinement
  | reservedName
  deriving DecidableEq, Repr

def FaultKind.code : FaultKind → Code
  | .general | .misshapen | .lowering => .unexpectedForm
  | .unreadable => .malformedForm
  | .configuration => .badOption
  | .unprintable => .unprintable
  | .unsupportedType => .unsupportedType
  | .arrayArity => .arrayArity
  | .invalidRefinement => .invalidRefinement
  | .reservedName => .reservedName

structure Fault where
  kind : FaultKind
  message : String
  loc : Option Location := none
  deriving DecidableEq, Repr

namespace Fault

def code (f : Fault) : Code := f.kind.code

/-- The message behind the location, if that is known. -/
def text (f : Fault) : String :=
  match f.loc with
  | none => f.message
  | some loc => if loc = .unknown then f.message else loc.render ++ ": " ++ f.message

end Fault

def ParseError.fault (e : ParseError) : Fault where
  kind := match e with
    | .unreadable _ => .unreadable
    | .misshapen _ _ => .misshapen
  message := e.message
  loc := e.loc?

def TypeError.fault (e : TypeError) : Fault where
  kind := match e with
    | .unsupported .. | .severalIndexers .. | .onlyRefinements .. | .indexersWithSupertypes .. =>
      .unsupportedType
    | .arrayArity .. => .arrayArity
    | .malformedRefinement .. | .misplacedRefinement .. => .invalidRefinement
    | .reservedName .. => .reservedName
  message := e.message
  loc := e.loc?

def PrintError.fault (e : PrintError) : Fault := ⟨.unprintable, e.message, e.loc?⟩

def OptionError.fault (e : OptionError) : Fault := ⟨.configuration, e.message, none⟩

/-- A fault reported at a location. -/
structure Diagnostic where
  fault : Fault
  loc : Location
  deriving DecidableEq, Repr

namespace Diagnostic

/-- Reports a fault at the given location if that is known, and else at its own. -/
def ofFault (fault : Fault) (loc : Option Location) : Diagnostic :=
  let known := loc.filter (· ≠ .unknown)
  ⟨fault, (known.or fault.loc).getD .unknown⟩

def code (d : Diagnostic) : Code := d.fault.code

def message (d : Diagnostic) : String := "[flowcomb] " ++ d.fault.message

/-- Every diagnostic stops the work on its file. -/
def severity : String := "fatal"

def text (d : Diagnostic) : String :=
  d.loc.render ++ ": " ++ severity ++ ": " ++ d.message ++ " [" ++ d.code.text ++ "]"

/-- A diagnostic as listings show it. -/
def render (d : Diagnostic) : String :=
  "CompileError(" ++ Text.quoted d.message ++ ", " ++ Text.quoted d.code.text ++ ", "
    ++ (Datum.place d.loc).render ++ ")"

def toJson (d : Diagnostic) : Json :=
  .object [
    ("file", .string d.loc.file),
    ("line", .ofNat d.loc.line),
    ("column", .ofNat d.loc.col),
    ("severity", .string severity),
    ("code", .string d.code.text),
    ("message", .string d.message)]

end Diagnostic

/-- The diagnostics of several files, in the order in which they were found. -/
structure Report where
  diagnostics : List Diagnostic := []

namespace Report

def add (r : Report) (d : Diagnostic) : Report := ⟨r.diagnostics ++ [d]⟩

/-- The number of diagnostics that are errors, which all of them are. -/
def errorCount (r : Report) : Nat := r.diagnostics.length

def hasErrors (r : Report) : Bool := !r.diagnostics.isEmpty

def text (r : Report) : String := "\n".intercalate (r.diagnostics.map Diagnostic.text)

def json (r : Report) : String := (Json.array (r.diagnostics.map Diagnostic.toJson)).pretty 0

def summary (r : Report) : String :=
  s!"--- {r.diagnostics.length} diagnostic(s), {r.errorCount} error(s) ---"

end Report

end TypeGuard
