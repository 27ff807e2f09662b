import TypeGuard.Location
import TypeGuard.Text.Quoted

/-!
# Journal

What happened during a run, for whoever wants to follow it. Each event has a level, the part of the
compiler it comes from, and a message.
-/

namespace TypeGuard

inductive Level where
  | debug
  | info
  | warning
  | error
  deriving DecidableEq, Repr

namespace Level

def rank : Level → Nat
  | .debug => 0
  | .info => 1
  | .warning => 2
  | .error => 3

/-- The level's name in five characters. -/
def tag : Level → String
  | .debug => "DEBUG"
  | .info => "INFO "
  | .warning => "WARNI"
  | .error => "ERROR"

end Level

/-- Where a file's reference to the validation library comes from. -/
inductive Origin where
  | imported
  | required
  | default
  deriving DecidableEq, Repr

def Origin.name : Origin → String
  | .imported => "import"
  | .required => "require"
  | .default => "default"

/-- The package that is loaded where a file names no other. -/
def defaultPackage : String := "tcomb"

inductive Event where
  | compiling (file : String)
  | parsed (file : String) (forms : Nat)
  | libraryBound (file : String) (origin : Origin) (loc : Location)
  | libraryDefaulted (file : String)
  | declared (loc : Location) (name : String)
  | instrumented (file : String) (checks : Nat) (returnChecked : Bool)
  | aborted (file : String) (reason : String)
  | compiled (file : String) (forms : Nat)
  | started (files : Nat) (options : String)
  | wrote (file : String)
  | notFound (label path : String)
  | badOptions (path reason : String)
  | parseFailed (reason : String)
  | writeFailed (reason : String)
  | crashed (reason : String)
  deriving DecidableEq, Repr

namespace Event

def level : Event → Level
  | .parsed .. | .libraryBound .. | .libraryDefaulted .. | .declared .. | .instrumented .. => .debug
  | .compiling .. | .compiled .. | .started .. | .wrote .. => .info
  | .aborted .. => .warning
  | .notFound .. | .badOptions .. | .parseFailed .. | .writeFailed .. | .crashed .. => .error

/-- The part of the compiler that an event comes from. -/
def source : Event → String
  | .compiling .. | .aborted .. | .compiled .. => "flowcomb.compiler"
  | .parsed .. => "flowcomb.parser"
  | .libraryBound .. | .libraryDefaulted .. => "flowcomb.context"
  | .declared .. => "flowcomb.declarations"
  | .instrumented .. => "flowcomb.instrument"
  | _ => "flowcomb"

def message : Event → String
  | .compiling file => "compiling " ++ file
  | .parsed file forms => s!"{file}: parsed {forms} top-level form(s)"
  | .libraryBound file origin loc =>
    file ++ ": library bound via " ++ origin.name ++ " at " ++ loc.render
  | .libraryDefaulted file =>
    file ++ ": no tcomb import found, using require(" ++ Text.quoted defaultPackage ++ ")"
  | .declared loc name => loc.render ++ ": translated " ++ name
  | .instrumented file checks returnChecked =>
    s!"{file}: {checks} argument check(s), return "
      ++ (if returnChecked then "checked" else "unchecked")
  | .aborted file reason => file ++ ": aborted: " ++ reason
  | .compiled file forms => s!"compiled {file} ({forms} declaration(s))"
  | .started files options => s!"compiling {files} file(s) with {options}"
  | .wrote file => "wrote " ++ file
  | .notFound label path => label ++ " not found: " ++ path
  | .badOptions path reason => "Bad options file " ++ path ++ ": " ++ reason
  | .parseFailed reason => "Parse error: " ++ reason
  | .writeFailed reason => "Cannot write output: " ++ reason
  | .crashed reason => "Unhandled exception: " ++ reason

/-- The event as a line of a log. -/
def line (e : Event) : String := "[" ++ e.level.tag ++ "] " ++ e.source ++ ": " ++ e.message ++ "\n"

end Event

end TypeGuard
