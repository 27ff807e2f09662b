import TypeGuard.Cli.Arguments
import TypeGuard.Compile
import TypeGuard.Datum.Program
import TypeGuard.Files.Tree
import TypeGuard.Json.Parser

/-!
# Running commands

A command reads files from a tree and leaves its output on two streams and in the tree. The exit code
is zero if all went well, one if a file failed to compile, and two if the command could not do its
work at all.
-/

namespace TypeGuard.Cli

/-- What a run has produced so far. -/
structure Console where
  tree : FileTree
  /-- The least level of the events that are logged. -/
  threshold : Level
  stdout : String := ""
  stderr : String := ""

/-- A step of a run; it may end the run with an exit code. -/
abbrev Shell := ExceptT Nat (StateM Console)

def exitError : Nat := 1

def exitFailure : Nat := 2

/-- The least level that is logged at a verbosity. -/
def threshold (verbosity : Nat) : Level :=
  if verbosity = 0 then .warning else if verbosity = 1 then .info else .debug

def log (event : Event) : Shell Unit :=
  modify fun c =>
    if c.threshold.rank ≤ event.level.rank then { c with stderr := c.stderr ++ event.line } else c

def putOut (text : String) : Shell Unit := modify fun c => { c with stdout := c.stdout ++ text }

def putErr (text : String) : Shell Unit := modify fun c => { c with stderr := c.stderr ++ text }

/-- Logs an event and ends the run. -/
def fail {α : Type} (event : Event) : Shell α := do
  log event
  throw exitFailure

/-- The absolute path that an argument stands for. -/
def resolve (raw : String) : Shell Path := do
  let tree := (← get).tree
  match (Path.ofString raw).expandHome tree.home with
  | none => fail (.crashed "Could not determine home directory.")
  | some path =>
    if raw.toList.contains '\x00' then fail (.crashed "embedded null byte")
    else return tree.directory.resolve path

/-- The absolute path of a file that must exist. -/
def existing (label raw : String) : Shell Path := do
  let path ← resolve raw
  match (← get).tree.status path with
  | .ok (some _) => return path
  | .ok none => fail (.notFound label path.render)
  | .error e => fail (.crashed e.message)

/-- Reads a file that must be readable. -/
def readFile (path : Path) : Shell String := do
  match (← get).tree.readText path path.render with
  | .ok text => return text
  | .error e => fail (.crashed e.message)

/-- Reads the options file. -/
def readOptions (raw : String) : Shell Options := do
  let path ← existing "options file" raw
  let refuse (reason : String) : Shell Options := fail (.badOptions path.render reason)
  match (← get).tree.readText path path.render with
  | .error (.undecodable cause) => refuse cause.message
  | .error e => fail (.crashed e.message)
  | .ok text =>
    match Json.parse text with
    | .error e => refuse e.message
    | .ok value =>
      match Options.ofJson value with
      | .error e => refuse e.message
      | .ok options => return options

/-- The options of a run: the file first, the command line on top. An empty file name is none. -/
def loadOptions (args : CompileArgs) : Shell Options := do
  let options ← match args.options with
    | none | some "" => pure {}
    | some raw => readOptions raw
  let given (switch : Bool) : Option Bool := if switch then some true else none
  return options.merged (given args.skipHelpers) (given args.skipAsserts)

/-- Compiles one file. -/
def compileFile (options : Options) (path : Path) : Shell Outcome := do
  let outcome := compile options path.render (← readFile path)
  outcome.journal.forM log
  return outcome

/-- Compiles all files. -/
def compileAll (args : CompileArgs) : Shell (List Outcome) := do
  let options ← loadOptions args
  let paths ← args.files.mapM (existing "source file")
  log (.started paths.length options.render)
  paths.mapM (compileFile options)

/-- The report on the files that failed. -/
def reportOf (outcomes : List Outcome) : Report := ⟨outcomes.filterMap Outcome.diagnostic?⟩

/-- The report in the wanted format; as text, an empty report says nothing. -/
def showReport (json : Bool) (report : Report) : String :=
  if json then report.json ++ "\n"
  else if report.diagnostics.isEmpty then ""
  else report.text ++ "\n" ++ report.summary ++ "\n"

def exitCode (report : Report) : Nat := if report.hasErrors then exitError else 0

/-- The file in a directory that the code of a source file goes to. -/
def target (directory : Path) (file : String) : Path :=
  directory.child ((Path.ofString file).stem ++ ".js")

/-- Writes the code of a file into a directory. -/
def writeCode (directory : Path) (outcome : Outcome) (code : String) : Shell Unit := do
  let target := target directory outcome.file
  let tree := (← get).tree
  match tree.makeDirectory directory with
  | .error e => fail (.writeFailed e.message)
  | .ok made =>
    modify fun c => { c with tree := made }
    match made.write target code with
    | .error e => fail (.writeFailed e.message)
    | .ok written =>
      modify fun c => { c with tree := written }
      log (.wrote target.render)

/-- Puts out the code of a file: on the standard output, behind its name if there are several files,
or into the output directory. -/
def putCode (output : Option String) (several : Bool) (outcome : Outcome) : Shell Unit := do
  match outcome.result with
  | .error _ => return ()
  | .ok code =>
    match output.filter (· ≠ "-") with
    | none =>
      if several then putOut ("// " ++ outcome.file ++ "\n")
      putOut code
    | some raw => writeCode (← resolve raw) outcome code

def runCompile (args : CompileArgs) : Shell Nat := do
  let outcomes ← compileAll args
  outcomes.forM (putCode args.output (outcomes.length > 1))
  let report := reportOf outcomes
  putErr (showReport args.json report)
  return exitCode report

def runCheck (args : CompileArgs) : Shell Nat := do
  let outcomes ← compileAll args
  let report := reportOf outcomes
  putOut (showReport args.json report)
  if !report.hasErrors && !args.json then putOut s!"{outcomes.length} file(s) OK\n"
  return exitCode report

def runParse (raw : String) : Shell Nat := do
  let path ← existing "source file" raw
  let text ← readFile path
  match Program.parse path.render text with
  | .error e =>
    log (.parseFailed e.fault.text)
    return exitError
  | .ok program =>
    log (.parsed path.render program.body.length)
    program.body.forM fun stmt => putOut (stmt.toDatum.render ++ "\n")
    return 0

/-- The path that an argument stands for. -/
def pathOf (directory : Path) (home : Option Path) (raw : String) : Path :=
  directory.resolve (((Path.ofString raw).expandHome home).getD {})

/-- The paths that a command on source files may read or write. -/
def CompileArgs.paths (directory : Path) (home : Option Path) (args : CompileArgs) : List Path :=
  let resolve := pathOf directory home
  let outputs := args.output.toList.map resolve
  args.files.map resolve ++ args.options.toList.map resolve ++ outputs
    ++ outputs.flatMap fun output => args.files.map (target output)

/-- The paths that a command may read or write. -/
def Command.paths (directory : Path) (home : Option Path) : Command → List Path
  | .compile args | .check args => args.paths directory home
  | .parse file => [pathOf directory home file]

def Command.run : Command → Shell Nat
  | .compile args => runCompile args
  | .check args => runCheck args
  | .parse file => runParse file

/-- What is left when the program ends. -/
structure Result where
  exit : Nat
  stdout : String := ""
  stderr : String := ""
  tree : FileTree

/-- How a command line ends. -/
inductive Ending where
  /-- There is no command to run. -/
  | usage
  | help
  | done (result : Result)

def versionText : String := "flowcomb 0.1.0\n"

/-- The paths that matter to a command line: those it may read or write, and the directories above
them. -/
def touched (directory : Path) (home : Option Path) (args : List String) : List Path :=
  match parse args with
  | .error _ => []
  | .ok invocation => ((invocation.command.paths directory home).flatMap Path.lineage).eraseDups

/-- Runs a command line on a file tree. -/
def run (tree : FileTree) (args : List String) : Ending :=
  match parse args with
  | .error .usage => .usage
  | .error .help => .help
  | .error .version => .done { exit := 0, stdout := versionText, tree }
  | .ok invocation =>
    let (exit, console) :=
      invocation.command.run.run { tree, threshold := threshold invocation.verbosity }
    let exit := match exit with
      | .ok code => code
      | .error code => code
    .done { exit, stdout := console.stdout, stderr := console.stderr, tree := console.tree }

end TypeGuard.Cli
