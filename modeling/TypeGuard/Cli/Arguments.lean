import TypeGuard.Text.Digit

/-!
# Command line arguments

Options may be written in full or by a prefix that fits no other, with their value behind an equals
sign or as the next argument; options of one letter may be run together and have their value
attached. After a double dash nothing is an option.
-/

namespace TypeGuard.Cli

/-- Why there is no command to run. -/
inductive Stop where
  | usage
  | help
  | version
  deriving DecidableEq, Repr

/-- An option: its names, and whether a value follows. -/
structure Flag (κ : Type) where
  names : List String
  key : κ
  takesValue : Bool := false

/-- What an argument is taken for. -/
inductive Role (κ : Type) where
  | positional
  | separator
  /-- An option, if it is known, under a name and with the text attached to it. -/
  | option (flag : Option (Flag κ)) (name : String) (attached : Option String)

section
variable {κ : Type} (flags : List (Flag κ))

def findFlag? (name : String) : Option (Flag κ) := flags.find? (·.names.contains name)

/-- All options under all their names. -/
def namedFlags : List (String × Flag κ) := flags.flatMap fun flag => flag.names.map (·, flag)

/-- The text before and after the first equals sign. -/
def splitEquals (s : String) : String × Option String :=
  match s.toList.span (· != '=') with
  | (_, []) => (s, none)
  | (front, _ :: back) => (.ofList front, some (.ofList back))

/-- The options that an abbreviated argument may stand for. -/
def abbreviations (arg : String) : List (Flag κ × String × Option String) :=
  if "--".toList.isPrefixOf arg.toList then
    let (stem, attached) := splitEquals arg
    (namedFlags flags).filterMap fun (name, flag) =>
      if stem.toList.isPrefixOf name.toList then some (flag, name, attached) else none
  else
    let short := String.ofList (arg.toList.take 2)
    (namedFlags flags).filterMap fun (name, flag) =>
      if name = short then some (flag, name, some (.ofList (arg.toList.drop 2)))
      else if arg.toList.isPrefixOf name.toList then some (flag, name, none)
      else none

/-- A minus sign and a number. One line feed after the number goes unnoticed. -/
def isNegativeNumber (cs : List Char) : Bool :=
  let isDigit (c : Char) : Bool := (Text.digitValue? c).isSome
  match if cs.getLast? = some '\n' then cs.dropLast else cs with
  | '-' :: body =>
    match body.span isDigit with
    | (whole, []) => !whole.isEmpty
    | (_, '.' :: fraction) => !fraction.isEmpty && fraction.all isDigit
    | _ => false
  | _ => false

/-- What an argument in front of any double dash is taken for. -/
def role (arg : String) : Except Stop (Role κ) :=
  if arg.toList.head? ≠ some '-' then .ok .positional
  else if (findFlag? flags arg).isSome then .ok (.option (findFlag? flags arg) arg none)
  else if arg = "-" then .ok .positional
  else
    let (name, attached) := splitEquals arg
    if attached.isSome && (findFlag? flags name).isSome then
      .ok (.option (findFlag? flags name) name attached)
    else
      match abbreviations flags arg with
      | [(flag, name, attached)] => .ok (.option (some flag) name attached)
      | _ :: _ :: _ => .error .usage
      | [] =>
        if isNegativeNumber arg.toList || arg.toList.contains ' ' then .ok .positional
        else .ok (.option none arg none)

/-- What all arguments are taken for. -/
def roles : List String → Except Stop (List (String × Role κ))
  | [] => .ok []
  | arg :: args =>
    if arg = "--" then .ok ((arg, .separator) :: args.map (·, .positional))
    else do
      let first ← role flags arg
      return (arg, first) :: (← roles args)

/-- What an option settles: its keys in order, the last one perhaps with a value, and the number of
arguments it takes up. -/
structure Taken (κ : Type) where
  settings : List (κ × Option String)
  count : Nat := 1

/-- An option that nothing is attached to. -/
def bareOption (flag : Flag κ) (rest : List (String × Role κ)) : Except Stop (Taken κ) :=
  if flag.takesValue then
    match rest with
    | (next, .positional) :: _ => .ok { settings := [(flag.key, some next)], count := 2 }
    | _ => .error .usage
  else .ok { settings := [(flag.key, none)] }

/-- An option of one letter with a text attached to it. The text is its value if it takes one, and
otherwise further letters, all of which must be known. -/
def letters (rest : List (String × Role κ)) (flag : Flag κ) : List Char → Except Stop (Taken κ)
  | [] => bareOption flag rest
  | c :: cs =>
    if flag.takesValue then .ok { settings := [(flag.key, some (.ofList (c :: cs)))] }
    else
      match findFlag? flags (.ofList ['-', c]) with
      | none => .error .usage
      | some next => do
        let taken ← letters rest next cs
        return { taken with settings := (flag.key, none) :: taken.settings }

/-- What an option settles under the name it was found by. -/
def option (flag : Flag κ) (name : String) (attached : Option String)
    (rest : List (String × Role κ)) : Except Stop (Taken κ) :=
  match attached with
  | none => bareOption flag rest
  | some text =>
    if flag.takesValue then .ok { settings := [(flag.key, some text)] }
    else if "--".toList.isPrefixOf name.toList || text.isEmpty then .error .usage
    else letters flags rest flag text.toList

end

/-- How many positional arguments there are. -/
inductive Arity where
  | one
  | several
  deriving DecidableEq, Repr

/-- The number of arguments that the positionals take up at the front, zero if they do not fit. -/
def Arity.taken {κ : Type} (arity : Arity) (args : List (String × Role κ)) : Nat :=
  let isSeparator : String × Role κ → Bool := fun
    | (_, .separator) => true
    | _ => false
  let isPlain : String × Role κ → Bool := fun
    | (_, .option ..) => false
    | _ => true
  let separators := (args.takeWhile isSeparator).length
  match args.drop separators with
  | (_, .positional) :: rest =>
    let more := match arity with
      | .one => (rest.takeWhile isSeparator).length
      | .several => (rest.takeWhile isPlain).length
    separators + 1 + more
  | _ => 0

/-- The arguments of a subcommand. -/
structure Parsed (κ : Type) where
  positionals : List String := []
  options : List (κ × Option String) := []

/-- The positional values without the first double dash. -/
def values {κ : Type} (args : List (String × Role κ)) : List String :=
  (args.map (·.1)).erase "--"

/-- Takes arguments from left to right. `stop` says which keys end everything. The fuel bounds the
number of arguments. -/
def collect {κ : Type} (flags : List (Flag κ)) (arity : Arity) (stop : κ → Option Stop)
    (check : κ × Option String → Bool) :
    Nat → Parsed κ → List (String × Role κ) → Except Stop (Parsed κ)
  | 0, _, _ => .error .usage
  | _ + 1, parsed, [] => if parsed.positionals.isEmpty then .error .usage else .ok parsed
  | fuel + 1, parsed, (arg, argRole) :: rest =>
    match argRole with
    | .option none _ _ => do
      -- An unknown option is refused at the end, after the options behind it had their say.
      let _ ← collect flags arity stop check fuel parsed rest
      throw .usage
    | .option (some flag) name attached => do
      let taken ← option flags flag name attached rest
      if !taken.settings.all check then throw .usage
      match taken.settings.findSome? fun setting => stop setting.1 with
      | some reason => throw reason
      | none =>
        let options := parsed.options ++ taken.settings
        collect flags arity stop check fuel { parsed with options } (rest.drop (taken.count - 1))
    | _ =>
      let args := (arg, argRole) :: rest
      let count := if parsed.positionals.isEmpty then arity.taken args else 0
      if count = 0 then do
        let _ ← collect flags arity stop check fuel parsed rest
        throw .usage
      else
        collect flags arity stop check fuel { parsed with positionals := values (args.take count) }
          (args.drop count)

/-- The arguments of a run on source files. -/
structure CompileArgs where
  files : List String
  skipHelpers : Bool := false
  skipAsserts : Bool := false
  options : Option String := none
  json : Bool := false
  output : Option String := none
  deriving DecidableEq, Repr

inductive Command where
  | compile (args : CompileArgs)
  | check (args : CompileArgs)
  | parse (file : String)
  deriving DecidableEq, Repr

structure Invocation where
  verbosity : Nat
  command : Command
  deriving DecidableEq, Repr

/-- The options of the program and of its commands. -/
inductive Key where
  | help
  | version
  | verbose
  | skipHelpers
  | skipAsserts
  | options
  | format
  | output
  deriving DecidableEq, Repr

def helpFlag : Flag Key := ⟨["-h", "--help"], .help, false⟩

def programFlags : List (Flag Key) :=
  [helpFlag, ⟨["--version"], .version, false⟩, ⟨["-v", "--verbose"], .verbose, false⟩]

def checkFlags : List (Flag Key) :=
  [helpFlag, ⟨["--skip-helpers"], .skipHelpers, false⟩, ⟨["--skip-asserts"], .skipAsserts, false⟩,
   ⟨["--options"], .options, true⟩, ⟨["--format"], .format, true⟩]

def compileFlags : List (Flag Key) := checkFlags ++ [⟨["-o", "--output"], .output, true⟩]

def Key.stop : Key → Option Stop
  | .help => some .help
  | .version => some .version
  | _ => none

/-- The value is one that the option admits. -/
def Key.admits : Key × Option String → Bool
  | (.format, value) => value == some "text" || value == some "json"
  | _ => true

/-- Takes the arguments of a subcommand. -/
def subcommand (flags : List (Flag Key)) (arity : Arity) (args : List String) :
    Except Stop (Parsed Key) := do
  collect flags arity Key.stop Key.admits (args.length + 1) {} (← roles flags args)

def Parsed.has (p : Parsed Key) (key : Key) : Bool := p.options.any (·.1 == key)

/-- The last value that an option was given. -/
def Parsed.value? (p : Parsed Key) (key : Key) : Option String :=
  (p.options.reverse.find? (·.1 == key)).bind (·.2)

def CompileArgs.ofParsed (p : Parsed Key) : CompileArgs where
  files := p.positionals
  skipHelpers := p.has .skipHelpers
  skipAsserts := p.has .skipAsserts
  options := p.value? .options
  json := p.value? .format == some "json"
  output := p.value? .output

/-- The command that a name and its arguments give. -/
def command (name : String) (args : List String) : Except Stop Command := do
  if name = "compile" then
    return .compile (.ofParsed (← subcommand compileFlags .several args))
  else if name = "check" then
    return .check (.ofParsed (← subcommand checkFlags .several args))
  else if name = "parse" then
    match (← subcommand [helpFlag] .one args).positionals with
    | [file] => return .parse file
    | _ => throw .usage
  else throw .usage

/-- Takes the options in front of the command, then the command. The fuel bounds the number of
arguments. -/
def invocation : Nat → Nat → List (String × Role Key) → Except Stop Invocation
  | 0, _, _ | _, _, [] => .error .usage
  | fuel + 1, verbosity, (arg, argRole) :: rest =>
    match argRole with
    | .positional => do return ⟨verbosity, ← command arg (rest.map (·.1))⟩
    | .separator => .error .usage
    | .option none _ _ => do
      let _ ← invocation fuel verbosity rest
      throw .usage
    | .option (some flag) name attached => do
      let taken ← option programFlags flag name attached rest
      match taken.settings.findSome? fun setting => setting.1.stop with
      | some reason => throw reason
      | none =>
        invocation fuel (verbosity + taken.settings.length) (rest.drop (taken.count - 1))

/-- Reads a command line. -/
def parse (args : List String) : Except Stop Invocation := do
  invocation (args.length + 1) 0 (← roles programFlags args)

end TypeGuard.Cli
