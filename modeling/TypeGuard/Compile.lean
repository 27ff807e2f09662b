import TypeGuard.Script.Helper
import TypeGuard.Lowering.Module

/-!
# Compiling files

A source text is parsed, lowered and printed. A file that fails at some stage has one diagnostic
and no output.
-/

namespace TypeGuard

/-- What became of a file. -/
structure Outcome where
  file : String
  result : Except Diagnostic String
  journal : List Event := []

namespace Outcome

def isOk (o : Outcome) : Bool := o.result.isOk

def diagnostic? (o : Outcome) : Option Diagnostic :=
  match o.result with
  | .ok _ => none
  | .error d => some d

end Outcome

/-- The failure of a step in printing, reported where the printer found it. -/
def PrintError.diagnostic (e : PrintError) : Diagnostic := .ofFault e.fault none

/-- Reports a parse error at its location, or else at the file as a whole. -/
def ParseError.diagnostic (file : String) (e : ParseError) : Diagnostic :=
  .ofFault e.fault (some (e.loc?.getD { file }))

/-- Puts the assertion helper in front of lowered statements, if it is wanted. -/
def withHelper (options : Options) (body : List Stmt) : Lowering Diagnostic (List Stmt) := do
  if options.injectHelper then
    let name ← Lowering.helperName
    let library ← Lowering.library
    match Script.assertHelper name library with
    | .ok text => return .raw text :: body
    | .error e => throw e.diagnostic
  else return body

/-- Lowers a program; the journal tells what happened on the way. -/
def Program.lower (options : Options) (program : Program) :
    Except Diagnostic Program × List Event :=
  let step : Lowering Diagnostic (List Stmt) := do
    let body ← ExceptT.tryCatch (Stmt.lowerTop options program.body) fun d => do
      Lowering.note (.aborted program.file d.message)
      throw d
    withHelper options body
  let (result, ctx) := step.run (Context.prepare program {})
  (result.map fun body => { program with body }, ctx.journal)

/-- Lowers and prints a program. -/
def Program.compile (options : Options) (program : Program) :
    Except Diagnostic String × List Event :=
  let (result, journal) := program.lower options
  let code := result.bind fun lowered =>
    lowered.print.mapError PrintError.diagnostic
  (code, journal)

/-- Compiles a source text. -/
def compile (options : Options) (file source : String) : Outcome :=
  match Program.parse file source with
  | .error e =>
    { file
      result := .error (e.diagnostic file)
      journal := [.compiling file, .aborted file e.message] }
  | .ok program =>
    let (result, journal) := program.compile options
    let forms := program.body.length
    let ending := if result.isOk then [.compiled file forms] else []
    { file, result, journal := .compiling file :: .parsed file forms :: journal ++ ending }

end TypeGuard
