import TypeGuard.Cli.Run

/-!
# The program

Takes the files that a command line is about from the disk, runs the command line on them, and puts
what it leaves on the streams and on the disk.
-/

namespace TypeGuard.Cli

def usageText : String :=
  "usage: flowcomb [-h] [--version] [-v] <command> ...\n\n"
    ++ "  compile FILE... [-o DIR]  compile source files to JavaScript\n"
    ++ "  check FILE...             report errors and write nothing\n"
    ++ "  parse FILE                list the forms of a source file\n"

/-- What is on the disk at a path. -/
def probe (path : Path) : IO (Option (Path × FileEntry)) := do
  match ← (IO.FS.readBinFile path.render).toBaseIO with
  | .ok bytes => return some (path, .file bytes.toList)
  | .error _ =>
    match ← (IO.FS.realPath path.render).toBaseIO with
    | .ok _ => return some (path, .directory)
    | .error _ => return none

/-- Makes the disk follow the step from one tree to another. -/
def save (before after : FileTree) : IO Unit := do
  for (path, entry) in after.entries do
    if before.lookup path ≠ some entry then
      match entry with
      | .directory => IO.FS.createDirAll path.render
      | .file contents => IO.FS.writeBinFile path.render ⟨contents.toArray⟩

end TypeGuard.Cli

open TypeGuard TypeGuard.Cli in
def main (args : List String) : IO UInt32 := do
  let directory := Path.ofString (← IO.currentDir).toString
  let home := (← IO.getEnv "HOME").map Path.ofString
  let entries ← (touched directory home args).filterMapM probe
  let tree : FileTree := { directory, home, entries }
  match Cli.run tree args with
  | .usage =>
    IO.eprint usageText
    return 2
  | .help =>
    IO.print usageText
    return 0
  | .done result =>
    save tree result.tree
    IO.print result.stdout
    IO.eprint result.stderr
    return result.exit.toUInt32
