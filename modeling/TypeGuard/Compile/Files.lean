import TypeGuard.Compile
import TypeGuard.Files.Tree

/-!
# Compiling the files of a tree

Files are compiled on their own, one after the other, and a file that cannot be read ends the list.
-/

namespace TypeGuard.FileTree

/-- Compiles the file at a path seen from the working directory. -/
def compile (tree : FileTree) (options : Options) (raw : String) : Except FileError Outcome := do
  let path := Path.ofString raw
  return TypeGuard.compile options path.render (← tree.openText path)

/-- Compiles several files. -/
def compileAll (tree : FileTree) (options : Options) (paths : List String) :
    Except FileError (List Outcome) :=
  paths.mapM (tree.compile options)

end TypeGuard.FileTree
