import TypeGuard.Script.Printer

/-!
# The assertion helper

The function that the checks call. It calls the validator of a type with a path that names the
checked value, and tests instances of structs and of plain constructors.
-/

namespace TypeGuard.Script

/-- The text of the assertion helper, for a library whose printed reference is `t`. -/
def helperText (name t : String) : String :=
  let brace (header : String) (body : Layout → Layout) : Layout → Layout :=
    Layout.wrap (header ++ " " ++ openBrace) closeBrace body
  let body (out : Layout) : Layout :=
    let out := brace "if (!type)" (Layout.emit ("type = " ++ t ++ ".Any;")) out
    let out := brace ("if (" ++ t ++ ".isType(type))")
      (fun out =>
        brace "if (type.meta.kind !== 'struct')" (Layout.emit "return;")
          (out.emit ("type(x, [name + ': ' + " ++ t ++ ".getTypeName(type)]);"))) out
    brace "if (!(x instanceof type))"
      (Layout.emit
        (t ++ ".fail('Invalid value ' + " ++ t ++ ".stringify(x) + ' supplied to ' + name"
          ++ " + ' (expected a ' + " ++ t ++ ".getTypeName(type) + ')');")) out
  (brace ("function " ++ name ++ "(x, type, name)") body {}).text

/-- The assertion helper for a reference to the library. -/
def assertHelper (name : String) (library : Expr) : Except PrintError String := do
  return helperText name (← library.print)

end TypeGuard.Script
