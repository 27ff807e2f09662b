import TypeGuard.Number.Shortest

/-!
# Numbers of the source language

A numeral stands for an integer of any size or for a binary floating-point value, and is written
back in the same way wherever a number is shown.
-/

namespace TypeGuard

inductive Number where
  | int (value : Int)
  | float (value : Binary64)
  deriving DecidableEq, Repr

/-- Decimals are positional from `1e-4` to below `1e16`; an exponent has at least two digits. -/
def Number.style : DecimalStyle := ⟨-4, 16, 2⟩

def Binary64.render : Binary64 → String
  | .nan => "nan"
  | .infinite negative => if negative then "-inf" else "inf"
  | .finite negative mantissa exponent =>
    (if negative then "-" else "") ++
      if mantissa = 0 then "0.0"
      else .ofList ((shortest mantissa exponent).render Number.style)

def Number.render : Number → String
  | .int value => toString value
  | .float value => value.render

end TypeGuard
