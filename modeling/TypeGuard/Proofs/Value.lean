import TypeGuard.Number.Basic

/-!
# Values at run time

The values that the checks of a lowered program are about. Objects are maps from keys to values, and
functions are opaque. What properties a value has that is no object is left to the host.
-/

namespace TypeGuard

inductive Value where
  | undefined
  | null
  | boolean (value : Bool)
  | number (value : Binary64)
  | string (value : String)
  | array (elements : List Value)
  | object (properties : String → Option Value)
  | function (identity : Nat)

namespace Value

/-- The value is undefined or null. -/
def isNil : Value → Bool
  | .undefined => true
  | .null => true
  | _ => false

/-- The value of a property, which is undefined where it is absent. The properties of other values
than objects are up to the host. -/
def get (host : Value → String → Value) : Value → String → Value
  | .object properties, key => (properties key).getD .undefined
  | v, key => host v key

end Value

/-- The values are equal as numbers; there is one zero, and nothing equals what is not a number. -/
def Binary64.equals : Binary64 → Binary64 → Bool
  | .finite negative mantissa exponent, .finite negative' mantissa' exponent' =>
    if mantissa = 0 then mantissa' = 0
    else
      let (num, den) := ratio mantissa exponent
      let (num', den') := ratio mantissa' exponent'
      negative = negative' ∧ num * den' = num' * den
  | .infinite negative, .infinite negative' => negative = negative'
  | _, _ => false

/-- The floating-point value that a number is written for. -/
def Number.toBinary64 : Number → Binary64
  | .int value => .ofRatio (value < 0) value.natAbs 1
  | .float value => value

end TypeGuard
