/-!
# Binary floating-point numbers

A 64-bit binary floating-point value as data: sign, mantissa and exponent, an infinity, or not a
number. A quotient is rounded to the nearest value, and a tie goes to the even mantissa.
-/

namespace TypeGuard

/-- A binary floating-point value; `finite` stands for `± mantissa * 2 ^ exponent`. -/
inductive Binary64 where
  | finite (negative : Bool) (mantissa : Nat) (exponent : Int)
  | infinite (negative : Bool)
  | nan
  deriving DecidableEq, Repr

namespace Binary64

/-- The exponent of the smallest positive value. -/
def minExponent : Int := -1074

/-- The exponent of the largest finite values. -/
def maxExponent : Int := 971

def zero (negative : Bool) : Binary64 := .finite negative 0 minExponent

/-- The quotient rounded to the nearest natural number, a half to the even one. -/
def roundDiv (num den : Nat) : Nat :=
  let q := num / den
  let r := num % den
  if 2 * r < den then q else if den < 2 * r then q + 1 else q + q % 2

/-- The quotient `num / den` divided by `base ^ power`, again as a quotient. -/
def scaled (base num den : Nat) (power : Int) : Nat × Nat :=
  if 0 ≤ power then (num, den * base.pow power.toNat) else (num * base.pow (-power).toNat, den)

/-- The value nearest to `num / den`. -/
def ofRatio (negative : Bool) (num den : Nat) : Binary64 :=
  if num = 0 then zero negative
  else
    let low : Int := (num.log2 : Int) - den.log2 - 53
    let (n, d) := scaled 2 num den low
    let power := max (if n / d < Nat.pow 2 53 then low else low + 1) minExponent
    let (n, d) := scaled 2 num den power
    let mantissa := roundDiv n d
    let (mantissa, power) :=
      if mantissa = Nat.pow 2 53 then (Nat.pow 2 52, power + 1) else (mantissa, power)
    if maxExponent < power then .infinite negative else .finite negative mantissa power

/-- The value nearest to `digits * 10 ^ power`. Powers that are out of range either way are settled
by the number of digits alone. -/
def ofDecimal (negative : Bool) (digits : Nat) (power : Int) : Binary64 :=
  let magnitude : Int := (Nat.toDigits 10 digits).length + power
  if digits = 0 ∨ magnitude ≤ -324 then zero negative
  else if 309 < magnitude then .infinite negative
  else
    let (num, den) := scaled 10 digits 1 (-power)
    ofRatio negative num den

/-- The magnitude of a finite value as a quotient. -/
def ratio (mantissa : Nat) (power : Int) : Nat × Nat := scaled 2 mantissa 1 (-power)

end Binary64

end TypeGuard
