import TypeGuard.Number.Binary64

/-!
# Shortest decimals

The decimal shown for a floating-point value has the fewest digits that read back as that value, and
is the nearest of those. How the digits are laid out is one record, `DecimalStyle`.
-/

namespace TypeGuard

/-- The digits of a positive decimal `d.ddd * 10 ^ exponent`, without trailing zeros. -/
structure Decimal where
  digits : List Char
  exponent : Int
  deriving DecidableEq, Repr

/-- How a decimal is written: which exponents are written positionally, and the least number of
digits of a written exponent. -/
structure DecimalStyle where
  positionalFrom : Int
  positionalBelow : Int
  exponentDigits : Nat

namespace Binary64

/-- The exponent of the leading decimal digit of `num / den`. -/
def leadingExponent (num den : Nat) : Int :=
  if den ≤ num then (Nat.toDigits 10 (num / den)).length - 1
  else
    let j := (Nat.toDigits 10 (den / num)).length - 1
    if num * Nat.pow 10 j = den then -j else -(j + 1)

/-- The two neighbours of `num / den` among the multiples of `10 ^ power`, the nearer one first and
of two equally near ones the even one. -/
def neighbours (num den : Nat) (power : Int) : List Nat :=
  let (n, d) := scaled 10 num den power
  let low := n / d
  let nearest := roundDiv n d
  [nearest, if nearest = low then low + 1 else low]

/-- The shortest decimal that reads back as `mantissa * 2 ^ power`: the first grid of one to
seventeen digits with a neighbour that does. -/
def shortest (mantissa : Nat) (power : Int) : Decimal :=
  let (num, den) := ratio mantissa power
  let lead := leadingExponent num den
  let hit := (List.range 17).findSome? fun (n : Nat) =>
    let grid := lead - n
    ((neighbours num den grid).find? fun k =>
      ofDecimal false k grid == .finite false mantissa power).map (·, grid)
  let (k, grid) := hit.getD (0, 0)
  let digits := Nat.toDigits 10 k
  { digits := (digits.reverse.dropWhile (· == '0')).reverse
    exponent := grid + (digits.length - 1 : Nat) }

end Binary64

/-- The decimal in the given style. -/
def Decimal.render (style : DecimalStyle) (x : Decimal) : List Char :=
  let zeros (n : Int) := List.replicate n.toNat '0'
  if style.positionalFrom ≤ x.exponent ∧ x.exponent < style.positionalBelow then
    if x.exponent < 0 then '0' :: '.' :: zeros (-x.exponent - 1) ++ x.digits
    else
      let whole := (x.exponent + 1).toNat
      let fraction := x.digits.drop whole
      x.digits.take whole ++ zeros (whole - x.digits.length)
        ++ '.' :: (if fraction.isEmpty then ['0'] else fraction)
  else
    let fraction := x.digits.drop 1
    let power := Nat.toDigits 10 x.exponent.natAbs
    x.digits.take 1 ++ (if fraction.isEmpty then [] else '.' :: fraction)
      ++ 'e' :: (if x.exponent < 0 then '-' else '+')
      :: (zeros (style.exponentDigits - power.length) ++ power)

end TypeGuard
