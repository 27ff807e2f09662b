import TypeGuard.Number.Basic
import TypeGuard.Text.Blank
import TypeGuard.Text.Digit

/-!
# Numerals

Which texts are numbers, and what they stand for. An integer is a run of decimal digits of any
script, with single low lines between digits, after an optional sign. A floating-point numeral has a
point or an exponent, or is the name of an infinity or of the value that is not a number. Blanks at
the ends do not count.
-/

namespace TypeGuard.Numeral

/-- The most digits an integer numeral may have; a longer one is read as a floating-point numeral. -/
def maxDigits : Nat := 4300

/-- Blanks that may surround a numeral. -/
def isMargin (c : Char) : Bool :=
  Text.isSpace c || (0x7f ≤ c.toNat && Text.isBlank c)

/-- The digits of a run in which single low lines may stand between digits. -/
def digits? : List Char → Option (List Nat)
  | [] => none
  | [c] => (Text.digitValue? c).map ([·])
  | c :: '_' :: rest => do return (← Text.digitValue? c) :: (← digits? rest)
  | c :: rest => do return (← Text.digitValue? c) :: (← digits? rest)

/-- The number whose decimal digits are the given ones. -/
def ofDigits (digits : List Nat) : Nat := digits.foldl (fun n d => 10 * n + d) 0

/-- The sign in front of a numeral, if there is one, and the rest. -/
def splitSign : List Char → Bool × List Char
  | '-' :: rest => (true, rest)
  | '+' :: rest => (false, rest)
  | rest => (false, rest)

/-- Reads an integer numeral. -/
def int? (cs : List Char) : Option Int := do
  let (negative, body) := splitSign (Text.strip isMargin cs)
  let digits ← digits? body
  guard (digits.length ≤ maxDigits)
  return if negative then -(ofDigits digits) else ofDigits digits

/-- Splits at the first character that satisfies `p`, which goes to neither part. -/
def splitAt? (p : Char → Bool) (cs : List Char) : List Char × Option (List Char) :=
  match cs.span (!p ·) with
  | (front, []) => (front, none)
  | (front, _ :: back) => (front, some back)

/-- The digits before and after the point, at least one in all. -/
def mantissa? (cs : List Char) : Option (List Nat × List Nat) :=
  match splitAt? (· == '.') cs with
  | (whole, none) => do return (← digits? whole, [])
  | (whole, some []) => do return (← digits? whole, [])
  | ([], some fraction) => do return ([], ← digits? fraction)
  | (whole, some fraction) => do return (← digits? whole, ← digits? fraction)

/-- The power of ten after the exponent mark. -/
def exponent? : Option (List Char) → Option Int
  | none => some 0
  | some cs => do
    let (negative, body) := splitSign cs
    let digits ← digits? body
    return if negative then -(ofDigits digits) else ofDigits digits

/-- Reads a floating-point numeral. -/
def float? (cs : List Char) : Option Binary64 := do
  let (negative, body) := splitSign (Text.strip isMargin cs)
  let name := body.map Char.toLower
  if name = "inf".toList ∨ name = "infinity".toList then return .infinite negative
  else if name = "nan".toList then return .nan
  else
    let (front, back) := splitAt? (fun c => c == 'e' || c == 'E') body
    let (whole, fraction) ← mantissa? front
    let power ← exponent? back
    return .ofDecimal negative (ofDigits (whole ++ fraction)) (power - fraction.length)

/-- Reads a numeral, an integer if it can be one. -/
def read? (cs : List Char) : Option Number :=
  match int? cs with
  | some value => some (.int value)
  | none => (float? cs).map .float

end TypeGuard.Numeral
