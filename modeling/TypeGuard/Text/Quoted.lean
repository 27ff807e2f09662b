import TypeGuard.Text.Printable

/-!
# Quoted text in messages

Messages show a text between quotes. The quote is the apostrophe, unless the text has an apostrophe
and no double quote. The backslash, the quote itself and whatever is not printable are escaped, the
latter by the shortest of three hexadecimal forms that holds the code point.
-/

namespace TypeGuard.Text

/-- The lower-case hexadecimal digits of `n`, padded with zeros to at least `width` places. -/
def hex (width n : Nat) : List Char :=
  let digits := Nat.toDigits 16 n
  List.replicate (width - digits.length) '0' ++ digits

/-- The quote chosen for a text. -/
def quoteFor (cs : List Char) : Char :=
  if cs.contains '\x27' && !cs.contains '"' then '"' else '\x27'

/-- One character as it stands between the given quotes. -/
def showChar (quote c : Char) : List Char :=
  if c = quote ∨ c = '\\' then ['\\', c]
  else if c = '\n' then ['\\', 'n']
  else if c = '\r' then ['\\', 'r']
  else if c = '\t' then ['\\', 't']
  else if isPrintable c then [c]
  else if c.toNat < 0x100 then '\\' :: 'x' :: hex 2 c.toNat
  else if c.toNat < 0x10000 then '\\' :: 'u' :: hex 4 c.toNat
  else '\\' :: 'U' :: hex 8 c.toNat

/-- The text between quotes. -/
def quoted (s : String) : String :=
  let quote := quoteFor s.toList
  .ofList (quote :: s.toList.flatMap (showChar quote) ++ [quote])

end TypeGuard.Text
