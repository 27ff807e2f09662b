import TypeGuard.Text.Quoted

/-!
# String literals and property keys

A string literal of the output is written in ASCII: printable characters stand for themselves, and
all others are escaped, those beyond the basic plane as two UTF-16 units. A property key is written
bare if it is an identifier, and as a string literal otherwise.
-/

namespace TypeGuard.Script

/-- The UTF-16 units of a character. -/
def units (c : Char) : List Nat :=
  if c.toNat < 0x10000 then [c.toNat]
  else
    let n := c.toNat - 0x10000
    [0xd800 + n / 0x400, 0xdc00 + n % 0x400]

/-- One character as it stands in a string literal. -/
def escapeChar (c : Char) : List Char :=
  if c = '"' then ['\\', '"']
  else if c = '\\' then ['\\', '\\']
  else if c = '\n' then ['\\', 'n']
  else if c = '\r' then ['\\', 'r']
  else if c = '\t' then ['\\', 't']
  else if c = '\x08' then ['\\', 'b']
  else if c = '\x0c' then ['\\', 'f']
  else if 0x20 ≤ c.toNat ∧ c.toNat ≤ 0x7e then [c]
  else (units c).flatMap fun unit => '\\' :: 'u' :: Text.hex 4 unit

/-- The text as a string literal. -/
def stringLiteral (s : String) : String :=
  .ofList ('"' :: s.toList.flatMap escapeChar ++ ['"'])

def isIdentifierStart (c : Char) : Bool := c.isAlpha || c == '_' || c == '$'

def isIdentifierPart (c : Char) : Bool := isIdentifierStart c || c.isDigit

/-- Whether a key is an identifier. One line feed after the identifier goes unnoticed. -/
def isIdentifierKey (cs : List Char) : Bool :=
  match if cs.getLast? = some '\n' then cs.dropLast else cs with
  | [] => false
  | c :: rest => isIdentifierStart c && rest.all isIdentifierPart

/-- A property key as it is written. -/
def propertyKey (key : String) : String :=
  if isIdentifierKey key.toList then key else stringLiteral key

end TypeGuard.Script
