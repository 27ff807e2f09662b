import TypeGuard.Json.Basic
import TypeGuard.Number.Numeral

/-!
# Reading JSON

A text is read from left to right, and the first place where it cannot go on is the error. Beside
plain JSON, the names of the infinities and of the value that is not a number are numbers. Of members
with the same key the last one counts, in the place of the first.
-/

namespace TypeGuard

/-- Why a text is no JSON value. -/
inductive JsonError where
  /-- The text cannot go on at a place. -/
  | misplaced (reason : String) (line column offset : Nat)
  /-- An integer is longer than integers may be. -/
  | tooManyDigits (count : Nat)
  deriving DecidableEq, Repr

def JsonError.message : JsonError → String
  | .misplaced reason line column offset =>
    s!"{reason}: line {line} column {column} (char {offset})"
  | .tooManyDigits count =>
    "Exceeds the limit (" ++ toString Numeral.maxDigits
      ++ s!" digits) for integer string conversion: value has {count} digits; "
      ++ "use sys.set_int_max_str_digits() to increase the limit"

namespace Json

/-- The rest of a text and its offset. -/
structure Cursor where
  rest : List Char
  offset : Nat

/-- Why reading stopped, and at which offset. -/
inductive Failure where
  | misplaced (reason : String) (offset : Nat)
  | tooManyDigits (count : Nat)

namespace Cursor

def advance (c : Cursor) (n : Nat) : Cursor := ⟨c.rest.drop n, c.offset + n⟩

def isSpace (c : Char) : Bool := c == ' ' || c == '\t' || c == '\n' || c == '\r'

def skipSpace (c : Cursor) : Cursor := c.advance (c.rest.takeWhile isSpace).length

/-- The text that starts here begins with `word`. -/
def startsWith (c : Cursor) (word : String) : Bool := word.toList.isPrefixOf c.rest

end Cursor

/-- The value of four hexadecimal digits. -/
def hexValue? (cs : List Char) : Option Nat :=
  if cs.length < 4 then none
  else
    (cs.take 4).foldlM
      (fun n c =>
        if '0' ≤ c ∧ c ≤ '9' then some (16 * n + (c.toNat - '0'.toNat))
        else if 'a' ≤ c ∧ c ≤ 'f' then some (16 * n + (c.toNat - 'a'.toNat + 10))
        else if 'A' ≤ c ∧ c ≤ 'F' then some (16 * n + (c.toNat - 'A'.toNat + 10))
        else none) 0

def simpleEscape? : Char → Option Char
  | '"' => some '"'
  | '\\' => some '\\'
  | '/' => some '/'
  | 'b' => some '\x08'
  | 'f' => some '\x0c'
  | 'n' => some '\n'
  | 'r' => some '\r'
  | 't' => some '\t'
  | _ => none

/-- Reads the rest of a string whose opening quote stands at `start`; `read` is in reverse. -/
def stringFrom (start : Nat) : Nat → List Char → Cursor → Except Failure (String × Cursor)
  | 0, _, _ => .error (.misplaced "Unterminated string starting at" start)
  | fuel + 1, read, c =>
    match c.rest with
    | [] => .error (.misplaced "Unterminated string starting at" start)
    | '"' :: _ => .ok (.ofList read.reverse, c.advance 1)
    | ['\\'] => .error (.misplaced "Unterminated string starting at" start)
    | '\\' :: 'u' :: digits =>
      match hexValue? digits with
      | none => .error (.misplaced "Invalid \\uXXXX escape" (c.offset + 1))
      | some high =>
        let low? := match digits.drop 4 with
          | '\\' :: 'u' :: more => hexValue? more
          | _ => none
        match low? with
        | some low =>
          if 0xd800 ≤ high ∧ high < 0xdc00 ∧ 0xdc00 ≤ low ∧ low < 0xe000 then
            let n := 0x10000 + (high - 0xd800) * 0x400 + (low - 0xdc00)
            stringFrom start fuel (Char.ofNat n :: read) (c.advance 12)
          else stringFrom start fuel (Char.ofNat high :: read) (c.advance 6)
        | none => stringFrom start fuel (Char.ofNat high :: read) (c.advance 6)
    | '\\' :: e :: _ =>
      match simpleEscape? e with
      | some d => stringFrom start fuel (d :: read) (c.advance 2)
      | none => .error (.misplaced "Invalid \\escape" c.offset)
    | d :: _ =>
      if d.toNat < 0x20 then .error (.misplaced "Invalid control character at" c.offset)
      else stringFrom start fuel (d :: read) (c.advance 1)

/-- Reads a string at its opening quote. -/
def readString (c : Cursor) : Except Failure (String × Cursor) :=
  stringFrom c.offset (c.rest.length + 1) [] (c.advance 1)

/-- The length of the numeral that the text begins with, and whether it is an integer. -/
def numeralLength? (cs : List Char) : Option (Nat × Bool) :=
  let minus := if cs.head? = some '-' then 1 else 0
  let digits (cs : List Char) := (cs.takeWhile Char.isDigit).length
  let body := cs.drop minus
  let whole := if body.head? = some '0' then 1 else digits body
  if whole = 0 then none
  else
    let afterWhole := body.drop whole
    let fraction := match afterWhole with
      | '.' :: more => if digits more = 0 then 0 else digits more + 1
      | _ => 0
    let power := match afterWhole.drop fraction with
      | e :: more =>
        if e = 'e' ∨ e = 'E' then
          let sign := if more.head? = some '+' ∨ more.head? = some '-' then 1 else 0
          let n := digits (more.drop sign)
          if n = 0 then 0 else n + sign + 1
        else 0
      | [] => 0
    some (minus + whole + fraction + power, fraction + power = 0)

/-- Reads a number. -/
def readNumber (c : Cursor) : Except Failure (Json × Cursor) :=
  match numeralLength? c.rest with
  | none => .error (.misplaced "Expecting value" c.offset)
  | some (length, isInt) =>
    let numeral := c.rest.take length
    if isInt then
      let (negative, digits) := Numeral.splitSign numeral
      let n : Int := Numeral.ofDigits (digits.map fun d => d.toNat - '0'.toNat)
      if digits.length ≤ Numeral.maxDigits then
        .ok (.number (.int (if negative then -n else n)), c.advance length)
      else .error (.tooManyDigits digits.length)
    else .ok (.number (.float ((Numeral.float? numeral).getD .nan)), c.advance length)

/-- The members with one more, which replaces an earlier one of the same key. -/
def insertMember (members : List (String × Json)) (key : String) (value : Json) :
    List (String × Json) :=
  if members.any (·.1 == key) then
    members.map fun m => if m.1 == key then (key, value) else m
  else members ++ [(key, value)]

mutual
/-- Reads a value. The fuel bounds the number of steps. -/
def readValue : Nat → Cursor → Except Failure (Json × Cursor)
  | 0, c => .error (.misplaced "Expecting value" c.offset)
  | fuel + 1, c =>
    match c.rest with
    | '"' :: _ => do
      let (s, c) ← readString c
      return (.string s, c)
    | '\x7b' :: _ =>
      let c := (c.advance 1).skipSpace
      if c.rest.head? = some '\x7d' then .ok (.object [], c.advance 1)
      else readMembers fuel [] c
    | '[' :: _ =>
      let c := (c.advance 1).skipSpace
      if c.rest.head? = some ']' then .ok (.array [], c.advance 1)
      else readItems fuel [] c
    | _ =>
      if c.startsWith "null" then .ok (.null, c.advance 4)
      else if c.startsWith "true" then .ok (.bool true, c.advance 4)
      else if c.startsWith "false" then .ok (.bool false, c.advance 5)
      else if c.startsWith "NaN" then .ok (.number (.float .nan), c.advance 3)
      else if c.startsWith "Infinity" then .ok (.number (.float (.infinite false)), c.advance 8)
      else if c.startsWith "-Infinity" then .ok (.number (.float (.infinite true)), c.advance 9)
      else readNumber c

/-- Reads the members of an object from the first key on. -/
def readMembers : Nat → List (String × Json) → Cursor → Except Failure (Json × Cursor)
  | 0, _, c => .error (.misplaced "Expecting value" c.offset)
  | fuel + 1, read, c =>
    if c.rest.head? = some '"' then do
      let (key, c) ← readString c
      let c := c.skipSpace
      if c.rest.head? = some ':' then
        let (v, c) ← readValue fuel (c.advance 1).skipSpace
        let read := insertMember read key v
        let c := c.skipSpace
        if c.rest.head? = some '\x7d' then return (.object read, c.advance 1)
        else if c.rest.head? = some ',' then readMembers fuel read (c.advance 1).skipSpace
        else throw (.misplaced "Expecting ',' delimiter" c.offset)
      else throw (.misplaced "Expecting ':' delimiter" c.offset)
    else .error (.misplaced "Expecting property name enclosed in double quotes" c.offset)

/-- Reads the items of an array from the first one on; `read` is in reverse. -/
def readItems : Nat → List Json → Cursor → Except Failure (Json × Cursor)
  | 0, _, c => .error (.misplaced "Expecting value" c.offset)
  | fuel + 1, read, c => do
    let (v, c) ← readValue fuel c
    let c := c.skipSpace
    if c.rest.head? = some ']' then return (.array (v :: read).reverse, c.advance 1)
    else if c.rest.head? = some ',' then readItems fuel (v :: read) (c.advance 1).skipSpace
    else throw (.misplaced "Expecting ',' delimiter" c.offset)
end

/-- The failure with the line and column of its offset in the text. -/
def errorIn (cs : List Char) : Failure → JsonError
  | .misplaced reason offset =>
    let before := cs.take offset
    .misplaced reason (before.count '\n' + 1)
      ((before.reverse.takeWhile (· != '\n')).length + 1) offset
  | .tooManyDigits count => .tooManyDigits count

/-- Reads the one value of a text. -/
def parse (s : String) : Except JsonError Json :=
  let cs := s.toList
  let result : Except Failure Json := do
    if cs.head? = some '\ufeff' then
      throw (.misplaced "Unexpected UTF-8 BOM (decode using utf-8-sig)" 0)
    let start := Cursor.skipSpace ⟨cs, 0⟩
    let (v, c) ← readValue (2 * cs.length + 2) start
    let c := c.skipSpace
    if c.rest.isEmpty then return v else throw (.misplaced "Extra data" c.offset)
  result.mapError (errorIn cs)

end Json

end TypeGuard
