import TypeGuard.Text.Quoted

/-!
# Reading UTF-8

Bytes are decoded as UTF-8, and the first ill-formed sequence is the error: the range of its bytes
and what is wrong with it. Text files may end their lines in three ways, which reading makes one.
-/

namespace TypeGuard.Utf8

/-- What is wrong with a sequence of bytes. -/
inductive Flaw where
  | start
  | continuation
  | ending
  deriving DecidableEq, Repr

def Flaw.reason : Flaw → String
  | .start => "invalid start byte"
  | .continuation => "invalid continuation byte"
  | .ending => "unexpected end of data"

/-- The first ill-formed sequence: its first byte, where it stands and how many bytes it has. -/
structure DecodeError where
  byte : Nat
  position : Nat
  count : Nat
  flaw : Flaw
  deriving DecidableEq, Repr

def DecodeError.message (e : DecodeError) : String :=
  let place :=
    if e.count = 1 then s!"byte 0x{String.ofList (Text.hex 2 e.byte)} in position {e.position}"
    else s!"bytes in position {e.position}-{e.position + e.count - 1}"
  "'utf-8' codec can't decode " ++ place ++ ": " ++ e.flaw.reason

/-- The number of continuation bytes after a first byte, and the range of the first of them. -/
def shape? (b : Nat) : Option (Nat × Nat × Nat) :=
  if 0xc2 ≤ b ∧ b ≤ 0xdf then some (1, 0x80, 0xbf)
  else if b = 0xe0 then some (2, 0xa0, 0xbf)
  else if b = 0xed then some (2, 0x80, 0x9f)
  else if 0xe1 ≤ b ∧ b ≤ 0xef then some (2, 0x80, 0xbf)
  else if b = 0xf0 then some (3, 0x90, 0xbf)
  else if b = 0xf4 then some (3, 0x80, 0x8f)
  else if 0xf1 ≤ b ∧ b ≤ 0xf3 then some (3, 0x80, 0xbf)
  else none

/-- A sequence that is being read: its first byte and position, the bytes read and still missing, the
value so far, and the range that the next byte must lie in. -/
structure Partial where
  byte : Nat
  position : Nat
  read : Nat
  missing : Nat
  value : Nat
  low : Nat
  high : Nat

/-- The bits of a first byte that belong to the value, by the number of bytes that follow. -/
def leadBits (b following : Nat) : Nat :=
  if following = 1 then b % 0x20 else if following = 2 then b % 0x10 else b % 0x08

def decodeFrom (position : Nat) : Option Partial → List UInt8 → Except DecodeError (List Char)
  | none, [] => .ok []
  | some p, [] => .error ⟨p.byte, p.position, p.read, .ending⟩
  | none, b :: bs =>
    let n := b.toNat
    if n < 0x80 then do return Char.ofNat n :: (← decodeFrom (position + 1) none bs)
    else
      match shape? n with
      | none => .error ⟨n, position, 1, .start⟩
      | some (following, low, high) =>
        let p : Partial := ⟨n, position, 1, following, leadBits n following, low, high⟩
        decodeFrom (position + 1) (some p) bs
  | some p, b :: bs =>
    let n := b.toNat
    if p.low ≤ n ∧ n ≤ p.high then
      let value := p.value * 0x40 + n % 0x40
      if p.missing = 1 then do return Char.ofNat value :: (← decodeFrom (position + 1) none bs)
      else
        let p := { p with read := p.read + 1, missing := p.missing - 1, value, low := 0x80, high := 0xbf }
        decodeFrom (position + 1) (some p) bs
    else .error ⟨p.byte, p.position, p.read, .continuation⟩

/-- Decodes a sequence of bytes. -/
def decode (bytes : List UInt8) : Except DecodeError (List Char) := decodeFrom 0 none bytes

/-- The text with each line end written as a line feed. -/
def unifyLines : List Char → List Char
  | '\r' :: '\n' :: cs => '\n' :: unifyLines cs
  | '\r' :: cs => '\n' :: unifyLines cs
  | c :: cs => c :: unifyLines cs
  | [] => []

/-- The text of a file. -/
def readText (bytes : List UInt8) : Except DecodeError String := do
  return .ofList (unifyLines (← decode bytes))

end TypeGuard.Utf8
