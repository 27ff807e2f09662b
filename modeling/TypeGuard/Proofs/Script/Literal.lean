import TypeGuard.Script.Literal

/-!
# Reading string literals

The characters between the quotes of a literal stand for UTF-16 units, by the short escapes, by the
escapes of four hexadecimal digits, or for themselves; two units may make up one character.
`Literal.read_escaped` says that the literal of a text is read back as the text, whatever follows the
closing quote.
-/

namespace TypeGuard.Script

namespace Literal

/-! ## Units -/

/-- Half of a character beyond the basic plane. -/
def isSurrogate (unit : Nat) : Bool := 0xd800 ≤ unit && unit < 0xe000

/-- The characters that a sequence of UTF-16 units stands for. A high surrogate and a low one behind
it are one character; a surrogate that stands alone is none. -/
def ofUnits : List Nat → Option (List Char)
  | [] => some []
  | [unit] => if isSurrogate unit then none else some [Char.ofNat unit]
  | high :: low :: rest =>
    if isSurrogate high then
      if 0xdc00 ≤ low ∧ low < 0xe000 then do
        return Char.ofNat (0x10000 + (high - 0xd800) * 0x400 + (low - 0xdc00)) :: (← ofUnits rest)
      else none
    else do return Char.ofNat high :: (← ofUnits (low :: rest))

/-- The unit that a short escape stands for. -/
def short? : Char → Option Nat
  | '"' => some 0x22
  | '\\' => some 0x5c
  | 'n' => some 0x0a
  | 'r' => some 0x0d
  | 't' => some 0x09
  | 'b' => some 0x08
  | 'f' => some 0x0c
  | _ => none

/-- The value of a hexadecimal digit. -/
def hexValue? (c : Char) : Option Nat :=
  if c.isDigit then some (c.toNat - 0x30)
  else if 0x61 ≤ c.toNat ∧ c.toNat ≤ 0x66 then some (c.toNat - 0x57)
  else none

/-- The number that four hexadecimal digits stand for. -/
def hexUnit? (a b c d : Char) : Option Nat := do
  return (← hexValue? a) * 0x1000 + (← hexValue? b) * 0x100 + (← hexValue? c) * 0x10 + (← hexValue? d)

/-- The units up to the closing quote, and the text behind it. -/
def readUnits : List Char → Option (List Nat × List Char)
  | [] => none
  | '"' :: rest => some ([], rest)
  | '\\' :: 'u' :: a :: b :: c :: d :: rest => do
    let unit ← hexUnit? a b c d
    let (found, rest) ← readUnits rest
    return (unit :: found, rest)
  | '\\' :: c :: rest => do
    let unit ← short? c
    let (found, rest) ← readUnits rest
    return (unit :: found, rest)
  | c :: rest => do
    let (found, rest) ← readUnits rest
    return (units c ++ found, rest)

/-- The text of a literal whose opening quote has been read, and what stands behind the closing
one. -/
def read (cs : List Char) : Option (List Char × List Char) := do
  let (found, rest) ← readUnits cs
  return (← ofUnits found, rest)

theorem hexValue?_digitChar : ∀ n < 16, hexValue? (Nat.digitChar n) = some n := by decide

/-- The last digit of a number of more than one digit. -/
theorem hex_succ {width : Nat} (h : 0 < width) (n : Nat) :
    Text.hex (width + 1) n = Text.hex width (n / 16) ++ [Nat.digitChar (n % 16)] := by
  unfold Text.hex
  by_cases small : n < 16
  · have quotient : n / 16 = 0 := by omega
    obtain ⟨k, rfl⟩ : ∃ k, width = k + 1 := ⟨width - 1, by omega⟩
    have digit : Nat.toDigits 16 n = [Nat.digitChar n] := Nat.toDigits_of_lt_base small
    have zero : Nat.toDigits 16 0 = ['0'] := rfl
    simp [digit, zero, quotient, Nat.mod_eq_of_lt small, List.replicate_succ']
  · have digits := Nat.toDigits_of_base_le (b := 16) (by omega) (Nat.le_of_not_lt small)
    simp [digits]

/-- A unit has four digits. -/
theorem hex_four {n : Nat} (h : n < 0x10000) :
    Text.hex 4 n = [Nat.digitChar (n / 0x1000), Nat.digitChar (n / 0x100 % 16),
      Nat.digitChar (n / 0x10 % 16), Nat.digitChar (n % 16)] := by
  have first : n / 16 / 16 / 16 < 16 := by omega
  have one : Text.hex 1 (n / 16 / 16 / 16) = [Nat.digitChar (n / 16 / 16 / 16)] := by
    simp [Text.hex, Nat.toDigits_of_lt_base first]
  rw [hex_succ (by omega), hex_succ (by omega), hex_succ (by omega), one]
  simp [Nat.div_div_eq_div_mul]

theorem hexUnit?_digits {n : Nat} (h : n < 0x10000) :
    hexUnit? (Nat.digitChar (n / 0x1000)) (Nat.digitChar (n / 0x100 % 16))
      (Nat.digitChar (n / 0x10 % 16)) (Nat.digitChar (n % 16)) = some n := by
  have digit (m : Nat) : hexValue? (Nat.digitChar (m % 16)) = some (m % 16) :=
    hexValue?_digitChar _ (Nat.mod_lt _ (by omega))
  have first : n / 0x1000 < 16 := by omega
  simp only [hexUnit?, hexValue?_digitChar _ first, digit, Option.bind_eq_bind, Option.bind_some,
    Option.pure_def, Option.some.injEq]
  omega

/-- The escape of a unit is read as the unit. -/
theorem readUnits_escape {unit : Nat} (h : unit < 0x10000) (cs : List Char) :
    readUnits ('\\' :: 'u' :: Text.hex 4 unit ++ cs)
      = (readUnits cs).map fun found => (unit :: found.1, found.2) := by
  rw [hex_four h]
  simp only [List.cons_append, List.nil_append, readUnits, hexUnit?_digits h]
  cases readUnits cs <;> rfl

theorem readUnits_escapes {found : List Nat} (h : ∀ unit ∈ found, unit < 0x10000)
    (cs : List Char) :
    readUnits ((found.flatMap fun unit => '\\' :: 'u' :: Text.hex 4 unit) ++ cs)
      = (readUnits cs).map fun later => (found ++ later.1, later.2) := by
  induction found with
  | nil => simp
  | cons unit found ih =>
    obtain ⟨first, others⟩ := List.forall_mem_cons.1 h
    rw [List.flatMap_cons, List.append_assoc, readUnits_escape first, ih others, Option.map_map]
    rfl

theorem units_lt {c : Char} {unit : Nat} (h : unit ∈ units c) : unit < 0x10000 := by
  have bound : c.toNat < 0x110000 := by
    have := c.valid
    simp only [Char.toNat, UInt32.isValidChar, Nat.isValidChar] at *
    omega
  unfold units at h
  split at h
  · grind
  · grind

/-- A character that stands for itself. -/
theorem readUnits_plain {c : Char} (quote : c ≠ '"') (backslash : c ≠ '\\') (cs : List Char) :
    readUnits (c :: cs) = (readUnits cs).map fun later => (units c ++ later.1, later.2) := by
  rw [readUnits]
  · cases readUnits cs <;> rfl
  · exact quote
  · intro a b d e rest same
    exact absurd same backslash
  · intro d rest same
    exact absurd same backslash

/-- A character of a literal is read as its units, however it is escaped. -/
theorem readUnits_escapeChar (c : Char) (cs : List Char) :
    readUnits (escapeChar c ++ cs)
      = (readUnits cs).map fun later => (units c ++ later.1, later.2) := by
  -- the short escapes are closed cases: the reader's step computes
  have short {e : Char} {unit : Nat} (notUnit : e ≠ 'u') (h : short? e = some unit) :
      readUnits ('\\' :: e :: cs) = (readUnits cs).map fun later => (unit :: later.1, later.2) := by
    rw [readUnits]
    · rw [h]
      cases readUnits cs <;> rfl
    · intro a b d f rest same
      exact absurd same notUnit
  unfold escapeChar
  iterate 7
    split
    · subst c; exact short (by decide) rfl
  split
  next quote backslash _ _ _ _ _ _ => exact readUnits_plain quote backslash cs
  · exact readUnits_escapes (fun _ => units_lt) cs

theorem readUnits_escaped (s r : List Char) :
    readUnits (s.flatMap escapeChar ++ '"' :: r) = some (s.flatMap units, r) := by
  induction s with
  | nil => rfl
  | cons c s ih =>
    rw [List.flatMap_cons, List.append_assoc, readUnits_escapeChar, ih]
    rfl

/-- The units of a character make up the character again. -/
theorem ofUnits_units (c : Char) (later : List Nat) :
    ofUnits (units c ++ later) = (ofUnits later).map (c :: ·) := by
  have valid : c.toNat < 0xd800 ∨ 0xdfff < c.toNat ∧ c.toNat < 0x110000 := c.valid
  unfold units
  split
  next small =>
    have plain : isSurrogate c.toNat = false := by simp [isSurrogate]; omega
    cases later with
    | nil => simp [ofUnits, plain]
    | cons unit later =>
      simp only [List.singleton_append, ofUnits, plain]
      cases ofUnits (unit :: later) <;> simp
  next large =>
    have high : isSurrogate (0xd800 + (c.toNat - 0x10000) / 0x400) = true := by
      simp [isSurrogate]; omega
    have low : 0xdc00 ≤ 0xdc00 + (c.toNat - 0x10000) % 0x400
        ∧ 0xdc00 + (c.toNat - 0x10000) % 0x400 < 0xe000 := by omega
    have joined : 0x10000 + (0xd800 + (c.toNat - 0x10000) / 0x400 - 0xd800) * 0x400
        + (0xdc00 + (c.toNat - 0x10000) % 0x400 - 0xdc00) = c.toNat := by omega
    simp only [List.cons_append, List.nil_append, ofUnits, high, low, joined]
    cases ofUnits later <;> simp

theorem ofUnits_flatMap_units (s : List Char) : ofUnits (s.flatMap units) = some s := by
  induction s with
  | nil => rfl
  | cons c s ih => rw [List.flatMap_cons, ofUnits_units, ih, Option.map_some]

/-- The literal of a text is read as the text. -/
theorem read_escaped (s r : List Char) :
    read (s.flatMap escapeChar ++ '"' :: r) = some (s, r) := by
  simp [read, readUnits_escaped, ofUnits_flatMap_units]

end Literal

end TypeGuard.Script
