import Mathlib.Data.Option.Basic
import TypeGuard.Number.Numeral

/-!
# Decimal integers

An integer is written as its decimal digits behind a sign, and `Numeral.signed?_toString` says that
these characters stand for the integer again. As a numeral they are read as the integer if there are
not too many of them, and no numeral stands for a longer integer.
-/

namespace TypeGuard.Numeral

/-- The integer that a sign and decimal digits stand for, however many digits there are. -/
def signed? (cs : List Char) : Option Int := do
  let (negative, body) := splitSign cs
  let digits ← digits? body
  return if negative then -(ofDigits digits) else ofDigits digits

def valueOf (c : Char) : Nat := c.toNat - '0'.toNat

theorem toNat_of_isDigit {c : Char} (h : c.isDigit = true) : 0x30 ≤ c.toNat ∧ c.toNat < 0x3a := by
  simp only [Char.isDigit, ge_iff_le, Bool.and_eq_true, decide_eq_true_eq,
    UInt32.le_iff_toNat_le] at h
  have value : c.toNat = c.val.toNat := rfl
  have zero : '0'.val.toNat = 0x30 := rfl
  have nine : '9'.val.toNat = 0x39 := rfl
  omega

theorem digitValue?_of_isDigit {c : Char} (h : c.isDigit = true) :
    Text.digitValue? c = some (valueOf c) := by
  obtain ⟨low, high⟩ := toNat_of_isDigit h
  have found : Text.zeroDigits.find? (fun z => z ≤ c.toNat && c.toNat < z + 10) = some 0x30 := by
    rw [Text.zeroDigits, List.find?_cons_of_pos]
    simp [low, high]
  simp [Text.digitValue?, found, valueOf]

theorem ne_underscore_of_isDigit {c : Char} (h : c.isDigit = true) : c ≠ '_' := by
  rintro rfl
  exact absurd h (by decide)

theorem digits?_of_isDigit {cs : List Char} (some : cs ≠ []) (h : ∀ c ∈ cs, c.isDigit = true) :
    digits? cs = .some (cs.map valueOf) := by
  induction cs with
  | nil => exact absurd rfl some
  | cons c cs ih =>
    obtain ⟨first, others⟩ := List.forall_mem_cons.1 h
    cases cs with
    | nil => simp [digits?, digitValue?_of_isDigit first]
    | cons d cs =>
      have plain : d ≠ '_' := ne_underscore_of_isDigit (others d (List.mem_cons_self ..))
      rw [digits?]
      · simp [digitValue?_of_isDigit first, ih (by simp) others]
      · simp
      · intro rest same
        cases same
        exact plain rfl

theorem ofDigits_map_valueOf (cs : List Char) :
    ofDigits (cs.map valueOf) = Nat.ofDigitChars 10 cs 0 := by
  simp [ofDigits, Nat.ofDigitChars, List.foldl_map, valueOf]

theorem isDigit_of_mem_toDigits {n : Nat} {c : Char} (h : c ∈ Nat.toDigits 10 n) :
    c.isDigit = true :=
  Nat.isDigit_of_mem_toDigits (by omega) (by omega) h

/-- The digits of a number stand for the number. -/
theorem digits?_toDigits (n : Nat) : ∃ digits, digits? (Nat.toDigits 10 n) = some digits
    ∧ digits.length = (Nat.toDigits 10 n).length ∧ ofDigits digits = n := by
  refine ⟨(Nat.toDigits 10 n).map valueOf, ?_, by simp, ?_⟩
  · exact digits?_of_isDigit Nat.toDigits_ne_nil fun c h => isDigit_of_mem_toDigits h
  · rw [ofDigits_map_valueOf, Nat.ofDigitChars_toDigits (by omega) (by omega)]

/-- The characters of an integer: a sign or none, and the digits of its size. -/
theorem toList_toString_int (n : Int) : (toString n).toList
    = (if n < 0 then ['-'] else []) ++ Nat.toDigits 10 n.natAbs := by
  cases n with
  | ofNat m =>
    change (Nat.repr m).toList = _
    simp [Nat.toList_repr]
  | negSucc m =>
    change ("-" ++ Nat.repr (m + 1)).toList = _
    simp [Nat.toList_repr, Int.negSucc_lt_zero]

theorem isDigit_or_minus_of_mem_toString {n : Int} {c : Char} (h : c ∈ (toString n).toList) :
    c.isDigit = true ∨ c = '-' := by
  rw [toList_toString_int, List.mem_append] at h
  obtain sign | digit := h
  · split at sign
    · exact .inr (List.mem_singleton.1 sign)
    · cases sign
  · exact .inl (isDigit_of_mem_toDigits digit)

theorem splitSign_of_isDigit {cs : List Char} (h : ∀ c ∈ cs, c.isDigit = true) :
    splitSign cs = (false, cs) := by
  unfold splitSign
  split
  · exact absurd (h '-' (by simp)) (by decide)
  · exact absurd (h '+' (by simp)) (by decide)
  · rfl

theorem splitSign_toString (n : Int) :
    splitSign (toString n).toList = (decide (n < 0), Nat.toDigits 10 n.natAbs) := by
  rw [toList_toString_int]
  by_cases negative : n < 0
  · simp [negative, splitSign]
  · simpa [negative] using splitSign_of_isDigit fun c h => isDigit_of_mem_toDigits h

/-- The characters of an integer stand for the integer. -/
theorem signed?_toString (n : Int) : signed? (toString n).toList = some n := by
  obtain ⟨digits, read, -, value⟩ := digits?_toDigits n.natAbs
  simp only [signed?, splitSign_toString, read, value, decide_eq_true_eq, Option.bind_eq_bind,
    Option.bind_some, Option.pure_def, Option.some.injEq]
  split
  · omega
  · omega

/-! ## Numerals of integers -/

theorem strip_eq_self {p : Char → Bool} {cs : List Char} (h : ∀ c ∈ cs, p c = false) :
    Text.strip p cs = cs := by
  have none (ds : List Char) (hd : ∀ c ∈ ds, p c = false) : ds.dropWhile p = ds := by
    cases ds with
    | nil => rfl
    | cons d ds => simp [hd d (List.mem_cons_self ..)]
  rw [Text.strip, none cs h, none cs.reverse (by simpa using h), List.reverse_reverse]

theorem isMargin_of_mem_toString {n : Int} {c : Char} (h : c ∈ (toString n).toList) :
    isMargin c = false := by
  obtain digit | rfl := isDigit_or_minus_of_mem_toString h
  · obtain ⟨low, high⟩ := toNat_of_isDigit digit
    simp only [isMargin, Text.isSpace]
    grind
  · decide

/-- The number of digits of an integer. -/
def digitCount (n : Int) : Nat := (Nat.toDigits 10 n.natAbs).length

/-- An integer of not too many digits is read as it is written. -/
theorem read?_toString {n : Int} (h : digitCount n ≤ maxDigits) :
    read? (toString n).toList = some (.int n) := by
  obtain ⟨digits, read, length, value⟩ := digits?_toDigits n.natAbs
  have short : digits.length ≤ maxDigits := length ▸ h
  have whole : int? (toString n).toList = signed? (toString n).toList := by
    simp only [int?, signed?, strip_eq_self fun c => isMargin_of_mem_toString, splitSign_toString,
      read, short, guard, Option.bind_eq_bind, Option.bind_some, if_true, Option.pure_def]
  rw [read?, whole, signed?_toString]

theorem digitValue?_lt {c : Char} {d : Nat} (h : Text.digitValue? c = some d) : d < 10 := by
  obtain ⟨first, found, rfl⟩ := Option.map_eq_some_iff.1 h
  have range := List.find?_some found
  simp only [Bool.and_eq_true, decide_eq_true_eq] at range
  omega

theorem digits?_lt {cs : List Char} {digits : List Nat} (h : digits? cs = some digits) :
    ∀ d ∈ digits, d < 10 := by
  fun_induction digits? cs generalizing digits with
  | case1 => simp at h
  | case2 c =>
    obtain ⟨d, value, rfl⟩ := Option.map_eq_some_iff.1 h
    simpa using digitValue?_lt value
  | case3 c rest ih =>
    simp only [Option.bind_eq_bind, Option.bind_eq_some_iff, Option.pure_def,
      Option.some.injEq] at h
    obtain ⟨d, value, ds, others, rfl⟩ := h
    exact List.forall_mem_cons.2 ⟨digitValue?_lt value, ih others⟩
  | case4 c rest _ _ ih =>
    simp only [Option.bind_eq_bind, Option.bind_eq_some_iff, Option.pure_def,
      Option.some.injEq] at h
    obtain ⟨d, value, ds, others, rfl⟩ := h
    exact List.forall_mem_cons.2 ⟨digitValue?_lt value, ih others⟩

theorem foldl_digits_lt {digits : List Nat} (h : ∀ d ∈ digits, d < 10) (n : Nat) :
    digits.foldl (fun n d => 10 * n + d) n < (n + 1) * Nat.pow 10 digits.length := by
  induction digits generalizing n with
  | nil => simp
  | cons d digits ih =>
    obtain ⟨small, others⟩ := List.forall_mem_cons.1 h
    have bound : 10 * n + d + 1 ≤ (n + 1) * 10 := by omega
    calc (d :: digits).foldl (fun n d => 10 * n + d) n
        = digits.foldl (fun n d => 10 * n + d) (10 * n + d) := rfl
      _ < (10 * n + d + 1) * Nat.pow 10 digits.length := ih others (10 * n + d)
      _ ≤ (n + 1) * 10 * Nat.pow 10 digits.length := Nat.mul_le_mul_right _ bound
      _ = (n + 1) * Nat.pow 10 (d :: digits).length := by
        rw [List.length_cons, Nat.pow, Nat.mul_assoc, Nat.mul_comm 10]
        rfl

/-- No numeral stands for an integer of too many digits. -/
theorem natAbs_lt_of_read? {cs : List Char} {n : Int} (h : read? cs = some (.int n)) :
    n.natAbs < Nat.pow 10 maxDigits := by
  unfold read? at h
  split at h
  next value read =>
    obtain rfl : value = n := by simpa using h
    simp only [int?, Option.bind_eq_bind, Option.bind_eq_some_iff, Option.pure_def,
      Option.some.injEq] at read
    obtain ⟨digits, found, _, short, rfl⟩ := read
    have few : digits.length ≤ maxDigits := by
      by_cases few : digits.length ≤ maxDigits
      · exact few
      · simp [guard, few] at short
    have bound : ofDigits digits < Nat.pow 10 digits.length := by
      simpa [ofDigits] using foldl_digits_lt (digits?_lt found) 0
    have size {m : Nat} (h : digits.length ≤ m) : Nat.pow 10 digits.length ≤ Nat.pow 10 m :=
      Nat.pow_le_pow_right (by omega) h
    have value : (if (splitSign (Text.strip isMargin cs)).1 then -(ofDigits digits : Int)
        else ofDigits digits).natAbs = ofDigits digits := by
      split
      · omega
      · omega
    rw [value]
    exact Nat.lt_of_lt_of_le bound (size few)
  next other =>
    obtain ⟨value, -, same⟩ := Option.map_eq_some_iff.1 h
    cases same

end TypeGuard.Numeral
