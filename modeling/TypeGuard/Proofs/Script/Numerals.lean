import Mathlib.Data.Bool.AllAny
import TypeGuard.Proofs.Number.Decimal
import TypeGuard.Proofs.Script.Quoting

/-!
# Numeric literals

A number is written as a numeric literal of the output language, with a minus sign in front if it is
negative, exactly if it is finite. An infinity and the value that is not a number are written as
names.

## Main definitions

* `NumericLiteral`: decimal literals, with a whole part, a fraction and an exponent.
* `Number.isFinite`: the number is neither infinite nor the value that is not a number.
-/

namespace TypeGuard

namespace Script

/-! ## The grammar of numeric literals -/

/-- Decimal digits, and at least one of them. -/
def IsDigits (cs : List Char) : Prop := cs ≠ [] ∧ ∀ c ∈ cs, c.isDigit = true

/-- A whole number: zero, or digits that do not begin with zero. -/
def IsWhole (cs : List Char) : Prop := cs = ['0'] ∨ (IsDigits cs ∧ cs.head? ≠ some '0')

/-- A point and digits, of which there may be none. -/
def IsFraction (cs : List Char) : Prop := ∃ ds, cs = '.' :: ds ∧ ∀ d ∈ ds, d.isDigit = true

/-- An exponent mark, a sign or none, and digits. -/
def IsExponent (cs : List Char) : Prop :=
  ∃ mark sign ds, cs = mark :: (sign ++ ds) ∧ mark ∈ ['e', 'E'] ∧ sign ∈ [[], ['+'], ['-']] ∧
    IsDigits ds

/-- The characters are a decimal literal. -/
inductive NumericLiteral : List Char → Prop where
  | whole {whole fraction exponent : List Char} :
    IsWhole whole → (fraction = [] ∨ IsFraction fraction) → (exponent = [] ∨ IsExponent exponent) →
    NumericLiteral (whole ++ fraction ++ exponent)
  | fraction {ds exponent : List Char} :
    IsDigits ds → (exponent = [] ∨ IsExponent exponent) → NumericLiteral ('.' :: ds ++ exponent)

/-- A literal, or a minus sign and a literal. -/
def SignedLiteral (cs : List Char) : Prop :=
  NumericLiteral cs ∨ ∃ ds, cs = '-' :: ds ∧ NumericLiteral ds

theorem IsWhole.head {cs : List Char} (h : IsWhole cs) :
    ∃ c ds, cs = c :: ds ∧ c.isDigit = true := by
  obtain rfl | ⟨⟨nonempty, digits⟩, -⟩ := h
  · exact ⟨'0', [], rfl, by decide⟩
  · obtain ⟨c, ds, rfl⟩ := List.exists_cons_of_ne_nil nonempty
    exact ⟨c, ds, rfl, digits c (List.mem_cons_self ..)⟩

/-- A literal begins with a digit or a point. -/
theorem NumericLiteral.head {cs : List Char} (h : NumericLiteral cs) :
    ∃ c ds, cs = c :: ds ∧ (c.isDigit = true ∨ c = '.') := by
  cases h with
  | whole whole _ _ =>
    obtain ⟨c, ds, rfl, digit⟩ := whole.head
    exact ⟨c, _, rfl, .inl digit⟩
  | fraction _ _ => exact ⟨'.', _, rfl, .inr rfl⟩

/-- The characters of literals. -/
theorem NumericLiteral.mem {cs : List Char} (h : NumericLiteral cs) :
    ∀ c ∈ cs, c.isDigit = true ∨ c ∈ ['.', 'e', 'E', '+', '-'] := by
  have digits {ds : List Char} (h : ∀ d ∈ ds, d.isDigit = true) :
      ∀ d ∈ ds, d.isDigit = true ∨ d ∈ ['.', 'e', 'E', '+', '-'] :=
    fun d member => .inl (h d member)
  have inExponent {ds : List Char} (h : ds = [] ∨ IsExponent ds) :
      ∀ d ∈ ds, d.isDigit = true ∨ d ∈ ['.', 'e', 'E', '+', '-'] := by
    rcases h with rfl | ⟨mark, sign, ds, rfl, marks, signs, -, each⟩
    · simp
    · refine List.forall_mem_cons.2 ⟨by grind, List.forall_mem_append.2 ⟨by grind, digits each⟩⟩
  cases h with
  | whole whole fraction exponent =>
    refine List.forall_mem_append.2 ⟨List.forall_mem_append.2 ⟨?_, ?_⟩, inExponent exponent⟩
    · rcases whole with rfl | ⟨⟨-, each⟩, -⟩
      · exact digits (List.forall_mem_singleton.2 rfl)
      · exact digits each
    · rcases fraction with rfl | ⟨ds, rfl, each⟩
      · simp
      · exact List.forall_mem_cons.2 ⟨by simp, digits each⟩
  | fraction ds exponent =>
    refine List.forall_mem_append.2 ⟨List.forall_mem_cons.2 ⟨by simp, digits ds.2⟩, ?_⟩
    exact inExponent exponent

theorem not_numericLiteral {c : Char} {cs : List Char} (digit : c.isDigit = false)
    (point : c ≠ '.') : ¬ NumericLiteral (c :: cs) := by
  intro literal
  obtain ⟨d, ds, same, first⟩ := literal.head
  obtain ⟨rfl, rfl⟩ := List.cons_eq_cons.1 same
  obtain first | first := first
  · simp [digit] at first
  · exact point first

theorem not_startsIdentifier_of_isDigit {c : Char} (h : c.isDigit = true) :
    ¬ StartsIdentifier c := by
  obtain ⟨low, high⟩ := Numeral.toNat_of_isDigit h
  rintro (⟨above, -⟩ | ⟨above, -⟩ | rfl | rfl)
  · have bound : 'A'.toNat ≤ c.toNat := above
    have value : 'A'.toNat = 0x41 := rfl
    omega
  · have bound : 'a'.toNat ≤ c.toNat := above
    have value : 'a'.toNat = 0x61 := rfl
    omega
  · exact absurd h (by decide)
  · exact absurd h (by decide)

/-- A literal is no identifier, with or without a minus sign. -/
theorem SignedLiteral.not_isIdentifier {cs : List Char} (h : SignedLiteral cs) :
    ¬ IsIdentifier cs := by
  rintro ⟨first, later, rfl, start, -⟩
  obtain literal | ⟨ds, same, -⟩ := h
  · obtain ⟨c, ds, same, digit | point⟩ := literal.head
    · rw [(List.cons_eq_cons.1 same).1] at start
      exact not_startsIdentifier_of_isDigit digit start
    · rw [(List.cons_eq_cons.1 same).1, point, ← isIdentifierStart_iff] at start
      exact absurd start (by decide)
  · rw [(List.cons_eq_cons.1 same).1, ← isIdentifierStart_iff] at start
    exact absurd start (by decide)

/-! ## Digits -/

theorem head?_toDigits {n : Nat} (h : 0 < n) : (Nat.toDigits 10 n).head? ≠ some '0' := by
  induction n using Nat.strongRecOn with
  | ind n ih =>
    by_cases small : n < 10
    · have digit : ∀ k < 10, 0 < k → Nat.digitChar k ≠ '0' := by decide
      rw [Nat.toDigits_of_lt_base small]
      simpa using digit n small h
    · have front := ih (n / 10) (by omega) (by omega)
      rw [Nat.toDigits_of_base_le (by omega) (by omega), List.head?_append]
      obtain ⟨c, ds, split⟩ := List.exists_cons_of_ne_nil (@Nat.toDigits_ne_nil (n / 10) 10)
      rw [split] at front ⊢
      exact front

theorem isDigits_toDigits (n : Nat) : IsDigits (Nat.toDigits 10 n) :=
  ⟨Nat.toDigits_ne_nil, fun _ => Numeral.isDigit_of_mem_toDigits⟩

theorem isWhole_toDigits (n : Nat) : IsWhole (Nat.toDigits 10 n) := by
  obtain rfl | positive := Nat.eq_zero_or_pos n
  · exact .inl rfl
  · exact .inr ⟨isDigits_toDigits n, head?_toDigits positive⟩

end Script

open Script

/-! ## Decimals -/

theorem isDigit_of_mem_replicate {n : Nat} {c : Char} (h : c ∈ List.replicate n '0') :
    c.isDigit = true := by
  rw [List.eq_of_mem_replicate h]
  decide

section
variable {digits : List Char}

theorem numericLiteral_below_one (h : IsDigits digits) (n : Nat) :
    NumericLiteral ('0' :: '.' :: List.replicate n '0' ++ digits) := by
  have fraction : IsFraction ('.' :: (List.replicate n '0' ++ digits)) :=
    ⟨_, rfl, List.forall_mem_append.2 ⟨fun _ => isDigit_of_mem_replicate, h.2⟩⟩
  simpa using NumericLiteral.whole (.inl rfl) (.inr fraction) (.inl rfl)

/-- The first `n + 1` digits stand in front of the point, with zeros if there are not enough. -/
theorem numericLiteral_positional (h : IsDigits digits) (leads : digits.head? ≠ some '0')
    (n zeros : Nat) :
    NumericLiteral (digits.take (n + 1) ++ List.replicate zeros '0'
      ++ '.' :: (if (digits.drop (n + 1)).isEmpty then ['0'] else digits.drop (n + 1))) := by
  obtain ⟨c, ds, rfl⟩ := List.exists_cons_of_ne_nil h.1
  have whole : IsWhole (c :: ds.take n ++ List.replicate zeros '0') := by
    refine .inr ⟨⟨by simp, List.forall_mem_append.2 ⟨?_, fun _ => isDigit_of_mem_replicate⟩⟩, leads⟩
    intro d member
    exact h.2 d (List.mem_of_mem_take (i := n + 1) member)
  have fraction : IsFraction ('.' ::
      (if ((c :: ds).drop (n + 1)).isEmpty then ['0'] else (c :: ds).drop (n + 1))) := by
    refine ⟨_, rfl, ?_⟩
    split
    · exact List.forall_mem_singleton.2 rfl
    · exact fun d member => h.2 d (List.mem_of_mem_drop member)
  simpa using NumericLiteral.whole whole (.inr fraction) (.inl rfl)

/-- One digit stands in front of the point, and there is a point only if there are more digits. -/
theorem numericLiteral_exponential (h : IsDigits digits) (leads : digits.head? ≠ some '0')
    (negative : Bool) (zeros n : Nat) :
    NumericLiteral (digits.take 1
      ++ (if (digits.drop 1).isEmpty then [] else '.' :: digits.drop 1)
      ++ 'e' :: (if negative then '-' else '+') ::
        (List.replicate zeros '0' ++ Nat.toDigits 10 n)) := by
  obtain ⟨c, ds, rfl⟩ := List.exists_cons_of_ne_nil h.1
  have whole : IsWhole [c] := .inr ⟨⟨by simp, by simpa using h.2 c (List.mem_cons_self ..)⟩, leads⟩
  have fraction : (if ((c :: ds).drop 1).isEmpty then [] else '.' :: (c :: ds).drop 1) = [] ∨
      IsFraction (if ((c :: ds).drop 1).isEmpty then [] else '.' :: (c :: ds).drop 1) := by
    split
    · exact .inl rfl
    · exact .inr ⟨_, rfl, fun d member => h.2 d (List.mem_of_mem_drop member)⟩
  have exponent : IsExponent ('e' :: (if negative then '-' else '+') ::
      (List.replicate zeros '0' ++ Nat.toDigits 10 n)) := by
    refine ⟨'e', [if negative then '-' else '+'], _, rfl, by simp, ?_, ?_⟩
    · split <;> simp
    · obtain ⟨nonempty, each⟩ := isDigits_toDigits n
      exact ⟨by simp [nonempty], List.forall_mem_append.2 ⟨fun _ => isDigit_of_mem_replicate, each⟩⟩
  simpa using NumericLiteral.whole whole fraction (.inr exponent)

end

/-- There are digits, and the first of them is not zero. -/
structure Decimal.Proper (x : Decimal) : Prop where
  digits : IsDigits x.digits
  leads : x.digits.head? ≠ some '0'

/-- A decimal is written as a literal, in whatever style. -/
theorem Decimal.Proper.numericLiteral {x : Decimal} (h : x.Proper) (style : DecimalStyle) :
    NumericLiteral (x.render style) := by
  unfold Decimal.render
  dsimp only
  split
  · split
    next negative => exact numericLiteral_below_one h.digits _
    next =>
      obtain ⟨n, front⟩ : ∃ n, (x.exponent + 1).toNat = n + 1 := ⟨x.exponent.toNat, by omega⟩
      rw [front]
      exact numericLiteral_positional h.digits h.leads n _
  · simpa using
      numericLiteral_exponential h.digits h.leads (decide (x.exponent < 0)) _ x.exponent.natAbs

/-! ## Floating-point values -/

theorem dropTrailing_cons {c : Char} (h : c ≠ '0') (cs : List Char) :
    ∃ ds, (((c :: cs).reverse.dropWhile (· == '0')).reverse) = c :: ds ∧ ds ⊆ cs := by
  have kept : [c].dropWhile (· == '0') = [c] := by simp [h]
  rw [List.reverse_cons, List.dropWhile_append, kept]
  split
  · exact ⟨[], rfl, List.nil_subset cs⟩
  · refine ⟨(cs.reverse.dropWhile (· == '0')).reverse, by simp, ?_⟩
    intro d member
    exact List.mem_reverse.1 ((List.dropWhile_sublist _).subset (List.mem_reverse.1 member))

/-- The digits of a positive number are proper, with or without the zeros at their end. -/
theorem proper_toDigits {k : Nat} (h : 0 < k) (exponent : Int) :
    Decimal.Proper ⟨((Nat.toDigits 10 k).reverse.dropWhile (· == '0')).reverse, exponent⟩ := by
  obtain ⟨nonempty, each⟩ := isDigits_toDigits k
  have leads := head?_toDigits h
  obtain ⟨c, cs, split⟩ := List.exists_cons_of_ne_nil nonempty
  rw [split] at each leads ⊢
  obtain ⟨ds, same, subset⟩ := dropTrailing_cons (by simpa using leads) cs
  rw [same]
  obtain ⟨first, others⟩ := List.forall_mem_cons.1 each
  exact ⟨⟨by simp, List.forall_mem_cons.2 ⟨first, fun d member => others d (subset member)⟩⟩, leads⟩

namespace Binary64

/-- Zero is not read back as another value. -/
theorem pos_of_ofDecimal {k mantissa : Nat} {grid power : Int} (h : mantissa ≠ 0)
    (read : ofDecimal false k grid = .finite false mantissa power) : 0 < k := by
  refine Nat.pos_of_ne_zero ?_
  rintro rfl
  have zero : mantissa = 0 ∧ power = minExponent := by
    simpa [ofDecimal, Binary64.zero, eq_comm] using read
  exact h zero.1

/-- The shortest decimal of a value is proper; if none were found it would be empty. -/
theorem shortest_proper_or {mantissa : Nat} (h : mantissa ≠ 0) (power : Int) :
    (shortest mantissa power).Proper ∨ shortest mantissa power = ⟨[], 0⟩ := by
  unfold shortest
  dsimp only
  generalize found : (List.range 17).findSome? _ = hit
  cases hit with
  | none => exact .inr rfl
  | some pair =>
    obtain ⟨k, grid⟩ := pair
    obtain ⟨_, n, _, -, here, -⟩ := List.findSome?_eq_some_iff.1 found
    obtain ⟨k', chosen, same⟩ := Option.map_eq_some_iff.1 here
    obtain ⟨rfl, rfl⟩ := Prod.mk.inj same
    have read := List.find?_some chosen
    exact .inl (proper_toDigits (pos_of_ofDecimal h (beq_iff_eq.1 read)) _)

/-- A finite value is written as a literal behind its sign. -/
theorem numericLiteral_magnitude (mantissa : Nat) (power : Int) :
    NumericLiteral (if mantissa = 0 then "0.0"
      else String.ofList ((shortest mantissa power).render Number.style)).toList := by
  have zero : NumericLiteral ['0', '.', '0'] := by
    have fraction : IsFraction ['.', '0'] := ⟨['0'], rfl, List.forall_mem_singleton.2 rfl⟩
    simpa using NumericLiteral.whole (.inl rfl) (.inr fraction) (.inl rfl)
  split
  · exact zero
  next nonzero =>
    rw [String.toList_ofList]
    obtain proper | empty := shortest_proper_or nonzero power
    · exact proper.numericLiteral Number.style
    · rw [empty]
      exact zero

/-- The value is neither infinite nor the value that is not a number. -/
def isFinite : Binary64 → Bool
  | .finite .. => true
  | .infinite _ | .nan => false

end Binary64

namespace Number

/-- The number is neither infinite nor the value that is not a number. -/
def isFinite : Number → Bool
  | .int _ => true
  | .float value => value.isFinite

theorem signedLiteral_of_isFinite {n : Number} (h : n.isFinite = true) :
    SignedLiteral n.render.toList := by
  cases n with
  | int value =>
    rw [render, Numeral.toList_toString_int]
    have digits : NumericLiteral (Nat.toDigits 10 value.natAbs) := by
      simpa using NumericLiteral.whole (isWhole_toDigits value.natAbs) (.inl rfl) (.inl rfl)
    split
    · exact .inr ⟨_, rfl, digits⟩
    · exact .inl digits
  | float value =>
    cases value with
    | finite negative mantissa power =>
      have magnitude := Binary64.numericLiteral_magnitude mantissa power
      rw [render, Binary64.render, String.toList_append]
      cases negative with
      | true => exact .inr ⟨_, rfl, magnitude⟩
      | false => exact .inl magnitude
    | infinite | nan => simp [isFinite, Binary64.isFinite] at h

/-- A number that is not finite is written as a name, which may stand behind a minus sign. -/
theorem exists_name_of_not_isFinite {n : Number} (h : n.isFinite = false) :
    ∃ sign name, n.render.toList = sign ++ name ∧ sign ∈ [[], ['-']] ∧ IsIdentifier name := by
  have named {cs : List Char} (line : '\n' ∉ cs) (key : isIdentifierKey cs = true) :
      IsIdentifier cs := (isIdentifierKey_iff line).1 key
  cases n with
  | int => simp [isFinite] at h
  | float value =>
    cases value with
    | finite => simp [isFinite, Binary64.isFinite] at h
    | infinite negative =>
      refine ⟨if negative then ['-'] else [], "inf".toList, ?_, ?_, named (by decide) (by decide)⟩
      · cases negative <;> rfl
      · cases negative <;> simp
    | nan => exact ⟨[], "nan".toList, rfl, by simp, named (by decide) (by decide)⟩

/-- Exactly the finite numbers are written as literals. -/
theorem signedLiteral_render_iff (n : Number) :
    SignedLiteral n.render.toList ↔ n.isFinite = true := by
  refine ⟨fun literal => ?_, signedLiteral_of_isFinite⟩
  by_contra infinite
  obtain ⟨sign, name, text, signs, identifier⟩ :=
    exists_name_of_not_isFinite (Bool.eq_false_iff.2 infinite)
  rw [text] at literal
  simp only [List.mem_cons, List.not_mem_nil, or_false] at signs
  obtain rfl | rfl := signs
  · exact literal.not_isIdentifier identifier
  · obtain literal | ⟨ds, same, literal⟩ := literal
    · exact not_numericLiteral (by decide) (by decide) literal
    · rw [← (List.cons_eq_cons.1 same).2] at literal
      exact SignedLiteral.not_isIdentifier (.inl literal) identifier

/-- A written number has neither a line feed nor a slash in it. -/
theorem ne_of_mem_render {n : Number} {c : Char} (h : c ∈ n.render.toList) :
    c ≠ '\n' ∧ c ≠ '/' := by
  have plain {d : Char} (hd : d.isDigit = true ∨ d ∈ ['.', 'e', 'E', '+', '-']) :
      d ≠ '\n' ∧ d ≠ '/' := by
    constructor <;> (rintro rfl; exact absurd hd (by decide))
  cases finite : n.isFinite with
  | true =>
    obtain literal | ⟨ds, text, literal⟩ := signedLiteral_of_isFinite finite
    · exact plain (literal.mem c h)
    · rw [text] at h
      obtain rfl | later := List.mem_cons.1 h
      · decide
      · exact plain (literal.mem c later)
  | false =>
    have name : ∀ d ∈ "-inf".toList ++ "nan".toList, d ≠ '\n' ∧ d ≠ '/' :=
      List.all_iff_forall_prop.1 (by decide)
    cases n with
    | int => simp [Number.isFinite] at finite
    | float value =>
      cases value with
      | finite => simp [Number.isFinite, Binary64.isFinite] at finite
      | infinite negative =>
        refine name c (List.mem_append_left _ ?_)
        cases negative with
        | true => exact h
        | false => exact List.mem_cons_of_mem '-' h
      | nan => exact name c (List.mem_append_right _ h)

end Number

end TypeGuard
