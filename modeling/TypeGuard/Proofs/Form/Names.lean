import Mathlib.Data.List.TakeDrop
import Mathlib.Data.List.TakeWhile
import TypeGuard.Proofs.Form.Writing
import TypeGuard.Proofs.Text.Splitting
import TypeGuard.Surface.Ty

/-!
# Names

Names are made of letters, digits, low lines and dollar signs, and are no numerals. A dotted name of
such names is a single symbol, and its segments are found again.
-/

namespace TypeGuard

/-- Letters, digits, low lines and dollar signs; of the characters beyond ASCII, all but blanks. -/
def isNameChar (c : Char) : Bool :=
  c.isAlphanum || c == '_' || c == '$' || (0x80 ≤ c.toNat && !Text.isBlank c)

/-- The text is a name: it is made of the characters of names, and is no numeral. -/
def IsPlainName (s : String) : Prop :=
  s.toList ≠ [] ∧ (∀ c ∈ s.toList, isNameChar c = true) ∧ Numeral.read? s.toList = none

instance (s : String) : Decidable (IsPlainName s) :=
  decidable_of_iff
    (s.toList ≠ [] ∧ s.toList.all isNameChar = true ∧ Numeral.read? s.toList = none)
    (and_congr_right' (and_congr_left' List.all_eq_true))

theorem toNat_of_isAlphanum {c : Char} (h : c.isAlphanum = true) :
    0x30 ≤ c.toNat ∧ c.toNat ≤ 0x39 ∨ 0x41 ≤ c.toNat ∧ c.toNat ≤ 0x5a ∨
      0x61 ≤ c.toNat ∧ c.toNat ≤ 0x7a := by
  change ((decide (c.val ≥ 'A'.val ∧ c.val ≤ 'Z'.val) ||
    (decide (c.val ≥ 'a'.val) && decide (c.val ≤ 'z'.val))) ||
      (decide (c.val ≥ '0'.val) && decide (c.val ≤ '9'.val))) = true at h
  simp only [ge_iff_le, Bool.or_eq_true, Bool.and_eq_true, decide_eq_true_eq,
    UInt32.le_iff_toNat_le] at h
  have value : c.toNat = c.val.toNat := rfl
  have bounds : '0'.val.toNat = 0x30 ∧ '9'.val.toNat = 0x39 ∧ 'A'.val.toNat = 0x41 ∧
      'Z'.val.toNat = 0x5a ∧ 'a'.val.toNat = 0x61 ∧ 'z'.val.toNat = 0x7a := by decide
  omega

/-- The ASCII characters that no name has. -/
theorem ne_of_isNameChar {c : Char} (h : isNameChar c = true) :
    ∀ d ∈ ['(', ')', '[', ']', '"', ';', '\\', '\x27', '.', '+', '-'], c ≠ d := by
  rintro d member rfl
  have none : ∀ d ∈ ['(', ')', '[', ']', '"', ';', '\\', '\x27', '.', '+', '-'],
      isNameChar d = false := List.all_iff_forall_prop.1 (by decide)
  exact absurd h (by simp [none c member])

theorem isSpace_of_isNameChar {c : Char} (h : isNameChar c = true) : Text.isSpace c = false := by
  simp only [isNameChar, Bool.or_eq_true, Bool.and_eq_true, beq_iff_eq, decide_eq_true_eq] at h
  obtain ((letter | rfl) | rfl) | ⟨high, -⟩ := h
  · have range := toNat_of_isAlphanum letter
    simp only [Text.isSpace]
    grind
  · decide
  · decide
  · simp only [Text.isSpace]
    grind

theorem isMargin_of_isNameChar {c : Char} (h : isNameChar c = true) :
    Numeral.isMargin c = false := by
  have space := isSpace_of_isNameChar h
  simp only [isNameChar, Bool.or_eq_true, Bool.and_eq_true, beq_iff_eq, decide_eq_true_eq] at h
  obtain ((letter | rfl) | rfl) | ⟨-, visible⟩ := h
  · have range := toNat_of_isAlphanum letter
    simp only [Numeral.isMargin, space]
    grind
  · decide
  · decide
  · simp only [Numeral.isMargin, space]
    grind

theorem isAtom_of_isNameChar {cs : List Char} (some : cs ≠ [])
    (h : ∀ c ∈ cs, isNameChar c = true ∨ c = '.') : Form.IsAtom cs := by
  refine ⟨some, fun c member => ?_⟩
  obtain name | rfl := h c member
  · have other := ne_of_isNameChar name
    simp [Token.endsAtom, isSpace_of_isNameChar name, other]
  · decide

theorem IsPlainName.isSymbol {s : String} (h : IsPlainName s) : Form.IsSymbol s :=
  ⟨isAtom_of_isNameChar h.1 fun c member => .inl (h.2.1 c member), h.2.2⟩

/-! ## Dotted names are no numerals -/

namespace Numeral

theorem digits?_chars {cs : List Char} {digits : List Nat} (h : digits? cs = some digits) :
    ∀ c ∈ cs, (Text.digitValue? c).isSome ∨ c = '_' := by
  fun_induction digits? cs generalizing digits with
  | case1 => simp at h
  | case2 c =>
    obtain ⟨d, value, -⟩ := Option.map_eq_some_iff.1 h
    simp [value]
  | case3 c rest ih =>
    simp only [Option.bind_eq_bind, Option.bind_eq_some_iff] at h
    obtain ⟨d, value, ds, others, -⟩ := h
    exact List.forall_mem_cons.2 ⟨by simp [value], List.forall_mem_cons.2 ⟨by simp, ih others⟩⟩
  | case4 c rest _ _ ih =>
    simp only [Option.bind_eq_bind, Option.bind_eq_some_iff] at h
    obtain ⟨d, value, ds, others, -⟩ := h
    exact List.forall_mem_cons.2 ⟨by simp [value], ih others⟩

theorem digits?_eq_none_of_mem {cs : List Char} {c : Char} (member : c ∈ cs)
    (digit : Text.digitValue? c = none) (line : c ≠ '_') : digits? cs = none := by
  rw [Option.eq_none_iff_forall_ne_some]
  intro digits read
  simpa [digit, line] using digits?_chars read c member

theorem splitAt?_fst (p : Char → Bool) (cs : List Char) :
    (splitAt? p cs).1 = cs.takeWhile (!p ·) := by
  unfold splitAt?
  rw [List.span_eq_takeWhile_dropWhile]
  split
  next same => exact (congrArg Prod.fst same).symm
  next same => exact (congrArg Prod.fst same).symm

theorem splitAt?_of_not {p : Char → Bool} {cs : List Char} (h : ∀ c ∈ cs, p c = false) :
    splitAt? p cs = (cs, none) := by
  have all : ∀ c ∈ cs, (!p c) = true := by simpa using h
  have front : cs.takeWhile (!p ·) = cs := List.takeWhile_eq_self_iff.2 all
  have back : cs.dropWhile (!p ·) = [] := List.dropWhile_eq_nil_iff.2 all
  simp [splitAt?, List.span_eq_takeWhile_dropWhile, front, back]

theorem splitAt?_append {p : Char → Bool} {cs : List Char} {c : Char} (rest : List Char)
    (h : ∀ c ∈ cs, p c = false) (here : p c = true) :
    splitAt? p (cs ++ c :: rest) = (cs, some rest) := by
  have all : ∀ c ∈ cs, (!p c) = true := by simpa using h
  simp [splitAt?, List.span_eq_takeWhile_dropWhile, List.takeWhile_append_of_pos all,
    List.dropWhile_append_of_pos all, here]

theorem splitSign_of_ne {cs : List Char} (h : ∀ c ∈ cs.head?, c ≠ '+' ∧ c ≠ '-') :
    splitSign cs = (false, cs) := by
  unfold splitSign
  split
  · exact absurd rfl (h '-' (by simp)).2
  · exact absurd rfl (h '+' (by simp)).1
  · rfl

theorem mem_splitSign {cs : List Char} {c : Char} (h : c ∈ cs) (plus : c ≠ '+') (minus : c ≠ '-') :
    c ∈ (splitSign cs).2 := by
  unfold splitSign
  split
  · simpa [minus] using h
  · simpa [plus] using h
  · exact h

/-- A text of digits is a numeral, of an integer or else of a floating-point value. -/
theorem digits?_eq_none_of_read? {cs : List Char} (name : ∀ c ∈ cs, isNameChar c = true)
    (h : read? cs = none) : digits? cs = none := by
  rw [Option.eq_none_iff_forall_ne_some]
  intro digits read
  have margin := strip_eq_self fun c member => isMargin_of_isNameChar (name c member)
  have sign : splitSign cs = (false, cs) := splitSign_of_ne fun c member => by
    have other := ne_of_isNameChar (name c (List.mem_of_mem_head? member))
    simp [other]
  have exponent : splitAt? (fun c => c == 'e' || c == 'E') cs = (cs, none) := by
    refine splitAt?_of_not fun c member => ?_
    have digit := digits?_chars read c member
    have marks : ∀ d ∈ ['e', 'E'], Text.digitValue? d = none ∧ d ≠ '_' :=
      List.all_iff_forall_prop.1 (by decide)
    by_contra mark
    have found : c ∈ ['e', 'E'] := by simpa [Decidable.or_iff_not_imp_left] using mark
    simp [marks c found] at digit
  have point : splitAt? (· == '.') cs = (cs, none) := by
    refine splitAt?_of_not fun c member => ?_
    simp [ne_of_isNameChar (name c member)]
  unfold read? at h
  split at h
  · cases h
  · have float : float? cs = none := by simpa using h
    simp only [float?, margin, sign, exponent, mantissa?, point, read, exponent?, Option.bind_eq_bind,
      Option.bind_some, Option.pure_def] at float
    split at float
    · cases float
    · split at float <;> cases float

/-- Of a name with a point and more behind it, the mantissa or the exponent is not made of digits. -/
theorem mantissa?_or_exponent?_dotted {cs : List Char} (some : cs ≠ [])
    (name : ∀ c ∈ cs, isNameChar c = true) (digits : digits? cs = none) (rest : List Char) :
    mantissa? (splitAt? (fun c => c == 'e' || c == 'E') (cs ++ '.' :: rest)).1 = none ∨
      exponent? (splitAt? (fun c => c == 'e' || c == 'E') (cs ++ '.' :: rest)).2 = none := by
  have point : Text.digitValue? '.' = none := by decide
  cases marked : cs.find? fun c => c == 'e' || c == 'E' with
  | none =>
    -- the point stands in the mantissa, behind the name
    left
    have plain : ∀ c ∈ cs, (!(c == 'e' || c == 'E')) = true := by
      simpa [List.find?_eq_none] using marked
    have front : (splitAt? (fun c => c == 'e' || c == 'E') (cs ++ '.' :: rest)).1
        = cs ++ '.' :: rest.takeWhile fun c => !(c == 'e' || c == 'E') := by
      rw [splitAt?_fst, List.takeWhile_append_of_pos plain]
      simp
    have noPoint : ∀ c ∈ cs, (c == '.') = false := by
      intro c member
      simp [ne_of_isNameChar (name c member)]
    have split := splitAt?_append (rest.takeWhile fun c => !(c == 'e' || c == 'E')) noPoint
      (beq_self_eq_true '.')
    rw [front, mantissa?, split]
    split
    next same => cases same
    next whole same =>
      obtain ⟨rfl, -⟩ := Prod.mk.inj same
      simp [digits]
    next same => exact absurd (congrArg Prod.fst same) some
    next whole fraction _ _ same =>
      obtain ⟨rfl, -⟩ := Prod.mk.inj same
      simp [digits]
  | some mark =>
    -- the point stands in the exponent
    right
    obtain ⟨here, before, behind, rfl, plain⟩ := List.find?_eq_some_iff_append.1 marked
    have unmarked : ∀ c ∈ before, (c == 'e' || c == 'E') = false := by simpa using plain
    have split := splitAt?_append (behind ++ '.' :: rest) unmarked here
    have member : '.' ∈ (splitSign (behind ++ '.' :: rest)).2 :=
      mem_splitSign (by simp) (by decide) (by decide)
    rw [List.append_assoc, List.cons_append, split]
    simp [exponent?, digits?_eq_none_of_mem member point (by decide)]

/-- A name with a point and more behind it is no numeral. -/
theorem read?_dotted {cs rest : List Char} (some : cs ≠ [])
    (name : ∀ c ∈ cs, isNameChar c = true) (margin : ∀ c ∈ rest, isMargin c = false)
    (h : read? cs = none) : read? (cs ++ '.' :: rest) = none := by
  have digits : digits? cs = none := digits?_eq_none_of_read? name h
  have point : Text.digitValue? '.' = none := by decide
  have none {ds : List Char} (member : '.' ∈ ds) : digits? ds = none :=
    digits?_eq_none_of_mem member point (by decide)
  have strip : Text.strip isMargin (cs ++ '.' :: rest) = cs ++ '.' :: rest := by
    refine strip_eq_self fun c member => ?_
    obtain front | back := List.mem_append.1 member
    · exact isMargin_of_isNameChar (name c front)
    · obtain rfl | back := List.mem_cons.1 back
      · decide
      · exact margin c back
  have sign : splitSign (cs ++ '.' :: rest) = (false, cs ++ '.' :: rest) := by
    refine splitSign_of_ne fun c member => ?_
    obtain ⟨first, others, rfl⟩ := List.exists_cons_of_ne_nil some
    obtain rfl : first = c := by simpa using member
    have other := ne_of_isNameChar (name first (List.mem_cons_self ..))
    simp [other]
  have int : int? (cs ++ '.' :: rest) = .none := by
    simp [int?, strip, sign, none]
  have word {ds : List Char} (h : '.' ∉ ds) : (cs ++ '.' :: rest).map Char.toLower ≠ ds := by
    rintro rfl
    exact h (List.mem_map.2 ⟨'.', by simp, by decide⟩)
  have float : float? (cs ++ '.' :: rest) = .none := by
    have parts := mantissa?_or_exponent?_dotted some name digits rest
    have names : "inf".toList.contains '.' = false ∧ "infinity".toList.contains '.' = false ∧
        "nan".toList.contains '.' = false := by decide
    simp only [List.contains_eq_mem, decide_eq_false_iff_not] at names
    simp only [float?, strip, sign, word names.1, word names.2.1, word names.2.2, or_self, if_false]
    obtain mantissa | exponent := parts
    · simp [mantissa]
    · simp [exponent]
  simp [read?, int, float]

end Numeral

/-! ## Dotted names -/

namespace QualifiedName

/-- The segments with points between them. -/
def dotted (q : QualifiedName) : String := .ofList (Text.joinList '.' (q.parts.map String.toList))

/-- The segments are names, at least one of them. -/
def IsPlain (q : QualifiedName) : Prop := q.parts ≠ [] ∧ ∀ part ∈ q.parts, IsPlainName part

theorem joinList_chars {parts : List String} (h : ∀ part ∈ parts, IsPlainName part) :
    ∀ c ∈ Text.joinList '.' (parts.map String.toList), isNameChar c = true ∨ c = '.' := by
  induction parts with
  | nil => simp [Text.joinList]
  | cons part parts ih =>
    obtain ⟨first, others⟩ := List.forall_mem_cons.1 h
    have rest := ih others
    cases parts with
    | nil => exact fun c member => .inl (first.2.1 c member)
    | cons next parts =>
      rintro c member
      rw [List.map_cons, List.map_cons, Text.joinList, List.mem_append, List.mem_cons] at member
      · obtain here | rfl | later := member
        · exact .inl (first.2.1 c here)
        · exact .inr rfl
        · exact rest c later
      · simp

/-- A dotted name is a symbol. -/
theorem IsPlain.isSymbol {q : QualifiedName} (h : q.IsPlain) : Form.IsSymbol q.dotted := by
  obtain ⟨parts⟩ := q
  obtain ⟨some, names⟩ := h
  obtain ⟨part, parts, rfl⟩ := List.exists_cons_of_ne_nil some
  obtain ⟨first, others⟩ := List.forall_mem_cons.1 names
  cases parts with
  | nil => simpa [dotted, Text.joinList] using first.isSymbol
  | cons next parts =>
    have chars := joinList_chars names
    have text : Text.joinList '.' ((part :: next :: parts).map String.toList)
        = part.toList ++ '.' :: Text.joinList '.' ((next :: parts).map String.toList) := by
      simp [Text.joinList]
    have full : Text.joinList '.' ((part :: next :: parts).map String.toList) ≠ [] := by
      rw [text]
      simp
    have margin : ∀ c ∈ Text.joinList '.' ((next :: parts).map String.toList),
        Numeral.isMargin c = false := by
      intro c member
      obtain name | rfl := joinList_chars others c member
      · exact isMargin_of_isNameChar name
      · decide
    unfold Form.IsSymbol dotted
    rw [String.toList_ofList]
    refine ⟨isAtom_of_isNameChar full chars, ?_⟩
    rw [text]
    exact Numeral.read?_dotted first.1 first.2.1 margin first.2.2

/-- The segments of a dotted name are found again. -/
theorem IsPlain.ofString {q : QualifiedName} (h : q.IsPlain) : ofString q.dotted = .ok q := by
  obtain ⟨parts⟩ := q
  obtain ⟨some, names⟩ := h
  have separate : ∀ part ∈ parts.map String.toList, '.' ∉ part := by
    intro part member point
    obtain ⟨s, found, rfl⟩ := List.mem_map.1 member
    exact absurd rfl (ne_of_isNameChar ((names s found).2.1 '.' point) '.' (by simp))
  have split : Text.split '.' (dotted ⟨parts⟩) = parts := by
    rw [Text.split, dotted, String.toList_ofList,
      Text.splitList_joinList (by simpa using some) separate]
    simp
  have full : parts.contains "" = false := by
    simp only [List.contains_eq_mem, decide_eq_false_iff_not]
    intro member
    exact (names "" member).1 rfl
  simp only [QualifiedName.ofString, split, full]
  rfl

end QualifiedName

end TypeGuard
