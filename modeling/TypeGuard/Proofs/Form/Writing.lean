import Mathlib.Data.Bool.AllAny
import TypeGuard.Form.Reader
import TypeGuard.Proofs.Number.Decimal

/-!
# Writing forms

A text for every form, with a blank behind each item of a list. `Form.read_write` says that the text
is read as the form, if its symbols are not taken for anything else and its integers are not too
long.
-/

namespace TypeGuard

namespace Form

/-- A string between quotes; quotes and backslashes are escaped. -/
def writeText (s : String) : List Char :=
  '"' :: (s.toList.flatMap fun c => if c = '"' ∨ c = '\\' then ['\\', c] else [c]) ++ ['"']

mutual

/-- The text of a form. -/
def write : Form → List Char
  | .symbol name => name.toList
  | .text value => writeText value
  | .number value => value.render.toList
  | .list items _ => '(' :: writeAll items ++ [')']
  | .quoted form => '\x27' :: write form
  | .brackets items => '[' :: writeAll items ++ [']']

def writeAll : List Form → List Char
  | [] => []
  | form :: forms => write form ++ ' ' :: writeAll forms

end

/-- The characters go together as one atom. -/
def IsAtom (cs : List Char) : Prop :=
  cs ≠ [] ∧ ∀ c ∈ cs, Token.endsAtom c = false ∧ c ≠ '\\' ∧ c ≠ '\x27'

instance (cs : List Char) : Decidable (IsAtom cs) :=
  decidable_of_iff
    (cs ≠ [] ∧ cs.all fun c => Token.endsAtom c = false ∧ c ≠ '\\' ∧ c ≠ '\x27')
    (and_congr_right' List.all_iff_forall_prop)

/-- The symbol is an atom that is no numeral. -/
def IsSymbol (s : String) : Prop := IsAtom s.toList ∧ Numeral.read? s.toList = none

instance (s : String) : Decidable (IsSymbol s) := inferInstanceAs (Decidable (_ ∧ _))

mutual

/-- The form is read from its text: it has no quoted or bracketed parts, its lists have no position
yet, its symbols are symbols, and its numbers are integers of not too many digits. -/
def Writable : Form → Prop
  | .symbol name => IsSymbol name
  | .text _ => True
  | .number (.int n) => Numeral.digitCount n ≤ Numeral.maxDigits
  | .number (.float _) => False
  | .list items position => AllWritable items ∧ position = {}
  | .quoted _ => False
  | .brackets _ => False

def AllWritable : List Form → Prop
  | [] => True
  | form :: forms => Writable form ∧ AllWritable forms

end

end Form

namespace Token

/-! ## Scanning -/

theorem start_of_isSpace (offset : Nat) {c : Char} (h : Text.isSpace c = true) :
    start offset c = ([], .ground) := by
  have quote : c ≠ '"' := by
    rintro rfl
    exact absurd h (by decide)
  simp [start, quote, h]

theorem start_of_atom (offset : Nat) {c : Char} (h : endsAtom c = false) (backslash : c ≠ '\\')
    (apostrophe : c ≠ '\x27') : start offset c = ([], .atom offset [c]) := by
  simp only [endsAtom, Bool.or_eq_false_iff, decide_eq_false_iff_not, List.mem_cons, not_or] at h
  simp [start, h, backslash, apostrophe]

/-- A separator ends the atom before it. -/
theorem scanFrom_atom {first : Nat} {read : List Char} {cs : List Char}
    (h : ∀ c ∈ cs, endsAtom c = false ∧ c ≠ '\\' ∧ c ≠ '\x27') {sep : Char}
    (space : Text.isSpace sep = true) (offset : Nat) (r : List Char) :
    ∃ next, scanFrom offset (.atom first read) (cs ++ sep :: r)
      = ⟨.atom (read.reverse ++ cs), first⟩ :: scanFrom next .ground r := by
  induction cs generalizing offset read with
  | nil =>
    have ends : endsAtom sep = true := by simp [endsAtom, space]
    refine ⟨offset + 1, ?_⟩
    simp [scanFrom, step, ends, start_of_isSpace offset space]
  | cons c cs ih =>
    obtain ⟨⟨ends, backslash, -⟩, others⟩ := List.forall_mem_cons.1 h
    obtain ⟨next, scanned⟩ := @ih (c :: read) others (offset + 1)
    refine ⟨next, ?_⟩
    simpa [scanFrom, step, ends, backslash] using scanned

theorem scanFrom_ground_atom {cs : List Char} (h : Form.IsAtom cs) {sep : Char}
    (space : Text.isSpace sep = true) (offset : Nat) (r : List Char) :
    ∃ next, scanFrom offset .ground (cs ++ sep :: r)
      = ⟨.atom cs, offset⟩ :: scanFrom next .ground r := by
  obtain ⟨some, plain⟩ := h
  obtain ⟨c, cs, rfl⟩ := List.exists_cons_of_ne_nil some
  obtain ⟨⟨ends, backslash, apostrophe⟩, others⟩ := List.forall_mem_cons.1 plain
  obtain ⟨next, scanned⟩ := @scanFrom_atom offset [c] cs others sep space (offset + 1) r
  refine ⟨next, ?_⟩
  simpa [scanFrom, step, start_of_atom offset ends backslash apostrophe] using scanned

/-- A closing quote ends the string before it. -/
theorem scanFrom_text {first : Nat} {read : List Char} (cs : List Char) (offset : Nat)
    (r : List Char) :
    ∃ next, scanFrom offset (.text first read)
        ((cs.flatMap fun c => if c = '"' ∨ c = '\\' then ['\\', c] else [c]) ++ '"' :: r)
      = ⟨.text (read.reverse ++ cs), first⟩ :: scanFrom next .ground r := by
  induction cs generalizing offset read with
  | nil => exact ⟨offset + 1, by simp [scanFrom, step]⟩
  | cons c cs ih =>
    by_cases escaped : c = '"' ∨ c = '\\'
    · obtain ⟨next, scanned⟩ := @ih (c :: read) (offset + 2)
      have escape : textEscape? c = some c := by
        obtain rfl | rfl := escaped <;> rfl
      refine ⟨next, ?_⟩
      simpa [scanFrom, step, escaped, escape] using scanned
    · obtain ⟨next, scanned⟩ := @ih (c :: read) (offset + 1)
      obtain ⟨quote, backslash⟩ := not_or.1 escaped
      refine ⟨next, ?_⟩
      simpa [scanFrom, step, quote, backslash] using scanned

theorem scanFrom_ground_text (s : String) (offset : Nat) (r : List Char) :
    ∃ next, scanFrom offset .ground (Form.writeText s ++ r)
      = ⟨.text s.toList, offset⟩ :: scanFrom next .ground r := by
  obtain ⟨next, scanned⟩ := @scanFrom_text offset [] s.toList (offset + 1) r
  refine ⟨next, ?_⟩
  simpa [Form.writeText, scanFrom, step, start] using scanned

theorem scanFrom_ground_space {sep : Char} (space : Text.isSpace sep = true) (offset : Nat)
    (r : List Char) : scanFrom offset .ground (sep :: r) = scanFrom (offset + 1) .ground r := by
  simp [scanFrom, step, start_of_isSpace offset space]

end Token

namespace Form

/-! ## Reading -/

/-- The lexemes put the form on the innermost level. -/
def Pushes (lexemes : List Lexeme) (form : Form) : Prop :=
  ∀ cs l, lexemes.foldlM (Levels.step cs) l = .ok (l.push form)

/-- The lexemes put the forms on the innermost level, one after the other. -/
def PushesAll (lexemes : List Lexeme) (forms : List Form) : Prop :=
  ∀ cs (l : Levels), lexemes.foldlM (Levels.step cs) l
    = .ok { l with current := forms.reverse ++ l.current }

theorem pushes_list {lexemes : List Lexeme} {items : List Form} (h : PushesAll lexemes items)
    (first last : Nat) :
    Pushes (⟨.opening .round, first⟩ :: (lexemes ++ [⟨.closing .round, last⟩])) (.list items {}) := by
  intro cs l
  have inner := h cs (l.enter (.bracket .round))
  have opened : Levels.step cs l ⟨.opening .round, first⟩ = .ok (l.enter (.bracket .round)) := rfl
  have closed : Levels.step cs { l.enter (.bracket .round) with current := items.reverse ++ [] }
      ⟨.closing .round, last⟩ = .ok (l.push (.list items {})) := by
    simp [Levels.step, Levels.close, Levels.enter, Levels.closeQuotes, Levels.push, bind,
      Except.bind, pure, Except.pure]
  simp only [List.foldlM_cons, List.foldlM_append, List.foldlM_nil, opened, bind, Except.bind]
  rw [inner]
  exact congrArg (Except.bind · pure) closed

theorem PushesAll.cons {first others : List Lexeme} {form : Form} {forms : List Form}
    (h : Pushes first form) (hs : PushesAll others forms) :
    PushesAll (first ++ others) (form :: forms) := by
  intro cs l
  rw [List.foldlM_append, h cs l]
  simpa [bind, Except.bind, Levels.push] using hs cs (l.push form)

theorem isAtom_toString (n : Int) : IsAtom (toString n).toList := by
  constructor
  · rw [Numeral.toList_toString_int]
    simp [Nat.toDigits_ne_nil]
  · intro c member
    obtain digit | rfl := Numeral.isDigit_or_minus_of_mem_toString member
    · obtain ⟨low, high⟩ := Numeral.toNat_of_isDigit digit
      have space : Text.isSpace c = false := by
        simp only [Text.isSpace]
        grind
      have others : ∀ d ∈ ['(', ')', '[', ']', '"', ';', '\\', '\x27'], c ≠ d := by
        rintro d member rfl
        have none : ∀ d ∈ ['(', ')', '[', ']', '"', ';', '\\', '\x27'], d.isDigit = false :=
          List.all_iff_forall_prop.1 (by decide)
        exact absurd digit (by simp [none c member])
      simp [Token.endsAtom, space, others]
    · decide

mutual

/-- The text of a form is scanned to lexemes that stand for the form. -/
theorem exists_lexemes : ∀ form : Form, form.Writable → ∀ (offset : Nat) {sep : Char},
    Text.isSpace sep = true → ∀ r, ∃ lexemes next,
      Token.scanFrom offset .ground (form.write ++ sep :: r)
        = lexemes ++ Token.scanFrom next .ground r ∧ Pushes lexemes form
  | .symbol name, h, offset, sep, space, r => by
    obtain ⟨atom, other⟩ := h
    obtain ⟨next, scanned⟩ := Token.scanFrom_ground_atom atom space offset r
    refine ⟨[⟨.atom name.toList, offset⟩], next, scanned, fun cs l => ?_⟩
    simp [Levels.step, ofAtom, other, bind, Except.bind, pure, Except.pure]
  | .text value, _, offset, sep, space, r => by
    obtain ⟨next, scanned⟩ := Token.scanFrom_ground_text value offset (sep :: r)
    rw [Token.scanFrom_ground_space space] at scanned
    refine ⟨[⟨.text value.toList, offset⟩], next + 1, scanned, fun cs l => ?_⟩
    simp [Levels.step, bind, Except.bind, pure, Except.pure]
  | .number (.int n), h, offset, sep, space, r => by
    obtain ⟨next, scanned⟩ := Token.scanFrom_ground_atom (isAtom_toString n) space offset r
    refine ⟨[⟨.atom (toString n).toList, offset⟩], next, scanned, fun cs l => ?_⟩
    have value : ofAtom (toString n).toList = .number (.int n) := by
      rw [ofAtom, Numeral.read?_toString h]
    simp only [List.foldlM_cons, List.foldlM_nil, Levels.step, value, bind, Except.bind, pure,
      Except.pure]
  | .list items position, h, offset, sep, space, r => by
    obtain ⟨writable, rfl⟩ := h
    obtain ⟨lexemes, next, scanned, pushes⟩ :=
      exists_lexemes_all items writable (offset + 1) (')' :: sep :: r)
    refine ⟨⟨.opening .round, offset⟩ :: (lexemes ++ [⟨.closing .round, next⟩]), next + 2, ?_,
      pushes_list pushes offset next⟩
    have opened : Token.scanFrom offset .ground ('(' :: (writeAll items ++ ')' :: sep :: r))
        = ⟨.opening .round, offset⟩
          :: Token.scanFrom (offset + 1) .ground (writeAll items ++ ')' :: sep :: r) := by
      simp [Token.scanFrom, Token.step, Token.start, Text.isSpace]
    have closed : Token.scanFrom next .ground (')' :: sep :: r)
        = ⟨.closing .round, next⟩ :: Token.scanFrom (next + 1 + 1) .ground r := by
      rw [← Token.scanFrom_ground_space space]
      simp [Token.scanFrom, Token.step, Token.start, Text.isSpace]
    simpa [write, opened, closed] using scanned

theorem exists_lexemes_all : ∀ forms : List Form, AllWritable forms → ∀ (offset : Nat) r,
    ∃ lexemes next, Token.scanFrom offset .ground (writeAll forms ++ r)
      = lexemes ++ Token.scanFrom next .ground r ∧ PushesAll lexemes forms
  | [], _, offset, r => ⟨[], offset, rfl, fun cs l => rfl⟩
  | form :: forms, h, offset, r => by
    obtain ⟨first, next, scanned, pushes⟩ :=
      exists_lexemes form h.1 offset (by decide : Text.isSpace ' ' = true) (writeAll forms ++ r)
    obtain ⟨others, last, rest, each⟩ := exists_lexemes_all forms h.2 next r
    refine ⟨first ++ others, last, ?_, .cons pushes each⟩
    simp [writeAll, scanned, rest]

end

/-- The source text of a form, which ends in a line feed. -/
def source (form : Form) : String := .ofList (form.write ++ ['\n'])

/-- The source text of a form is read as the form, with positions for its lists. -/
theorem read_source {form : Form} (h : form.Writable) :
    ∃ positions, read form.source = .ok (form.locate positions).1 := by
  obtain ⟨lexemes, next, scanned, pushes⟩ :=
    exists_lexemes form h 0 (by decide : Text.isSpace '\n' = true) []
  have scan : Token.scan (form.write ++ ['\n']) = lexemes := by
    simpa [Token.scan, Token.scanFrom, Token.finish] using scanned
  refine ⟨Position.openings (form.write ++ ['\n']), ?_⟩
  have forms : ofLexemes (form.write ++ ['\n']) lexemes = .ok [form] := by
    rw [ofLexemes, pushes]
    rfl
  simp [read, source, scan, forms, bind, Except.bind, pure, Except.pure]

end Form

end TypeGuard
