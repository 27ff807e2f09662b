import TypeGuard.Text.Ranges

/-!
# Blanks

Two classes of white space. The narrow one separates the tokens of a source text; the wide one is
what counts as blank at the ends of a line or of a numeral.
-/

namespace TypeGuard.Text

/-- White space between tokens: the ASCII space, tab, line feed, carriage return, vertical tab and
form feed. -/
def isSpace (c : Char) : Bool :=
  c.toNat = 0x20 || (0x09 ≤ c.toNat && c.toNat ≤ 0x0d)

/-- The blank code points, as closed ranges in ascending order. -/
def blankRanges : List (Nat × Nat) := [
  (0x09, 0x0d), (0x1c, 0x20), (0x85, 0x85), (0xa0, 0xa0), (0x1680, 0x1680), (0x2000, 0x200a),
  (0x2028, 0x2029), (0x202f, 0x202f), (0x205f, 0x205f), (0x3000, 0x3000)]

def isBlank (c : Char) : Bool := inRanges blankRanges c.toNat

/-- The text without its blank ends. -/
def strip (p : Char → Bool) (cs : List Char) : List Char :=
  ((cs.dropWhile p).reverse.dropWhile p).reverse

/-- A text with nothing but blanks in it. -/
def isBlankText (s : String) : Bool := s.toList.all isBlank

theorem isBlank_of_isSpace {c : Char} (h : isSpace c = true) : isBlank c = true := by
  simp only [isSpace, isBlank, blankRanges, inRanges, Bool.or_eq_true, Bool.and_eq_true,
    decide_eq_true_eq, List.any_cons] at h ⊢
  omega

end TypeGuard.Text
