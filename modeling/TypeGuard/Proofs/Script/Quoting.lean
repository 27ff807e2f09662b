import Mathlib.Data.List.Induction
import TypeGuard.Proofs.Script.Literal

/-!
# String literals and keys

A string literal is printable ASCII between two quotes, none of the quotes inside stands unescaped,
and reading it gives the text it was written for. A property key without a line feed is written as
it is if it is an identifier, and as such a literal otherwise.

## Main definitions

* `Literal.Denotes`: the characters are a string literal for a text.
* `IsIdentifier`: a letter, a low line or a dollar sign, then any of these and digits.
-/

namespace TypeGuard.Script

namespace Literal

/-! ## Quotes inside a literal -/

/-- The character behind these ones is escaped: an odd number of backslashes stands at their end. -/
def EndsEscaping (front : List Char) : Prop :=
  (front.reverse.takeWhile (· == '\\')).length % 2 = 1

/-- Every quote among the characters is escaped. -/
def QuotesEscaped (body : List Char) : Prop :=
  ∀ front back, body = front ++ '"' :: back → EndsEscaping front

/-- Whether the next character is escaped, for a reader that was told so at the start or not. -/
def escaping (start : Bool) (cs : List Char) : Bool :=
  cs.foldl (fun escaped c => c == '\\' && !escaped) start

theorem escaping_append (start : Bool) (cs ds : List Char) :
    escaping start (cs ++ ds) = escaping (escaping start cs) ds :=
  List.foldl_append

theorem endsEscaping_concat (front : List Char) (c : Char) :
    EndsEscaping (front ++ [c]) ↔ c = '\\' ∧ ¬ EndsEscaping front := by
  unfold EndsEscaping
  by_cases backslash : c = '\\'
  · simp only [backslash, List.reverse_append, List.reverse_singleton, List.singleton_append,
      List.takeWhile_cons, beq_self_eq_true, if_true, List.length_cons, true_and]
    omega
  · simp [backslash]

/-- Counting the backslashes at the end comes to the same as reading from the front. -/
theorem endsEscaping_iff (front : List Char) :
    EndsEscaping front ↔ escaping false front = true := by
  induction front using List.reverseRecOn with
  | nil => simp [EndsEscaping, escaping]
  | append_singleton front c ih =>
    rw [endsEscaping_concat, ih, escaping_append]
    simp [escaping]

/-- The reader is not in the middle of an escape behind these characters, and meets quotes in such
a place only. -/
def Settled (cs : List Char) : Prop :=
  escaping false cs = false ∧
    ∀ front back, cs = front ++ '"' :: back → escaping false front = true

theorem settled_nil : Settled [] := ⟨rfl, by simp⟩

theorem Settled.append {cs ds : List Char} (hc : Settled cs) (hd : Settled ds) :
    Settled (cs ++ ds) := by
  refine ⟨by rw [escaping_append, hc.1, hd.1], ?_⟩
  intro front back split
  obtain ⟨middle, rfl, rest⟩ | ⟨middle, first, rest⟩ := List.append_eq_append_iff.1 split
  · -- The quote stands in the second part.
    rw [escaping_append, hc.1]
    exact hd.2 middle back rest
  · cases middle with
    | nil =>
      -- The second part would begin with a quote, which no backslash escapes.
      have bare : escaping false [] = true := hd.2 [] back rest.symm
      exact absurd bare (by decide)
    | cons c middle =>
      obtain ⟨rfl, -⟩ := List.cons_eq_cons.1 rest
      exact hc.2 front middle first

/-- A character that is neither a quote nor a backslash. -/
theorem settled_singleton {c : Char} (quote : c ≠ '"') (backslash : c ≠ '\\') : Settled [c] := by
  refine ⟨by simp [escaping, backslash], ?_⟩
  intro front back split
  cases front with
  | nil => simp [quote] at split
  | cons d front => simp at split

theorem settled_of_forall {cs : List Char} (h : ∀ c ∈ cs, c ≠ '"' ∧ c ≠ '\\') : Settled cs := by
  induction cs with
  | nil => exact settled_nil
  | cons c cs ih =>
    obtain ⟨first, others⟩ := List.forall_mem_cons.1 h
    exact (settled_singleton first.1 first.2).append (ih others)

/-- A backslash and the character it escapes. -/
theorem settled_escape (c : Char) : Settled ['\\', c] := by
  refine ⟨by simp [escaping], ?_⟩
  intro front back split
  rcases front with _ | ⟨d, _ | ⟨e, front⟩⟩
  · exact absurd (List.cons_eq_cons.1 split).1 (by decide)
  · obtain ⟨rfl, -⟩ := List.cons_eq_cons.1 split
    rfl
  · simp at split

/-! ## The characters of a literal -/

/-- The character is printable ASCII. -/
def Printable (c : Char) : Prop := 0x20 ≤ c.toNat ∧ c.toNat ≤ 0x7e

instance : DecidablePred Printable := fun c =>
  inferInstanceAs (Decidable (0x20 ≤ c.toNat ∧ c.toNat ≤ 0x7e))

theorem digitChar_plain : ∀ n < 16, Printable (Nat.digitChar n) ∧
    Nat.digitChar n ≠ '"' ∧ Nat.digitChar n ≠ '\\' := by decide

/-- The digits of a unit are printable, and neither quotes nor backslashes. -/
theorem hex_plain {unit : Nat} (h : unit < 0x10000) :
    ∀ c ∈ Text.hex 4 unit, Printable c ∧ c ≠ '"' ∧ c ≠ '\\' := by
  have first : unit / 0x1000 < 16 := by omega
  have later (n : Nat) : n % 16 < 16 := Nat.mod_lt n (by omega)
  rw [hex_four h]
  simp only [List.forall_mem_cons, List.not_mem_nil, false_implies, implies_true, and_true]
  exact ⟨digitChar_plain _ first, digitChar_plain _ (later _), digitChar_plain _ (later _),
    digitChar_plain _ (later _)⟩

/-- The characters can stand in a literal. -/
structure Fits (cs : List Char) : Prop where
  printable : ∀ c ∈ cs, Printable c
  settled : Settled cs

theorem fits_flatMap {α : Type} {as : List α} {f : α → List Char} (h : ∀ a ∈ as, Fits (f a)) :
    Fits (as.flatMap f) := by
  induction as with
  | nil => exact ⟨by simp, settled_nil⟩
  | cons a as ih =>
    obtain ⟨first, others⟩ := List.forall_mem_cons.1 h
    have later := ih others
    exact ⟨List.forall_mem_append.2 ⟨first.printable, later.printable⟩,
      first.settled.append later.settled⟩

theorem fits_escape {unit : Nat} (h : unit < 0x10000) : Fits ('\\' :: 'u' :: Text.hex 4 unit) := by
  have digits := hex_plain h
  refine ⟨?_, (settled_escape 'u').append (settled_of_forall fun d hd => (digits d hd).2)⟩
  simp only [List.forall_mem_cons]
  exact ⟨by decide, by decide, fun d hd => (digits d hd).1⟩

theorem fits_short {c : Char} (h : Printable c) : Fits ['\\', c] :=
  ⟨List.forall_mem_cons.2 ⟨by decide, List.forall_mem_singleton.2 h⟩, settled_escape c⟩

/-- A character is escaped by printable ones, and so that no quote is left bare. -/
theorem fits_escapeChar (c : Char) : Fits (escapeChar c) := by
  unfold escapeChar
  iterate 7
    split
    · exact fits_short (by decide)
  split
  next quote backslash _ _ _ _ _ printable =>
    exact ⟨List.forall_mem_singleton.2 printable, settled_singleton quote backslash⟩
  next => exact fits_flatMap fun unit member => fits_escape (units_lt member)

/-- The characters are a string literal for the text `s`. -/
structure Denotes (literal s : List Char) : Prop where
  printable : ∀ c ∈ literal, Printable c
  /-- The first quote that is not escaped is the last character, and what stands between the quotes
  is read as the text. -/
  enclosed : ∃ body, literal = '"' :: body ++ ['"'] ∧ QuotesEscaped body ∧
    read (body ++ ['"']) = some (s, [])

theorem denotes_stringLiteral (s : String) : Denotes (stringLiteral s).toList s.toList := by
  obtain ⟨printable, settled⟩ := fits_flatMap fun c (_ : c ∈ s.toList) => fits_escapeChar c
  rw [stringLiteral, String.toList_ofList]
  refine ⟨?_, s.toList.flatMap escapeChar, rfl, ?_, read_escaped s.toList []⟩
  · simp only [List.cons_append, List.forall_mem_cons, List.forall_mem_append]
    exact ⟨by decide, printable, by decide, by simp⟩
  · intro front back split
    exact (endsEscaping_iff front).2 (settled.2 front back split)

end Literal

/-! ## Keys -/

/-- The characters with which an identifier begins. -/
def StartsIdentifier (c : Char) : Prop :=
  ('A' ≤ c ∧ c ≤ 'Z') ∨ ('a' ≤ c ∧ c ≤ 'z') ∨ c = '_' ∨ c = '$'

/-- The characters are an identifier. -/
def IsIdentifier (cs : List Char) : Prop :=
  ∃ first later, cs = first :: later ∧ StartsIdentifier first ∧
    ∀ c ∈ later, StartsIdentifier c ∨ ('0' ≤ c ∧ c ≤ '9')

theorem isIdentifierStart_iff (c : Char) : isIdentifierStart c = true ↔ StartsIdentifier c := by
  have upper : c.isUpper = true ↔ 'A' ≤ c ∧ c ≤ 'Z' := decide_eq_true_iff
  have lower : c.isLower = true ↔ 'a' ≤ c ∧ c ≤ 'z' := by
    change (decide ('a' ≤ c) && decide (c ≤ 'z')) = true ↔ _
    simp
  change (c.isUpper || c.isLower || c == '_' || c == '$') = true ↔ _
  simp only [StartsIdentifier, Bool.or_eq_true, beq_iff_eq, upper, lower, or_assoc]

theorem isIdentifierPart_iff (c : Char) :
    isIdentifierPart c = true ↔ StartsIdentifier c ∨ ('0' ≤ c ∧ c ≤ '9') := by
  have digit : c.isDigit = true ↔ '0' ≤ c ∧ c ≤ '9' := by
    change (decide ('0' ≤ c) && decide (c ≤ '9')) = true ↔ _
    simp
  rw [isIdentifierPart, Bool.or_eq_true, isIdentifierStart_iff, digit]

/-- Without a line feed, exactly the identifiers pass for identifier keys. -/
theorem isIdentifierKey_iff {cs : List Char} (line : '\n' ∉ cs) :
    isIdentifierKey cs = true ↔ IsIdentifier cs := by
  have last : cs.getLast? ≠ some '\n' := fun h => line (List.mem_of_getLast? h)
  rw [isIdentifierKey, if_neg last]
  cases cs with
  | nil => simp [IsIdentifier]
  | cons c cs =>
    simp [IsIdentifier, isIdentifierStart_iff, isIdentifierPart_iff]

/-- A text is written as a string literal that is read as the text. A key without a line feed is
written as it is exactly if it is an identifier, and as such a literal if it is none. -/
theorem stringLiteral_denotes_and_propertyKey :
    (∀ s : String, Literal.Denotes (stringLiteral s).toList s.toList) ∧
    ∀ key : String, '\n' ∉ key.toList →
      (IsIdentifier key.toList ∧ propertyKey key = key) ∨
      (¬ IsIdentifier key.toList ∧ Literal.Denotes (propertyKey key).toList key.toList) := by
  refine ⟨Literal.denotes_stringLiteral, fun key line => ?_⟩
  have bare := isIdentifierKey_iff line
  unfold propertyKey
  split
  next identifier => exact .inl ⟨bare.1 identifier, rfl⟩
  next other =>
    exact .inr ⟨fun identifier => other (bare.2 identifier), Literal.denotes_stringLiteral key⟩

example : stringLiteral "é\"😀" = "\"\\u00e9\\\"\\ud83d\\ude00\"" := by decide

/-- A key that is no identifier, with a quote, a backslash and characters of one unit and of two. -/
def mixedKey : String := "first-\"é\\😀"

theorem mixedKey_denoted :
    '\n' ∉ mixedKey.toList ∧ Literal.Denotes (propertyKey mixedKey).toList mixedKey.toList := by
  have line : '\n' ∉ mixedKey.toList := by decide
  refine ⟨line, ?_⟩
  obtain ⟨identifier, -⟩ | ⟨-, denotes⟩ := stringLiteral_denotes_and_propertyKey.2 mixedKey line
  · have bare : isIdentifierKey mixedKey.toList = true := (isIdentifierKey_iff line).2 identifier
    exact absurd bare (by decide)
  · exact denotes

end TypeGuard.Script
