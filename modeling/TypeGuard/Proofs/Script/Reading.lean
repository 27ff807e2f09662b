import Mathlib.Data.Bool.AllAny
import Mathlib.Data.List.Forall2
import TypeGuard.Descriptor.Basic
import TypeGuard.Proofs.Number.Decimal
import TypeGuard.Proofs.Script.Literal
import TypeGuard.Proofs.Script.Numerals
import TypeGuard.Proofs.Script.Output
import TypeGuard.Script.Printer

/-!
# Reading printed expressions

A reader for the expressions that validators are built from: names, member accesses, calls, string
literals, arrays, objects, and the predicate that compares with an integer. `Expr.Plain.readable`
says that the printed text of such an expression is read back as the expression, whatever stands
behind it, so that `Expr.Plain.eq_of_print_eq` tells expressions apart by their texts.
-/

namespace TypeGuard

namespace Script

/-! ## Words -/

/-- A name of letters, digits, low lines and dollar signs. -/
def IsName (s : String) : Prop := s.toList ≠ [] ∧ ∀ c ∈ s.toList, isIdentifierPart c = true

instance (s : String) : Decidable (IsName s) :=
  decidable_of_iff (s.toList ≠ [] ∧ s.toList.all isIdentifierPart = true)
    (and_congr_right' List.all_eq_true)

/-- The text goes on with something that is neither part of a name nor a blank. -/
def Ends (r : List Char) : Prop := ∀ c ∈ r.head?, isIdentifierPart c = false ∧ c ≠ ' '

/-- What may stand behind an expression that is an item of a list. -/
def Stops (r : List Char) : Prop := ∀ c ∈ r.head?, c ∈ [',', ')', ']', '\x7d']

theorem ends_cons {c : Char} {r : List Char} (part : isIdentifierPart c = false) (blank : c ≠ ' ') :
    Ends (c :: r) := by
  intro d hd
  obtain rfl : c = d := by simpa using hd
  exact ⟨part, blank⟩

theorem stops_cons {c : Char} {r : List Char} (h : c ∈ [',', ')', ']', '\x7d']) :
    Stops (c :: r) := by
  intro d hd
  obtain rfl : c = d := by simpa using hd
  exact h

theorem Stops.ends {r : List Char} (h : Stops r) : Ends r := by
  intro c hc
  have closers : ∀ c ∈ [',', ')', ']', '\x7d'], isIdentifierPart c = false ∧ c ≠ ' ' :=
    List.all_iff_forall_prop.1 (by decide)
  exact closers c (h c hc)

/-- Reads a name. -/
def readWord (cs : List Char) : Option (String × List Char) :=
  match cs.takeWhile isIdentifierPart with
  | [] => none
  | name => some (.ofList name, cs.dropWhile isIdentifierPart)

theorem takeWhile_of_ends {r : List Char} (h : Ends r) : r.takeWhile isIdentifierPart = [] := by
  cases r with
  | nil => rfl
  | cons c r => simp [(h c (by simp)).1]

theorem dropWhile_of_ends {r : List Char} (h : Ends r) : r.dropWhile isIdentifierPart = r := by
  cases r with
  | nil => rfl
  | cons c r => simp [(h c (by simp)).1]

theorem readWord_append {name : String} (h : IsName name) {r : List Char} (ends : Ends r) :
    readWord (name.toList ++ r) = some (name, r) := by
  obtain ⟨some, parts⟩ := h
  unfold readWord
  rw [List.takeWhile_append_of_pos parts, List.dropWhile_append_of_pos parts,
    takeWhile_of_ends ends, dropWhile_of_ends ends, List.append_nil]
  split
  next none => exact absurd none some
  · rw [String.ofList_toList]

theorem readWord_of_ends {r : List Char} (h : Ends r) : readWord r = none := by
  simp [readWord, takeWhile_of_ends h]

/-! ## Items between commas -/

section
variable {α : Type} (item : List Char → Option (α × List Char)) (close : Char)

/-- Reads at most `n` items up to the closing character. -/
def readUpTo : Nat → List Char → Option (List α × List Char)
  | 0, _ => none
  | n + 1, cs =>
    match item cs with
    | some (a, ',' :: ' ' :: rest) => do
      let (others, rest) ← readUpTo n rest
      return (a :: others, rest)
    | some (a, c :: rest) => if c = close then some ([a], rest) else none
    | some (_, []) => none
    | none =>
      match cs with
      | c :: rest => if c = close then some ([], rest) else none
      | [] => none

/-- Reads the items up to the closing character. -/
def readItems (cs : List Char) : Option (List α × List Char) := readUpTo item close (cs.length + 1) cs

variable {item close}

theorem readUpTo_commas (closer : close ∈ [')', ']', '\x7d'])
    (closed : ∀ r, item (close :: r) = none) {xs : List α} {ts : List String}
    (each : List.Forall₂ (fun x t => ∀ r, Stops r → item (t.toList ++ r) = some (x, r)) xs ts)
    (r : List Char) {n : Nat} (enough : xs.length ≤ n) :
    readUpTo item close (n + 1) ((commas ts).toList ++ close :: r) = some (xs, r) := by
  have stops : Stops (close :: r) := stops_cons (List.mem_cons_of_mem _ closer)
  induction each generalizing n with
  | nil => simp [commas, readUpTo, closed]
  | @cons x t xs ts first others ih =>
    obtain ⟨k, rfl⟩ : ∃ k, n = k + 1 := ⟨n - 1, by simp at enough; omega⟩
    cases others with
    | nil =>
      have comma : close ≠ ',' := by rintro rfl; exact absurd closer (by decide)
      simp [commas, readUpTo, first _ stops, comma]
    | @cons y u ys us second later =>
      have text : (commas (t :: u :: us)).toList ++ close :: r
          = t.toList ++ ',' :: ' ' :: ((commas (u :: us)).toList ++ close :: r) := by
        simp [commas, String.intercalate_cons_cons]
      have rest := ih (n := k) (by simp at enough ⊢; omega)
      have here := first (',' :: ' ' :: ((commas (u :: us)).toList ++ close :: r))
        (stops_cons (by simp))
      rw [text]
      unfold readUpTo
      simp only [here, rest, Option.bind_eq_bind, Option.bind_some, Option.pure_def]

theorem length_le_commas (ts : List String) : ts.length ≤ (commas ts).toList.length + 1 := by
  induction ts with
  | nil => simp
  | cons t ts ih =>
    cases ts with
    | nil => simp
    | cons u us =>
      simp only [commas, String.intercalate_cons_cons, String.toList_append, List.length_append,
        List.length_cons] at ih ⊢
      have separator : (", " : String).toList.length = 2 := rfl
      omega

/-- Items that are read one by one are read together. -/
theorem readItems_commas (closer : close ∈ [')', ']', '\x7d'])
    (closed : ∀ r, item (close :: r) = none) {xs : List α} {ts : List String}
    (each : List.Forall₂ (fun x t => ∀ r, Stops r → item (t.toList ++ r) = some (x, r)) xs ts)
    (r : List Char) :
    readItems item close ((commas ts).toList ++ close :: r) = some (xs, r) := by
  refine readUpTo_commas closer closed each r ?_
  have bound := length_le_commas ts
  have same := each.length_eq
  simp only [List.length_append, List.length_cons]
  omega

end

/-! ## The comparison with an integer -/

/-- The text in front of the integer. -/
def equalsHeader : List Char := "function (n) \x7b return n === ".toList

/-- The text behind the integer. -/
def equalsFooter : List Char := "; \x7d".toList

/-- Reads the predicate that compares with an integer. -/
def readEquals (cs : List Char) : Option (Expr × List Char) := do
  let cs ← cs.dropPrefix? equalsHeader
  let value ← Numeral.signed? (cs.takeWhile (· ≠ ';'))
  let cs ← (cs.dropWhile (· ≠ ';')).dropPrefix? equalsFooter
  return (Descriptor.equalsPredicate (.int value), cs)

theorem dropPrefix?_append (front r : List Char) : (front ++ r).dropPrefix? front = some r :=
  List.dropPrefix?_eq_some_iff.2 ⟨front, rfl, by simp⟩

/-- A word is not taken for the beginning of the predicate. -/
theorem readEquals_name {name : List Char} (h : ∀ c ∈ name, isIdentifierPart c = true)
    {r : List Char} (ends : Ends r) : readEquals (name ++ r) = none := by
  have other : (name ++ r).dropPrefix? equalsHeader = none := by
    rw [Option.eq_none_iff_forall_ne_some]
    intro rest found
    obtain ⟨front, text, same⟩ := List.dropPrefix?_eq_some_iff.1 found
    obtain rfl : front = equalsHeader := by simpa using same
    -- behind its first word the header has a blank
    have behind := congrArg (List.dropWhile isIdentifierPart) text
    have blank : ((equalsHeader ++ rest).dropWhile isIdentifierPart).head? = some ' ' := rfl
    rw [← behind, List.dropWhile_append_of_pos h, dropWhile_of_ends ends] at blank
    exact (ends ' ' (by simp [blank])).2 rfl
  simp [readEquals, other]

theorem readEquals_of_ends {r : List Char} (ends : Ends r) : readEquals r = none :=
  @readEquals_name [] (by simp) _ ends

theorem ne_semicolon_of_mem_toString {n : Int} {c : Char} (h : c ∈ (toString n).toList) :
    c ≠ ';' := by
  rintro rfl
  obtain digit | minus := Numeral.isDigit_or_minus_of_mem_toString h
  · exact absurd digit (by decide)
  · exact absurd minus (by decide)

theorem readEquals_equals (n : Int) (r : List Char) :
    readEquals (equalsHeader ++ (toString n).toList ++ equalsFooter ++ r)
      = some (Descriptor.equalsPredicate (.int n), r) := by
  have digits : ∀ c ∈ (toString n).toList, decide (c ≠ ';') = true := fun c h =>
    decide_eq_true (ne_semicolon_of_mem_toString h)
  have footer : equalsFooter ++ r = ';' :: ' ' :: '\x7d' :: r := rfl
  have taken : ((toString n).toList ++ (equalsFooter ++ r)).takeWhile (· ≠ ';')
      = (toString n).toList := by
    rw [List.takeWhile_append_of_pos digits, footer]
    simp
  have left : ((toString n).toList ++ (equalsFooter ++ r)).dropWhile (· ≠ ';')
      = equalsFooter ++ r := by
    rw [List.dropWhile_append_of_pos digits, footer]
    simp
  simp only [readEquals, List.append_assoc, dropPrefix?_append, Option.bind_eq_bind,
    Option.bind_some, taken, left, Numeral.signed?_toString, Option.pure_def]

/-! ## Expressions -/

/-- Reads what stands behind the key of an entry, given how values are read. -/
def readValue (value : List Char → Option (Expr × List Char)) (key : String) :
    List Char → Option (Entry Expr × List Char)
  | ':' :: ' ' :: cs => do
    let (e, cs) ← value cs
    return (.pair key e, cs)
  | cs => some (.pair key (.ident key), cs)

/-- Reads an entry of an object. -/
def readEntry (value : List Char → Option (Expr × List Char)) (cs : List Char) :
    Option (Entry Expr × List Char) :=
  match cs with
  | '"' :: cs => do
    let (key, cs) ← Literal.read cs
    readValue value (.ofList key) cs
  | cs => do
    let (key, cs) ← readWord cs
    readValue value key cs

mutual

/-- Reads an expression. -/
def readExpr : Nat → List Char → Option (Expr × List Char)
  | 0, _ => none
  | n + 1, cs =>
    match cs with
    | '"' :: cs => do
      let (s, cs) ← Literal.read cs
      return (.string (.ofList s), cs)
    | '[' :: cs => do
      let (elements, cs) ← readItems (readExpr n) ']' cs
      return (.array elements, cs)
    | '\x7b' :: cs => do
      let (entries, cs) ← readItems (readEntry (readExpr n)) '\x7d' cs
      return (.object entries, cs)
    | cs =>
      match readEquals cs with
      | some found => some found
      | none => do
        let (name, cs) ← readWord cs
        readRest n (.ident name) cs

/-- Reads the accesses and calls behind an expression. -/
def readRest : Nat → Expr → List Char → Option (Expr × List Char)
  | 0, _, _ => none
  | n + 1, e, '.' :: cs => do
    let (prop, cs) ← readWord cs
    readRest n (.member e prop) cs
  | n + 1, e, '(' :: cs => do
    let (args, cs) ← readItems (readExpr n) ')' cs
    readRest n (.call e args) cs
  | _ + 1, e, cs => some (e, cs)

end

theorem readExpr_closer (n : Nat) {close : Char} (h : close ∈ [')', ']', '\x7d']) (r : List Char) :
    readExpr n (close :: r) = none := by
  have ends : Ends (close :: r) := (stops_cons (List.mem_cons_of_mem _ h)).ends
  cases n with
  | zero => rfl
  | succ n =>
    have opener : close ≠ '"' ∧ close ≠ '[' ∧ close ≠ '\x7b' := by
      refine ⟨?_, ?_, ?_⟩ <;> (rintro rfl; exact absurd h (by decide))
    simp [readExpr, opener, readEquals_of_ends ends, readWord_of_ends ends]

theorem readEntry_closer (value : List Char → Option (Expr × List Char)) (r : List Char) :
    readEntry value ('\x7d' :: r) = none := by
  have ends : Ends ('\x7d' :: r) := ends_cons (by decide) (by decide)
  simp [readEntry, readWord_of_ends ends]

/-- A word in front of a text that ends it. -/
theorem readExpr_name {name : String} (h : IsName name) (n : Nat) {r : List Char} (ends : Ends r) :
    readExpr (n + 1) (name.toList ++ r) = readRest n (.ident name) r := by
  obtain ⟨c, cs, text⟩ := List.exists_cons_of_ne_nil h.1
  have part : isIdentifierPart c = true := h.2 c (by simp [text])
  have opener : c ≠ '"' ∧ c ≠ '[' ∧ c ≠ '\x7b' := by
    refine ⟨?_, ?_, ?_⟩ <;> (rintro rfl; exact absurd part (by decide))
  have word := readWord_append h ends
  have other := readEquals_name h.2 ends
  rw [text, List.cons_append] at word other ⊢
  simp [readExpr, opener, other, word]

/-! ## Entries -/

theorem isName_of_isIdentifierKey {key : String} (line : '\n' ∉ key.toList)
    (h : isIdentifierKey key.toList = true) : IsName key := by
  have last : key.toList.getLast? ≠ some '\n' := fun found => line (List.mem_of_getLast? found)
  rw [isIdentifierKey, if_neg last] at h
  split at h
  · simp at h
  next c rest text =>
    rw [Bool.and_eq_true, List.all_eq_true] at h
    refine ⟨by simp [text], ?_⟩
    rw [text, List.forall_mem_cons]
    exact ⟨by simp [isIdentifierPart, h.1], h.2⟩

theorem readEntry_name (value : List Char → Option (Expr × List Char)) {key : String}
    (h : IsName key) {r : List Char} (ends : Ends r) :
    readEntry value (key.toList ++ r) = readValue value key r := by
  obtain ⟨c, cs, text⟩ := List.exists_cons_of_ne_nil h.1
  have part : isIdentifierPart c = true := h.2 c (by simp [text])
  have quote : c ≠ '"' := by
    rintro rfl
    exact absurd part (by decide)
  have word := readWord_append h ends
  rw [text, List.cons_append] at word ⊢
  simp [readEntry, quote, word]

/-- A key and a value. -/
theorem readEntry_pair {value : List Char → Option (Expr × List Char)} {key text : String}
    {e : Expr} {r : List Char} (line : '\n' ∉ key.toList)
    (h : value (text.toList ++ r) = some (e, r)) :
    readEntry value ((propertyKey key ++ ": " ++ text).toList ++ r) = some (.pair key e, r) := by
  have colon : (": " : String).toList = [':', ' '] := rfl
  unfold propertyKey
  split
  next bare =>
    have name := isName_of_isIdentifierKey line bare
    have ends : Ends (':' :: ' ' :: (text.toList ++ r)) := ends_cons (by decide) (by decide)
    have read := readEntry_name value name ends
    simpa [colon, readValue, h] using read
  next quoted =>
    have literal := Literal.read_escaped key.toList (':' :: ' ' :: (text.toList ++ r))
    simp [stringLiteral, colon, readEntry, readValue, literal, h]

/-- A name under its own key. -/
theorem readEntry_shorthand (value : List Char → Option (Expr × List Char)) {key : String}
    (h : IsName key) {r : List Char} (stops : Stops r) :
    readEntry value (key.toList ++ r) = some (.pair key (.ident key), r) := by
  rw [readEntry_name value h stops.ends, readValue]
  rintro cs rfl
  exact absurd (stops ':' (by simp)) (by decide)

/-! ## What is printed is read -/

/-- With enough fuel the text is read as the expression, whatever item or bracket follows. -/
def Reads (e : Expr) (text : String) : Prop :=
  ∃ n, ∀ m, n ≤ m → ∀ r, Stops r → readExpr m (text.toList ++ r) = some (e, r)

/-- Reading the text comes down to reading on behind the expression. -/
def Continues (e : Expr) (text : String) : Prop :=
  ∃ n k, ∀ m, n ≤ m → ∀ r, Ends r → readExpr (m + k) (text.toList ++ r) = readRest m e r

theorem readRest_of_stops (n : Nat) (e : Expr) {r : List Char} (h : Stops r) :
    readRest (n + 1) e r = some (e, r) := by
  rw [readRest]
  · rintro cs rfl
    exact absurd (h '.' (by simp)) (by decide)
  · rintro cs rfl
    exact absurd (h '(' (by simp)) (by decide)

theorem Continues.reads {e : Expr} {text : String} (h : Continues e text) : Reads e text := by
  obtain ⟨n, k, read⟩ := h
  refine ⟨n + 1 + k, fun m enough r stops => ?_⟩
  obtain ⟨j, rfl⟩ : ∃ j, m = j + 1 + k := ⟨m - 1 - k, by omega⟩
  rw [read (j + 1) (by omega) r stops.ends, readRest_of_stops j e stops]

theorem continues_ident {name : String} (h : IsName name) : Continues (.ident name) name :=
  ⟨0, 1, fun m _ _ ends => readExpr_name h m ends⟩

theorem Continues.member {e : Expr} {text prop : String} (h : Continues e text)
    (name : IsName prop) : Continues (.member e prop) (text ++ "." ++ prop) := by
  obtain ⟨n, k, read⟩ := h
  refine ⟨n, 1 + k, fun m enough r ends => ?_⟩
  have front : (text ++ "." ++ prop).toList ++ r = text.toList ++ '.' :: (prop.toList ++ r) := by
    simp
  rw [front, ← Nat.add_assoc,
    read (m + 1) (by omega) _ (ends_cons (by decide) (by decide))]
  simp [readRest, readWord_append name ends]

/-- One fuel is enough for all items of a list. -/
theorem exists_fuel_forall₂ {α β : Type} {R : Nat → α → β → Prop} {as : List α} {bs : List β}
    (h : List.Forall₂ (fun a b => ∃ n, ∀ m, n ≤ m → R m a b) as bs) :
    ∃ n, ∀ m, n ≤ m → List.Forall₂ (R m) as bs := by
  induction h with
  | nil => exact ⟨0, fun _ _ => .nil⟩
  | cons first _ ih =>
    obtain ⟨n, hn⟩ := first
    obtain ⟨k, hk⟩ := ih
    refine ⟨max n k, fun m enough => .cons (hn m ?_) (hk m ?_)⟩
    · omega
    · omega

theorem Continues.call {e : Expr} {text : String} (h : Continues e text) {args : List Expr}
    {ts : List String} (each : List.Forall₂ Reads args ts) :
    Continues (.call e args) (text ++ "(" ++ commas ts ++ ")") := by
  obtain ⟨n, k, read⟩ := h
  obtain ⟨j, items⟩ := exists_fuel_forall₂ each
  refine ⟨max n j, 1 + k, fun m enough r ends => ?_⟩
  have front : (text ++ "(" ++ commas ts ++ ")").toList ++ r
      = text.toList ++ '(' :: ((commas ts).toList ++ ')' :: r) := by simp
  have inside : readItems (readExpr m) ')' ((commas ts).toList ++ ')' :: r) = some (args, r) :=
    readItems_commas (by simp) (readExpr_closer m (by simp)) (items m (by omega)) r
  rw [front, ← Nat.add_assoc,
    read (m + 1) (by omega) _ (ends_cons (by decide) (by decide))]
  simp [readRest, inside]

theorem reads_string (s : String) : Reads (.string s) (stringLiteral s) := by
  refine ⟨1, fun m enough r _ => ?_⟩
  obtain ⟨k, rfl⟩ : ∃ k, m = k + 1 := ⟨m - 1, by omega⟩
  simp [stringLiteral, readExpr, Literal.read_escaped]

theorem reads_array {elements : List Expr} {ts : List String}
    (each : List.Forall₂ Reads elements ts) :
    Reads (.array elements) ("[" ++ commas ts ++ "]") := by
  obtain ⟨n, items⟩ := exists_fuel_forall₂ each
  refine ⟨n + 1, fun m enough r _ => ?_⟩
  obtain ⟨k, rfl⟩ : ∃ k, m = k + 1 := ⟨m - 1, by omega⟩
  have inside : readItems (readExpr k) ']' ((commas ts).toList ++ ']' :: r) = some (elements, r) :=
    readItems_commas (by simp) (readExpr_closer k (by simp)) (items k (by omega)) r
  simp [readExpr, inside]

/-- With enough fuel the text is read as the entry. -/
def ReadsEntry (entry : Entry Expr) (text : String) : Prop :=
  ∃ n, ∀ m, n ≤ m → ∀ r, Stops r → readEntry (readExpr m) (text.toList ++ r) = some (entry, r)

theorem reads_object {entries : List (Entry Expr)} {ts : List String}
    (each : List.Forall₂ ReadsEntry entries ts) :
    Reads (.object entries) (inBraces (commas ts)) := by
  obtain ⟨n, items⟩ := exists_fuel_forall₂ each
  refine ⟨n + 1, fun m enough r _ => ?_⟩
  obtain ⟨k, rfl⟩ : ∃ k, m = k + 1 := ⟨m - 1, by omega⟩
  have inside := readItems_commas (by simp) (readEntry_closer (readExpr k)) (items k (by omega)) r
  simp [inBraces, openBrace, closeBrace, readExpr, inside]

theorem Reads.entry {key text : String} {e : Expr} (h : Reads e text) (line : '\n' ∉ key.toList) :
    ReadsEntry (.pair key e) (propertyKey key ++ ": " ++ text) := by
  obtain ⟨n, read⟩ := h
  exact ⟨n, fun m enough r stops => readEntry_pair line (read m enough r stops)⟩

theorem readsEntry_shorthand {key : String} (h : IsName key) :
    ReadsEntry (.pair key (.ident key)) key :=
  ⟨0, fun _ _ _ stops => readEntry_shorthand _ h stops⟩

/-- The text of the predicate that compares with an integer. -/
def equalsText (n : Int) : String :=
  .ofList (equalsHeader ++ (toString n).toList ++ equalsFooter)

theorem reads_equals (n : Int) : Reads (Descriptor.equalsPredicate (.int n)) (equalsText n) := by
  refine ⟨1, fun m enough r _ => ?_⟩
  obtain ⟨k, rfl⟩ : ∃ k, m = k + 1 := ⟨m - 1, by omega⟩
  have read := readEquals_equals n r
  have front : equalsHeader = 'f' :: equalsHeader.tail := rfl
  rw [equalsText, String.toList_ofList]
  rw [front, List.cons_append, List.cons_append, List.cons_append] at read ⊢
  generalize equalsHeader.tail ++ (toString n).toList ++ equalsFooter ++ r = rest at read ⊢
  simp [readExpr, read]

/-! ## Printing -/

theorem hasCommentMark_of_not_mem {cs : List Char} (h : '/' ∉ cs) : hasCommentMark cs = false := by
  induction cs with
  | nil => rfl
  | cons c cs ih =>
    obtain ⟨hc, hcs⟩ : '/' ≠ c ∧ '/' ∉ cs := by simpa using h
    rw [hasCommentMark]
    · exact ih hcs
    · rintro rest rfl
      exact absurd rfl hc

/-- A single visible line is emitted with its line feed. -/
theorem text_emit_line (unit : String) {cs : List Char} (line : '\n' ∉ cs)
    (visible : cs.all Text.isBlank = false) :
    (({ unit } : Layout).emit (.ofList cs)).text = .ofList (cs ++ ['\n']) := by
  apply String.toList_injective
  have margin : ({ unit } : Layout).margin.toList = [] := rfl
  rw [Layout.text_emit, Layout.added]
  simp [Text.splitList_of_not_mem line, placed, visible, margin, ended]

/-- A single line that is returned stays on the line of the header. -/
theorem braced_line (unit header : String) (argument : Option Expr) {cs : List Char} {c : Char}
    (line : '\n' ∉ cs ++ [c]) (mark : '/' ∉ cs ++ [c]) :
    braced unit header [.ret argument] (.ofList (cs ++ [c] ++ ['\n']))
      = header ++ " " ++ openBrace ++ " " ++ .ofList (cs ++ [c]) ++ " " ++ closeBrace := by
  have last : c ≠ '\n' := by
    rintro rfl
    exact line (by simp)
  have lines : Text.lines (.ofList (trimEnd (cs ++ [c] ++ ['\n']))) = [.ofList (cs ++ [c])] := by
    rw [trimEnd_append_newline last, Text.lines, Text.split, String.toList_ofList,
      Text.splitList_of_not_mem line]
    rfl
  simp only [braced, List.isEmpty_cons, String.toList_ofList, lines,
    hasCommentMark_of_not_mem mark, Bool.or_false, Bool.false_eq_true, if_false]

section
variable (unit : String)

/-- The statement of the predicate that compares with a number, without its semicolon. -/
def equalsLine (n : Number) : List Char := "return n === ".toList ++ n.render.toList

theorem ne_of_mem_equalsLine {n : Number} {c : Char} (h : c ∈ equalsLine n ++ [';']) :
    c ≠ '\n' ∧ c ≠ '/' := by
  have fixed : ∀ c ∈ "return n === ".toList, c ≠ '\n' ∧ c ≠ '/' :=
    List.all_iff_forall_prop.1 (by decide)
  obtain front | last := List.mem_append.1 h
  · obtain word | digit := List.mem_append.1 front
    · exact fixed c word
    · exact Number.ne_of_mem_render digit
  · obtain rfl := List.mem_singleton.1 last
    decide

theorem printStmts_equals (n : Number) :
    printStmts unit [.ret (some (.binary "===" (.ident "n") (.number n)))] { unit }
      = .ok (({ unit } : Layout).emit (.ofList (equalsLine n ++ [';']))) := by
  have code : "return " ++ ("n" ++ " " ++ "===" ++ " " ++ n.render) ++ ";"
      = String.ofList (equalsLine n ++ [';']) := by
    apply String.toList_injective
    unfold equalsLine
    generalize n.render = value
    simp
  rw [← code]
  rfl

/-- The predicate that compares with a number stands on one line. -/
theorem printExpr_equalsPredicate (n : Number) :
    printExpr unit (Descriptor.equalsPredicate n)
      = .ok ("function (n) " ++ inBraces (" return n === " ++ n.render ++ "; ")) := by
  have line : '\n' ∉ equalsLine n ++ [';'] := fun h => (ne_of_mem_equalsLine h).1 rfl
  have mark : '/' ∉ equalsLine n ++ [';'] := fun h => (ne_of_mem_equalsLine h).2 rfl
  have visible : (equalsLine n ++ [';']).all Text.isBlank = false := by
    rw [List.all_eq_false]
    exact ⟨';', by simp, by decide⟩
  have header : "function " ++ (none : Option String).getD "" ++ "(" ++ commas ["n"] ++ ")"
      = "function (n)" := rfl
  have text : "function (n)" ++ " " ++ openBrace ++ " " ++ .ofList (equalsLine n ++ [';']) ++ " "
      ++ closeBrace = "function (n) " ++ inBraces (" return n === " ++ n.render ++ "; ") := by
    unfold equalsLine inBraces
    generalize n.render = value
    apply String.toList_injective
    simp
  rw [Descriptor.equalsPredicate, printExpr]
  simp only [printParams, printParam, printPattern, printStmts_equals, bind, Except.bind, pure,
    Except.pure, text_emit_line unit line visible, braced_line unit _ _ line mark, header, text]

theorem printExpr_equals (n : Int) :
    printExpr unit (Descriptor.equalsPredicate (.int n)) = .ok (equalsText n) := by
  have front : equalsHeader = ("function (n) " ++ openBrace ++ " return n === ").toList := by decide
  have back : equalsFooter = ("; " ++ closeBrace).toList := by decide
  have text : "function (n) " ++ inBraces (" return n === " ++ toString n ++ "; ")
      = equalsText n := by
    unfold equalsText inBraces
    generalize toString n = digits
    apply String.toList_injective
    simp [front, back]
  rw [printExpr_equalsPredicate, ← text]
  rfl

theorem printExprs_reads {es : List Expr}
    (h : ∀ e ∈ es, ∃ text, printExpr unit e = .ok text ∧ Reads e text) :
    ∃ ts, printExprs unit es = .ok ts ∧ List.Forall₂ Reads es ts := by
  induction es with
  | nil => exact ⟨[], rfl, .nil⟩
  | cons e es ih =>
    obtain ⟨⟨text, printed, reads⟩, others⟩ := List.forall_mem_cons.1 h
    obtain ⟨ts, rest, each⟩ := ih others
    refine ⟨text :: ts, ?_, .cons reads each⟩
    simp only [printExprs, printed, rest, bind, Except.bind, pure, Except.pure]

end

end Script

open Script

/-- A name, an access to a member, or a call. -/
def Expr.isOperand : Expr → Bool
  | .ident _ | .member _ _ | .call _ _ => true
  | _ => false

theorem Expr.needsParens_of_isOperand {e : Expr} (h : e.isOperand = true) :
    needsParens e = false := by
  cases e <;> first | rfl | cases h

/-- The expressions that validators are built from. -/
inductive Expr.Plain : Expr → Prop where
  | ident {name : String} : IsName name → Plain (.ident name)
  | member {object : Expr} {prop : String} :
    Plain object → object.isOperand = true → IsName prop → Plain (.member object prop)
  | call {callee : Expr} {args : List Expr} :
    Plain callee → callee.isOperand = true → (∀ e ∈ args, Plain e) → Plain (.call callee args)
  | string (value : String) : Plain (.string value)
  | array {elements : List Expr} : (∀ e ∈ elements, Plain e) → Plain (.array elements)
  | object {props : List (String × Expr)} :
    (∀ p ∈ props, '\n' ∉ p.1.toList) → (∀ p ∈ props, Plain p.2) →
    Plain (.object (props.map fun p => .pair p.1 p.2))
  | equals (n : Int) : Plain (Descriptor.equalsPredicate (.int n))

theorem Expr.Plain.isName {name : String} (h : (Expr.ident name).Plain) : IsName name := by
  cases h with
  | ident isName => exact isName

section
variable (unit : String)

/-- However a property is written, it is read as the property. -/
theorem printEntries_cons {key : String} {e : Expr} {text : String} (line : '\n' ∉ key.toList)
    (plain : e.Plain) (printed : printExpr unit e = .ok text) (reads : Reads e text)
    {entries : List (Entry Expr)} {ts : List String} (rest : printEntries unit entries = .ok ts) :
    ∃ t, printEntries unit (.pair key e :: entries) = .ok (t :: ts)
      ∧ ReadsEntry (.pair key e) t := by
  cases e with
  | ident name =>
    by_cases same : name = key
    · subst same
      refine ⟨name, ?_, readsEntry_shorthand plain.isName⟩
      simp [printEntries, rest, bind, Except.bind, pure, Except.pure]
    · obtain rfl : name = text := Except.ok.inj printed
      refine ⟨propertyKey key ++ ": " ++ name, ?_, reads.entry line⟩
      simp [printEntries, same, rest, bind, Except.bind, pure, Except.pure]
  | raw | this | member | call | string | number | array | object | spread | binary | function
  | arrow | stray =>
    refine ⟨propertyKey key ++ ": " ++ text, ?_, reads.entry line⟩
    simp only [printEntries, printed, rest, bind, Except.bind, pure, Except.pure]

theorem printEntries_reads {props : List (String × Expr)}
    (lines : ∀ p ∈ props, '\n' ∉ p.1.toList) (plain : ∀ p ∈ props, p.2.Plain)
    (h : ∀ p ∈ props, ∃ text, printExpr unit p.2 = .ok text ∧ Reads p.2 text) :
    ∃ ts, printEntries unit (props.map fun p => .pair p.1 p.2) = .ok ts
      ∧ List.Forall₂ ReadsEntry (props.map fun p => .pair p.1 p.2) ts := by
  induction props with
  | nil => exact ⟨[], rfl, .nil⟩
  | cons p props ih =>
    obtain ⟨line, otherLines⟩ := List.forall_mem_cons.1 lines
    obtain ⟨first, others⟩ := List.forall_mem_cons.1 plain
    obtain ⟨⟨text, printed, reads⟩, later⟩ := List.forall_mem_cons.1 h
    obtain ⟨ts, rest, each⟩ := ih otherLines others later
    obtain ⟨t, here, entry⟩ := printEntries_cons unit line first printed reads rest
    exact ⟨t :: ts, here, .cons entry each⟩

namespace Expr

/-- A plain expression has a text, and the text is read as the expression. -/
theorem Plain.readable {e : Expr} (h : e.Plain) : ∃ text, printExpr unit e = .ok text
    ∧ Reads e text ∧ (e.isOperand = true → Continues e text) := by
  induction h with
  | @ident name isName =>
    have continues := continues_ident isName
    exact ⟨name, rfl, continues.reads, fun _ => continues⟩
  | @member object prop _ operand isName ih =>
    obtain ⟨text, printed, -, inner⟩ := ih
    have continues := (inner operand).member isName
    refine ⟨text ++ "." ++ prop, ?_, continues.reads, fun _ => continues⟩
    simp [printExpr, printed, needsParens_of_isOperand operand, bind, Except.bind, pure,
      Except.pure]
  | @call callee args _ operand _ ih each =>
    obtain ⟨text, printed, -, inner⟩ := ih
    obtain ⟨ts, printedArgs, reads⟩ := printExprs_reads unit fun e member =>
      let ⟨text, printed, reads, _⟩ := each e member
      ⟨text, printed, reads⟩
    have continues := (inner operand).call reads
    refine ⟨text ++ "(" ++ commas ts ++ ")", ?_, continues.reads, fun _ => continues⟩
    simp [printExpr, printed, printedArgs, needsParens_of_isOperand operand, bind, Except.bind,
      pure, Except.pure]
  | string value => exact ⟨stringLiteral value, rfl, reads_string value, by simp [isOperand]⟩
  | @array elements _ each =>
    obtain ⟨ts, printed, reads⟩ := printExprs_reads unit fun e member =>
      let ⟨text, printed, reads, _⟩ := each e member
      ⟨text, printed, reads⟩
    refine ⟨"[" ++ commas ts ++ "]", ?_, reads_array reads, by simp [isOperand]⟩
    simp [printExpr, printed, bind, Except.bind, pure, Except.pure]
  | @object props lines plain each =>
    obtain ⟨ts, printed, reads⟩ := printEntries_reads unit lines plain fun p member =>
      let ⟨text, printed, reads, _⟩ := each p member
      ⟨text, printed, reads⟩
    refine ⟨inBraces (commas ts), ?_, reads_object reads, by simp [isOperand]⟩
    simp [printExpr, printed, bind, Except.bind, pure, Except.pure]
  | equals n =>
    exact ⟨equalsText n, printExpr_equals unit n, reads_equals n,
      by simp [Descriptor.equalsPredicate, isOperand]⟩

/-- Plain expressions of the same text are the same. -/
theorem Plain.eq_of_print_eq {first second : Expr} (h₁ : first.Plain) (h₂ : second.Plain)
    (same : printExpr unit first = printExpr unit second) : first = second := by
  obtain ⟨text, printed, ⟨n, read⟩, -⟩ := h₁.readable unit
  obtain ⟨text', printed', ⟨k, read'⟩, -⟩ := h₂.readable unit
  obtain rfl : text = text' := by
    rw [printed, printed'] at same
    exact Except.ok.inj same
  have none : Stops [] := by simp [Stops]
  have left := read (max n k) (by omega) [] none
  have right := read' (max n k) (by omega) [] none
  rw [left] at right
  simpa using right

end Expr

end

end TypeGuard
