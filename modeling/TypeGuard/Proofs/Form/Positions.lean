import TypeGuard.Form.Reader
import TypeGuard.Proofs.Descriptor.Encoding

/-!
# Positions of lists

The positions of lists are found by a search of their own, which knows strings and comments but not
atoms, and are given to the lists in order. `Form.read_spells` says that this gives each list the
place of the parenthesis it was read from, in every text without backslashes, apostrophes and square
brackets outside strings and comments, and without escaped line ends in strings.
-/

namespace TypeGuard

/-! ## Where a character stands -/

/-- The column of the character behind `before`, counted from zero. -/
def Position.column (before : List Char) : Nat := (before.reverse.takeWhile (· != '\n')).length

/-- The line and the column of the character at an offset of a text. -/
def Position.ofOffset (cs : List Char) (offset : Nat) : Position :=
  ⟨(cs.take offset).count '\n' + 1, column (cs.take offset) + 1⟩

theorem Position.ofOffset_append (before cs : List Char) :
    ofOffset (before ++ cs) before.length = ⟨before.count '\n' + 1, column before + 1⟩ := by
  simp [ofOffset]

theorem Position.column_append_newline (before : List Char) : column (before ++ ['\n']) = 0 := by
  simp [column]

theorem Position.column_append (before : List Char) {c : Char} (h : c ≠ '\n') :
    column (before ++ [c]) = column before + 1 := by
  simp [column, h]

/-! ## Texts in which parentheses can be found without reading atoms -/

namespace Token

/-- The character may stand at a place of this mode: no backslash, apostrophe or square bracket
outside strings and comments, and no line feed behind a backslash in a string. -/
def Mode.admits (c : Char) : Mode → Bool
  | .ground | .atom _ _ | .atomEscape _ _ => c ∉ ['\\', '\x27', '[', ']']
  | .comment | .text _ _ => true
  | .textEscape _ _ => c ≠ '\n'

/-- Every one of the characters from `offset` on may stand where it does. -/
def plainFrom (offset : Nat) (mode : Mode) : List Char → Bool
  | [] => true
  | c :: cs => mode.admits c && plainFrom (offset + 1) (step offset c mode).2 cs

/-- Every character of the text may stand where it does. -/
def isPlain (cs : List Char) : Bool := plainFrom 0 .ground cs

end Token

/-- The offset of an opening parenthesis. -/
def Lexeme.opening? (lexeme : Lexeme) : Option Nat :=
  if lexeme.token = .opening .round then some lexeme.offset else none

/-- The offsets of the opening parentheses among the tokens. -/
def Lexeme.openings (lexemes : List Lexeme) : List Nat := lexemes.filterMap opening?

@[simp] theorem Lexeme.openings_append (first second : List Lexeme) :
    openings (first ++ second) = openings first ++ openings second :=
  List.filterMap_append

@[simp] theorem Lexeme.openings_parenthesized (inner : List Lexeme) (first last : Nat) :
    openings (⟨.opening .round, first⟩ :: (inner ++ [⟨.closing .round, last⟩]))
      = first :: openings inner := by
  simp [openings, opening?]

/-! ## The search follows the tokens -/

namespace Token

/-- What the search for parentheses keeps where the reader is in this mode, behind `before`. -/
def Mode.cursor (before : List Char) (mode : Mode) : Position.Cursor where
  line := before.count '\n' + 1
  col := Position.column before
  inString := match mode with
    | .text _ _ | .textEscape _ _ => true
    | _ => false
  escaped := match mode with
    | .textEscape _ _ => true
    | _ => false
  inComment := match mode with
    | .comment => true
    | _ => false

/-- Only a backslash outside strings and comments leads to this mode. -/
def Mode.isAtomEscape : Mode → Bool
  | .atomEscape _ _ => true
  | _ => false

/-- The tokens of a single character. -/
def single? (c : Char) : Option Token :=
  if c = '(' then some (.opening .round)
  else if c = '[' then some (.opening .square)
  else if c = ')' then some (.closing .round)
  else if c = ']' then some (.closing .square)
  else if c = '\x27' then some .apostrophe
  else none

theorem start_eq (offset : Nat) (c : Char) :
    start offset c =
      if c = '"' then ([], .text offset [])
      else if Text.isSpace c then ([], .ground)
      else match single? c with
        | some token => ([⟨token, offset⟩], .ground)
        | none =>
          if c = ';' then ([], .comment)
          else if c = '\\' then ([], .atomEscape offset [])
          else ([], .atom offset [c]) := by
  unfold start single?
  grind

/-- What a character outside every token does. -/
theorem start_cases (offset : Nat) (c : Char) :
    (c = '"' ∧ start offset c = ([], .text offset [])) ∨
    (c = ';' ∧ start offset c = ([], .comment)) ∨
    (c = '\\' ∧ start offset c = ([], .atomEscape offset [])) ∨
    (Text.isSpace c = true ∧ start offset c = ([], .ground)) ∨
    (∃ token, single? c = some token ∧ start offset c = ([⟨token, offset⟩], .ground)) ∨
    (c ≠ '\n' ∧ c ≠ '"' ∧ c ≠ ';' ∧ single? c = none ∧ start offset c = ([], .atom offset [c])) := by
  rw [start_eq]
  split
  next quote => exact .inl ⟨quote, rfl⟩
  next quote =>
    split
    next blank => exact .inr (.inr (.inr (.inl ⟨blank, rfl⟩)))
    next visible =>
      have newline : c ≠ '\n' := by
        rintro rfl
        exact visible (by decide)
      cases single : single? c with
      | some token => exact .inr (.inr (.inr (.inr (.inl ⟨token, rfl, rfl⟩))))
      | none => grind

theorem openings_start (offset : Nat) (c : Char) :
    Lexeme.openings (start offset c).1 = if c = '(' then [offset] else [] := by
  obtain ⟨rfl, h⟩ | ⟨rfl, h⟩ | ⟨rfl, h⟩ | ⟨blank, h⟩ | ⟨token, single, h⟩ | ⟨-, -, -, single, h⟩ :=
    start_cases offset c
  all_goals rw [h]
  · rfl
  · rfl
  · rfl
  · have closed : c ≠ '(' := by
      rintro rfl
      exact absurd blank (by decide)
    rw [if_neg closed]
    rfl
  · grind [single?, Lexeme.openings, Lexeme.opening?]
  · grind [single?, Lexeme.openings]

theorem cursor_step_ground (before : List Char) {c : Char} (quote : c ≠ '"') (semicolon : c ≠ ';') :
    (Mode.ground.cursor before).step c
      = (if c = '(' then some ⟨before.count '\n' + 1, Position.column before + 1⟩ else none,
        Mode.ground.cursor (before ++ [c])) := by
  by_cases newline : c = '\n'
  · subst newline
    simp [Mode.cursor, Position.Cursor.step, Position.column_append_newline]
  · by_cases opening : c = '('
    · simp [Mode.cursor, Position.Cursor.step, Position.column_append, opening]
    · simp [Mode.cursor, Position.Cursor.step, Position.column_append, newline, opening, quote,
        semicolon]

/-- Outside strings and comments the search does what the reader does. -/
theorem cursor_step_start (before : List Char) {c : Char} (h : c ∉ ['\\', '\x27', '[', ']']) :
    (start before.length c).2.isAtomEscape = false ∧
    (Mode.ground.cursor before).step c
      = (if c = '(' then some ⟨before.count '\n' + 1, Position.column before + 1⟩ else none,
        (start before.length c).2.cursor (before ++ [c])) := by
  obtain ⟨rfl, read⟩ | ⟨rfl, read⟩ | ⟨rfl, read⟩ | ⟨blank, read⟩ | ⟨token, single, read⟩ |
    ⟨-, quote, semicolon, -, read⟩ := start_cases before.length c
  all_goals rw [read]
  · simp [Mode.isAtomEscape, Mode.cursor, Position.Cursor.step, Position.column_append]
  · simp [Mode.isAtomEscape, Mode.cursor, Position.Cursor.step, Position.column_append]
  · simp at h
  · refine ⟨rfl, cursor_step_ground before ?_ ?_⟩
    all_goals
      rintro rfl
      exact absurd blank (by decide)
  · refine ⟨rfl, cursor_step_ground before ?_ ?_⟩
    all_goals
      rintro rfl
      simp [single?] at single
  · exact ⟨rfl, cursor_step_ground before quote semicolon⟩

/-- In every mode the search does what the reader does. -/
theorem cursor_step (before cs : List Char) {c : Char} {mode : Mode} (h : mode.admits c = true)
    (reached : mode.isAtomEscape = false) :
    (step before.length c mode).2.isAtomEscape = false ∧
    ((mode.cursor before).step c).2 = (step before.length c mode).2.cursor (before ++ [c]) ∧
    ((mode.cursor before).step c).1.toList
      = (Lexeme.openings (step before.length c mode).1).map
        (Position.ofOffset (before ++ c :: cs)) := by
  have outside (h : c ∉ ['\\', '\x27', '[', ']']) :
      (start before.length c).2.isAtomEscape = false ∧
      ((Mode.ground.cursor before).step c).2 = (start before.length c).2.cursor (before ++ [c]) ∧
      ((Mode.ground.cursor before).step c).1.toList
        = (Lexeme.openings (start before.length c).1).map
          (Position.ofOffset (before ++ c :: cs)) := by
    obtain ⟨reached, same⟩ := cursor_step_start before h
    refine ⟨reached, by rw [same], ?_⟩
    rw [same, openings_start]
    split <;> simp [Position.ofOffset_append]
  cases mode with
  | ground => exact outside (by simpa [Mode.admits] using h)
  | comment =>
    by_cases newline : c = '\n'
    · subst newline
      simp [step, Mode.isAtomEscape, Mode.cursor, Position.Cursor.step,
        Position.column_append_newline, Lexeme.openings]
    · simp [step, Mode.isAtomEscape, Mode.cursor, Position.Cursor.step, Position.column_append,
        Lexeme.openings, newline]
  | text first read =>
    by_cases newline : c = '\n'
    · subst newline
      simp [step, Mode.isAtomEscape, Mode.cursor, Position.Cursor.step,
        Position.column_append_newline, Lexeme.openings]
    · by_cases quote : c = '"'
      · subst quote
        simp [step, Mode.isAtomEscape, Mode.cursor, Position.Cursor.step, Position.column_append,
          Lexeme.openings, Lexeme.opening?]
      · by_cases backslash : c = '\\'
        · simp [step, Mode.isAtomEscape, Mode.cursor, Position.Cursor.step, Position.column_append,
            Lexeme.openings, backslash]
        · simp [step, Mode.isAtomEscape, Mode.cursor, Position.Cursor.step, Position.column_append,
            Lexeme.openings, newline, quote, backslash]
  | textEscape first read =>
    have newline : c ≠ '\n' := by simpa [Mode.admits] using h
    cases escape : textEscape? c with
    | some d =>
      simp [step, escape, Mode.isAtomEscape, Mode.cursor, Position.Cursor.step,
        Position.column_append, Lexeme.openings, newline]
    | none =>
      simp [step, escape, Mode.isAtomEscape, Mode.cursor, Position.Cursor.step,
        Position.column_append, Lexeme.openings, newline]
  | atom first read =>
    have admitted : c ∉ ['\\', '\x27', '[', ']'] := by simpa [Mode.admits] using h
    by_cases ends : endsAtom c = true
    · simp only [step, ends, if_true]
      exact outside admitted
    · have visible : c ≠ '\n' ∧ c ≠ '"' ∧ c ≠ ';' ∧ c ≠ '(' := by
        refine ⟨?_, ?_, ?_, ?_⟩ <;>
          (rintro rfl; exact ends (by decide))
      have backslash : c ≠ '\\' := by grind
      have same := cursor_step_ground before visible.2.1 visible.2.2.1
      rw [if_neg visible.2.2.2] at same
      have read : step before.length c (.atom first read) = ([], .atom first (c :: read)) := by
        simp [step, ends, backslash]
      rw [read]
      exact ⟨rfl, congrArg Prod.snd same, congrArg (·.1.toList) same⟩
  | atomEscape first read => cases reached

theorem openings_finish (mode : Mode) : Lexeme.openings (finish mode) = [] := by
  cases mode <;> rfl

/-- The search finds the opening parentheses among the tokens. -/
theorem openingsFrom_eq (before cs : List Char) {mode : Mode}
    (h : plainFrom before.length mode cs = true) (reached : mode.isAtomEscape = false) :
    Position.openingsFrom (mode.cursor before) cs
      = (Lexeme.openings (scanFrom before.length mode cs)).map
        (Position.ofOffset (before ++ cs)) := by
  induction cs generalizing before mode with
  | nil => simp [Position.openingsFrom, scanFrom, openings_finish]
  | cons c cs ih =>
    simp only [plainFrom, Bool.and_eq_true] at h
    obtain ⟨reached, next, found⟩ := cursor_step before cs h.1 reached
    have rest := ih (before ++ [c]) (by simpa using h.2) reached
    simp only [Position.openingsFrom, scanFrom, Lexeme.openings_append, List.map_append, found, next]
    simpa using rest

theorem openings_eq {cs : List Char} (h : isPlain cs = true) :
    Position.openings cs = (Lexeme.openings (scan cs)).map (Position.ofOffset cs) :=
  openingsFrom_eq [] cs h rfl

end Token

/-! ## The tokens of such a text -/

/-- The token is a parenthesis that stands at its offset in the text, or it is no bracket and no
apostrophe. -/
def Lexeme.StandsIn (cs : List Char) (lexeme : Lexeme) : Prop :=
  match lexeme.token with
  | .opening bracket => bracket = .round ∧ cs[lexeme.offset]? = some '('
  | .closing bracket => bracket = .round ∧ cs[lexeme.offset]? = some ')'
  | .apostrophe => False
  | .text _ | .atom _ | .unterminated | .danglingEscape => True

namespace Token

theorem standsIn_start (before cs : List Char) {c : Char} (h : c ∉ ['\\', '\x27', '[', ']']) :
    ∀ l ∈ (start before.length c).1, l.StandsIn (before ++ c :: cs) := by
  obtain ⟨-, read⟩ | ⟨-, read⟩ | ⟨-, read⟩ | ⟨-, read⟩ | ⟨token, single, read⟩ |
    ⟨-, -, -, -, read⟩ := start_cases before.length c
  case inr.inr.inr.inr.inl =>
    rw [read]
    intro l member
    obtain rfl := List.mem_singleton.1 member
    have here : (before ++ c :: cs)[before.length]? = some c := by simp
    grind [single?, Lexeme.StandsIn]
  all_goals
    rw [read]
    simp

theorem standsIn_step (before cs : List Char) {c : Char} {mode : Mode} (h : mode.admits c = true) :
    ∀ l ∈ (step before.length c mode).1, l.StandsIn (before ++ c :: cs) := by
  cases mode with
  | ground => exact standsIn_start before cs (by simpa [Mode.admits] using h)
  | comment => simp [step]
  | text first read =>
    by_cases quote : c = '"'
    · simp [step, quote, Lexeme.StandsIn]
    · by_cases backslash : c = '\\' <;> simp [step, backslash, quote]
  | textEscape first read => cases escape : textEscape? c <;> simp [step, escape]
  | atom first read =>
    have inStart := standsIn_start before cs (c := c) (by simpa [Mode.admits] using h)
    by_cases ends : endsAtom c = true
    · simpa [step, ends, Lexeme.StandsIn] using inStart
    · rw [step, if_neg ends]
      split <;> simp
  | atomEscape first read => simp [step]

theorem standsIn_scanFrom (before cs : List Char) {mode : Mode}
    (h : plainFrom before.length mode cs = true) :
    ∀ l ∈ scanFrom before.length mode cs, l.StandsIn (before ++ cs) := by
  induction cs generalizing before mode with
  | nil => cases mode <;> simp [scanFrom, finish, Lexeme.StandsIn]
  | cons c cs ih =>
    simp only [plainFrom, Bool.and_eq_true] at h
    have rest := ih (before ++ [c]) (by simpa using h.2)
    rw [List.length_append, List.append_assoc] at rest
    exact List.forall_mem_append.2 ⟨standsIn_step before cs h.1, rest⟩

end Token

/-! ## What tokens spell -/

mutual

/-- The tokens are those of the form, and each list of it has the place of its opening
parenthesis. -/
inductive Form.Spells (place : Nat → Position) : Form → List Lexeme → Prop where
  | text (value : List Char) (offset : Nat) :
      Form.Spells place (.text (.ofList value)) [⟨.text value, offset⟩]
  | atom (value : List Char) (offset : Nat) :
      Form.Spells place (Form.ofAtom value) [⟨.atom value, offset⟩]
  | list {items : List Form} {inner : List Lexeme} (first last : Nat) :
      Form.SpellAll place items inner →
      Form.Spells place (.list items (place first))
        (⟨.opening .round, first⟩ :: (inner ++ [⟨.closing .round, last⟩]))

inductive Form.SpellAll (place : Nat → Position) : List Form → List Lexeme → Prop where
  | nil : Form.SpellAll place [] []
  | cons {form : Form} {forms : List Form} {lexemes others : List Lexeme} :
      Form.Spells place form lexemes → Form.SpellAll place forms others →
      Form.SpellAll place (form :: forms) (lexemes ++ others)

end

namespace Form

variable {place : Nat → Position}

theorem SpellAll.append {forms forms' : List Form} {lexemes lexemes' : List Lexeme}
    (h : SpellAll place forms lexemes) (h' : SpellAll place forms' lexemes') :
    SpellAll place (forms ++ forms') (lexemes ++ lexemes') := by
  induction forms generalizing lexemes with
  | nil =>
    cases h
    exact h'
  | cons form forms ih =>
    cases h with
    | cons first others =>
      rw [List.append_assoc]
      exact .cons first (ih others)

theorem SpellAll.concat {forms : List Form} {form : Form} {lexemes lexemes' : List Lexeme}
    (h : SpellAll place forms.reverse lexemes) (h' : Spells place form lexemes') :
    SpellAll place (form :: forms).reverse (lexemes ++ lexemes') := by
  rw [List.reverse_cons]
  refine h.append ?_
  simpa using SpellAll.cons h' .nil

theorem SpellAll.single {form : Form} : ∀ {lexemes : List Lexeme},
    SpellAll place [form] lexemes → Spells place form lexemes
  | _, .cons first .nil => by rwa [List.append_nil]

/-! ## The reader assembles what the tokens spell -/

/-- The place of a list that has none yet. -/
def unplaced (_ : Nat) : Position := {}

/-- The tokens are those of the forms on all levels, with the parentheses that opened the levels. -/
def Levels.Covers : List (Opener × List Form) → List Form → List Lexeme → Prop
  | [], current, lexemes => SpellAll unplaced current.reverse lexemes
  | (.bracket .round, before) :: outer, current, lexemes => ∃ front first inner,
      lexemes = front ++ ⟨.opening .round, first⟩ :: inner ∧
      SpellAll unplaced current.reverse inner ∧ Levels.Covers outer before front
  | _ :: _, _, _ => False

namespace Levels

theorem Covers.closeQuotes {current : List Form} {outer : List (Opener × List Form)}
    {lexemes : List Lexeme} (h : Covers outer current lexemes) :
    closeQuotes current outer = .ok ⟨current, outer⟩ := by
  unfold Covers at h
  split at h
  · rfl
  · rfl
  · exact h.elim

theorem Covers.push {current : List Form} {outer : List (Opener × List Form)}
    {lexemes lexemes' : List Lexeme} {form : Form} (h : Covers outer current lexemes)
    (h' : Spells unplaced form lexemes') : Covers outer (form :: current) (lexemes ++ lexemes') := by
  unfold Covers at h ⊢
  split at h
  · exact h.concat h'
  · obtain ⟨front, first, inner, rfl, spelled, below⟩ := h
    refine ⟨front, first, inner ++ lexemes', by simp, spelled.concat h', below⟩
  · exact h.elim

theorem Covers.close {cs : List Char} {l l' : Levels} {lexemes : List Lexeme} {offset : Nat}
    (h : Covers l.outer l.current lexemes) (closed : l.close .round cs offset = .ok l') :
    Covers l'.outer l'.current (lexemes ++ [⟨.closing .round, offset⟩]) := by
  unfold Levels.close at closed
  rw [h.closeQuotes] at closed
  obtain ⟨current, _ | ⟨⟨_ | _, before⟩, outer⟩⟩ := l
  · cases closed
  · rename_i bracket
    cases bracket with
    | round =>
      obtain ⟨front, first, inner, rfl, spelled, below⟩ := h
      cases closed
      have list : Spells unplaced (.list current.reverse {})
          (⟨.opening .round, first⟩ :: (inner ++ [⟨.closing .round, offset⟩])) :=
        .list first offset spelled
      simpa using below.push list
    | square => exact h.elim
  · exact h.elim

/-- One token more. -/
theorem Covers.step {cs text : List Char} {l l' : Levels} {lexemes : List Lexeme} {lexeme : Lexeme}
    (h : Covers l.outer l.current lexemes) (plain : lexeme.StandsIn text)
    (read : l.step cs lexeme = .ok l') : Covers l'.outer l'.current (lexemes ++ [lexeme]) := by
  obtain ⟨token, offset⟩ := lexeme
  cases token with
  | opening bracket =>
    obtain rfl : bracket = .round := plain.1
    cases read
    exact ⟨lexemes, offset, [], rfl, .nil, h⟩
  | closing bracket =>
    obtain rfl : bracket = .round := plain.1
    exact h.close read
  | text value =>
    cases read
    exact h.push (.text value offset)
  | atom value =>
    cases read
    exact h.push (.atom value offset)
  | apostrophe => exact plain.elim
  | unterminated | danglingEscape => cases read

/-- All tokens that are left. -/
theorem Covers.foldlM {cs text : List Char} {l l' : Levels} {lexemes rest : List Lexeme}
    (h : Covers l.outer l.current lexemes) (plain : ∀ lexeme ∈ rest, lexeme.StandsIn text)
    (read : rest.foldlM (Levels.step cs) l = .ok l') :
    Covers l'.outer l'.current (lexemes ++ rest) := by
  induction rest generalizing l lexemes with
  | nil =>
    cases read
    simpa using h
  | cons lexeme rest ih =>
    obtain ⟨here, later⟩ := List.forall_mem_cons.1 plain
    rw [List.foldlM_cons] at read
    obtain ⟨mid, first, read⟩ := bind_eq_ok_iff.1 read
    simpa using ih (h.step here first) later read

end Levels

theorem spellAll_of_ofLexemes {cs text : List Char} {lexemes : List Lexeme} {forms : List Form}
    (plain : ∀ lexeme ∈ lexemes, lexeme.StandsIn text) (h : ofLexemes cs lexemes = .ok forms) :
    SpellAll unplaced forms lexemes := by
  obtain ⟨l, read, h⟩ := bind_eq_ok_iff.1 h
  have covers : Levels.Covers l.outer l.current ([] ++ lexemes) :=
    Levels.Covers.foldlM (l := {}) .nil plain read
  unfold Levels.finish at h
  rw [covers.closeQuotes] at h
  obtain ⟨current, _ | ⟨⟨_ | _, before⟩, outer⟩⟩ := l
  · cases h
    exact covers
  · cases h
  · exact covers.elim

/-! ## The lists get their places in order -/

mutual

/-- The positions of the lists of a form, each before those of the lists inside it. -/
def positions : Form → List Position
  | .list items position => position :: allPositions items
  | .quoted form => positions form
  | .brackets items => allPositions items
  | .symbol _ | .text _ | .number _ => []

def allPositions : List Form → List Position
  | [] => []
  | form :: forms => positions form ++ allPositions forms

end

theorem positions_ofAtom (value : List Char) : (ofAtom value).positions = [] := by
  unfold ofAtom
  split <;> rfl

theorem locate_ofAtom (ps : List Position) (value : List Char) :
    (ofAtom value).locate ps = (ofAtom value, ps) := by
  unfold ofAtom
  split <;> rfl

mutual

/-- A form gets the places of its own opening parentheses, and what is left is left to what
follows. -/
theorem Spells.locate (place : Nat → Position) : ∀ {form : Form} {lexemes : List Lexeme},
    Spells unplaced form lexemes → ∀ rest : List Position, ∃ located,
      form.locate ((Lexeme.openings lexemes).map place ++ rest) = (located, rest) ∧
      Spells place located lexemes
  | _, _, .text value offset, rest => ⟨_, rfl, .text value offset⟩
  | _, _, .atom value offset, rest => ⟨_, locate_ofAtom rest value, .atom value offset⟩
  | _, _, @Spells.list _ _ inner first last spelledInner, rest => by
    obtain ⟨located, same, spelled⟩ := SpellAll.locateAll place spelledInner rest
    refine ⟨.list located (place first), ?_, .list first last spelled⟩
    rw [Lexeme.openings_parenthesized]
    simp [Form.locate, same]

theorem SpellAll.locateAll (place : Nat → Position) : ∀ {forms : List Form} {lexemes : List Lexeme},
    SpellAll unplaced forms lexemes → ∀ rest : List Position, ∃ located,
      Form.locateAll ((Lexeme.openings lexemes).map place ++ rest) forms = (located, rest) ∧
      SpellAll place located lexemes
  | [], _, .nil, rest => ⟨[], rfl, .nil⟩
  | _, _, @SpellAll.cons _ _ _ _ others first last, rest => by
    obtain ⟨located, same, spelled⟩ :=
      Spells.locate place first ((Lexeme.openings others).map place ++ rest)
    obtain ⟨located', same', spelled'⟩ := SpellAll.locateAll place last rest
    refine ⟨located :: located', ?_, .cons spelled spelled'⟩
    simp [Form.locateAll, same, same']

end

mutual

/-- The places of the lists are those of the opening parentheses, in order. -/
theorem Spells.positions : ∀ {form : Form} {lexemes : List Lexeme}, Spells place form lexemes →
    form.positions = (Lexeme.openings lexemes).map place
  | _, _, .text _ _ => rfl
  | _, _, .atom value _ => positions_ofAtom value
  | _, _, .list first last inner => by
    rw [Lexeme.openings_parenthesized, Form.positions, SpellAll.allPositions inner, List.map_cons]

theorem SpellAll.allPositions : ∀ {forms : List Form} {lexemes : List Lexeme},
    SpellAll place forms lexemes →
    Form.allPositions forms = (Lexeme.openings lexemes).map place
  | _, _, .nil => rfl
  | _, _, .cons first others => by
    rw [Form.allPositions, Spells.positions first, SpellAll.allPositions others,
      Lexeme.openings_append, List.map_append]

end

/-- A text without backslashes, apostrophes and square brackets outside strings and comments, and
without escaped line ends in strings, that is read: the search finds one position for each list, the
tokens of the text are those of the form, each list has the line and the column of the opening
parenthesis that it was read from, and that parenthesis stands in the text. -/
theorem read_spells {source : String} {form : Form} (plain : Token.isPlain source.toList = true)
    (h : read source = .ok form) :
    (Position.openings source.toList).length = form.positions.length ∧
    form.Spells (Position.ofOffset source.toList) (Token.scan source.toList) ∧
    ∀ lexeme ∈ Token.scan source.toList, lexeme.StandsIn source.toList := by
  have stand : ∀ lexeme ∈ Token.scan source.toList, lexeme.StandsIn source.toList :=
    Token.standsIn_scanFrom [] source.toList plain
  have found := Token.openings_eq plain
  obtain ⟨forms, assembled, h⟩ := bind_eq_ok_iff.1 h
  have spelled := spellAll_of_ofLexemes stand assembled
  match forms, h with
  | [single], h =>
    obtain ⟨located, same, places⟩ :=
      spelled.single.locate (Position.ofOffset source.toList) []
    rw [List.append_nil, ← found] at same
    obtain rfl : (single.locate (Position.openings source.toList)).1 = form := Except.ok.inj h
    rw [same]
    exact ⟨by rw [found, places.positions], places, stand⟩
  | [], h | _ :: _ :: _, h => cases h

/-- Parentheses, a semicolon, an escaped quote and a line end in strings, one more parenthesis in a
comment, and an empty list. -/
def mixedText : String := "(a \"(\\\";\n\" ; (b\n ()(c (d) \"))\"))"

theorem mixedText_spells :
    Token.isPlain mixedText.toList = true ∧ ∃ form, read mixedText = .ok form ∧
      form.positions = [⟨1, 1⟩, ⟨3, 2⟩, ⟨3, 4⟩, ⟨3, 7⟩] ∧
      (Position.openings mixedText.toList).length = form.positions.length ∧
      form.Spells (Position.ofOffset mixedText.toList) (Token.scan mixedText.toList) ∧
      ∀ lexeme ∈ Token.scan mixedText.toList, lexeme.StandsIn mixedText.toList := by
  have plain : Token.isPlain mixedText.toList = true := by decide +kernel
  have found : (read mixedText).toOption.map positions
      = some [⟨1, 1⟩, ⟨3, 2⟩, ⟨3, 4⟩, ⟨3, 7⟩] := by decide +kernel
  cases accepted : read mixedText with
  | error e => simp [accepted, Except.toOption] at found
  | ok form =>
    have places : form.positions = [⟨1, 1⟩, ⟨3, 2⟩, ⟨3, 4⟩, ⟨3, 7⟩] := by
      simpa [accepted, Except.toOption] using found
    exact ⟨plain, form, rfl, places, read_spells plain accepted⟩

end Form

end TypeGuard
