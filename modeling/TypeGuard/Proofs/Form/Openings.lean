import TypeGuard.Proofs.Form.Assembly
import TypeGuard.Proofs.Form.Positions

/-!
# Positions are those of parentheses

The search for parentheses counts lines and columns in every mode, so in any text what it finds are
opening parentheses of that text. `Form.positions_read` says that every list of a text that is read
has the position of one of them, or none: texts with apostrophes, brackets and backslashes can give a
list the place of another one, but no place where nothing opens.
-/

namespace TypeGuard

/-- The position is that of an opening parenthesis of the text. -/
def Position.OpensIn (cs : List Char) (p : Position) : Prop :=
  ∃ offset, cs[offset]? = some '(' ∧ p = Position.ofOffset cs offset

namespace Position

/-- The search has passed `before` and knows its line and column. -/
structure Cursor.Passed (before : List Char) (k : Cursor) : Prop where
  line : k.line = before.count '\n' + 1
  col : k.col = column before

/-- What the search does with a character that ends no line. -/
theorem Cursor.step_cases (k : Cursor) {c : Char} (h : c ≠ '\n') :
    (k.step c).2.line = k.line ∧ (k.step c).2.col = k.col + 1 ∧
      ∀ p ∈ (k.step c).1, c = '(' ∧ p = ⟨k.line, k.col + 1⟩ := by
  unfold Cursor.step
  grind

theorem Cursor.Passed.step {before : List Char} {k : Cursor} (h : k.Passed before) (c : Char)
    (cs : List Char) :
    (k.step c).2.Passed (before ++ [c]) ∧ ∀ p ∈ (k.step c).1, p.OpensIn (before ++ c :: cs) := by
  by_cases newline : c = '\n'
  · subst newline
    have line : (k.step '\n').2.line = k.line + 1 := rfl
    have col : (k.step '\n').2.col = 0 := rfl
    refine ⟨⟨?_, col.trans (column_append_newline before).symm⟩, by rintro p ⟨⟩⟩
    rw [line, h.line]
    simp
  · obtain ⟨line, col, found⟩ := k.step_cases newline
    refine ⟨⟨?_, ?_⟩, fun p member => ?_⟩
    · rw [line, h.line]
      simp [newline]
    · rw [col, h.col, column_append before newline]
    · obtain ⟨rfl, rfl⟩ := found p member
      exact ⟨before.length, by simp, by rw [ofOffset_append, h.line, h.col]⟩

theorem openingsFrom_opensIn (before cs : List Char) {k : Cursor} (h : k.Passed before) :
    ∀ p ∈ openingsFrom k cs, p.OpensIn (before ++ cs) := by
  induction cs generalizing before k with
  | nil => simp [openingsFrom]
  | cons c cs ih =>
    obtain ⟨passed, found⟩ := h.step c cs
    have rest := ih (before ++ [c]) passed
    rw [List.append_assoc] at rest
    have here : ∀ p ∈ (k.step c).1.toList, p.OpensIn (before ++ c :: cs) := by simpa using found
    exact List.forall_mem_append.2 ⟨here, rest⟩

theorem openings_opensIn (cs : List Char) : ∀ p ∈ openings cs, p.OpensIn cs :=
  openingsFrom_opensIn [] cs ⟨rfl, rfl⟩

end Position

namespace Form

theorem mem_allPositions {p : Position} {forms : List Form} :
    p ∈ allPositions forms ↔ ∃ form ∈ forms, p ∈ form.positions := by
  induction forms with
  | nil => simp [allPositions]
  | cons form forms ih => simp [allPositions, ih]

/-- No list in the form has a position yet. -/
def Unplaced (form : Form) : Prop := ∀ p ∈ form.positions, p = {}

theorem unplaced_list {items : List Form} (h : ∀ item ∈ items, item.Unplaced) :
    (Form.list items {}).Unplaced := by
  refine List.forall_mem_cons.2 ⟨rfl, fun p member => ?_⟩
  obtain ⟨item, found, inside⟩ := mem_allPositions.1 member
  exact h item found p inside

theorem unplaced_brackets {items : List Form} (h : ∀ item ∈ items, item.Unplaced) :
    (Form.brackets items).Unplaced := by
  intro p member
  obtain ⟨item, found, inside⟩ := mem_allPositions.1 member
  exact h item found p inside

theorem hereditary_unplaced : Hereditary Unplaced where
  atom cs := by simp [Unplaced, positions_ofAtom]
  text value := by simp [Unplaced, positions]
  quoted form h := h
  list _ := unplaced_list
  brackets _ := unplaced_brackets

mutual

/-- A list gets one of the positions that are given out, or keeps its own. -/
theorem positions_locate : ∀ (form : Form) (ps : List Position),
    (form.locate ps).2 ⊆ ps ∧
      ∀ p ∈ (form.locate ps).1.positions, p = {} ∨ p ∈ ps ∨ p ∈ form.positions
  | .list items position, ps => by
    obtain ⟨left, inside⟩ := positions_locateAll items (ps.drop 1)
    refine ⟨List.Subset.trans left (List.drop_subset 1 ps), List.forall_mem_cons.2 ⟨?_, ?_⟩⟩
    · cases ps with
      | nil => exact .inl rfl
      | cons p ps => exact .inr (.inl (List.mem_cons_self ..))
    · intro p member
      obtain none | given | own := inside p member
      · exact .inl none
      · exact .inr (.inl (List.drop_subset 1 ps given))
      · exact .inr (.inr (List.mem_cons_of_mem _ own))
  | .symbol _, ps | .text _, ps | .number _, ps | .quoted _, ps | .brackets _, ps =>
    ⟨List.Subset.refl ps, fun _ member => .inr (.inr member)⟩

theorem positions_locateAll : ∀ (forms : List Form) (ps : List Position),
    (locateAll ps forms).2 ⊆ ps ∧
      ∀ p ∈ allPositions (locateAll ps forms).1, p = {} ∨ p ∈ ps ∨ p ∈ allPositions forms
  | [], ps => ⟨List.Subset.refl ps, by simp [locateAll, allPositions]⟩
  | form :: forms, ps => by
    obtain ⟨left, first⟩ := positions_locate form ps
    obtain ⟨left', others⟩ := positions_locateAll forms (form.locate ps).2
    refine ⟨List.Subset.trans left' left, List.forall_mem_append.2 ⟨?_, ?_⟩⟩
    · intro p member
      obtain none | given | own := first p member
      · exact .inl none
      · exact .inr (.inl given)
      · exact .inr (.inr (List.mem_append_left _ own))
    · intro p member
      obtain none | given | own := others p member
      · exact .inl none
      · exact .inr (.inl (left given))
      · exact .inr (.inr (List.mem_append_right _ own))

end

/-- Every list of a text that is read has the position of some opening parenthesis, or none. -/
theorem positions_read {source : String} {form : Form} (h : read source = .ok form) :
    ∀ p ∈ form.positions, p = {} ∨ p.OpensIn source.toList := by
  obtain ⟨single, unplaced, rfl⟩ := hereditary_unplaced.read h
  intro p member
  obtain none | given | own := (single.positions_locate _).2 p member
  · exact .inl none
  · exact .inr (Position.openings_opensIn _ p given)
  · exact .inl (unplaced p own)

end Form

end TypeGuard
