import TypeGuard.Proofs.Script.Indentation

/-!
# Texts under a margin

A text that is emitted is placed under a margin line by line. If it goes on behind other text, its
first line stays as it is and only the later ones are placed. `carryOn_append` says what becomes of
a text in front of which and behind which other text stands: its later lines move to the margin, and
of these the blank ones are emptied, apart from the last, which the text behind continues.

## Main definitions

* `layOut`: a text with all its lines under a margin.
* `carryOn`: a text with its later lines under a margin.
* `reindent`: a text with its later lines under a margin, the last of which is continued.
-/

namespace TypeGuard.Script

open Text (joinList splitList splitList_ne_nil joinList_splitList splitList_of_not_mem
  splitList_append_cons splitList_joinList not_mem_of_mem_splitList)

/-! ## Lines -/

/-- A text is a line, or a line and more text behind a line feed. -/
@[elab_as_elim]
theorem line_induction {motive : List Char → Prop} (line : ∀ l, '\n' ∉ l → motive l)
    (feed : ∀ l cs, '\n' ∉ l → motive cs → motive (l ++ '\n' :: cs)) (cs : List Char) :
    motive cs := by
  have lines (ls : List (List Char)) (feedless : ∀ l ∈ ls, '\n' ∉ l) :
      motive (joinList '\n' ls) := by
    induction ls with
    | nil => exact line [] (by simp)
    | cons l ls ih =>
      obtain ⟨here, later⟩ := List.forall_mem_cons.1 feedless
      cases ls with
      | nil => exact line l here
      | cons next others => exact feed l _ here (ih later)
  rw [← joinList_splitList '\n' cs]
  exact lines _ fun l => not_mem_of_mem_splitList

/-- The characters in front of the first line feed. -/
def firstLine (cs : List Char) : List Char := (splitList '\n' cs).headD []

/-- The characters behind the last line feed. -/
def lastLine (cs : List Char) : List Char := (splitList '\n' cs).getLastD []

/-- Something is to be seen on the first line. -/
def Shown (cs : List Char) : Prop := (firstLine cs).all Text.isBlank = false

section
variable {l cs : List Char}

theorem firstLine_line (h : '\n' ∉ l) : firstLine l = l := by
  rw [firstLine, splitList_of_not_mem h]
  rfl

theorem firstLine_feed (h : '\n' ∉ l) (cs : List Char) : firstLine (l ++ '\n' :: cs) = l := by
  rw [firstLine, splitList_append_cons h]
  rfl

theorem firstLine_append (h : '\n' ∉ l) (cs : List Char) :
    firstLine (l ++ cs) = l ++ firstLine cs := by
  induction cs using line_induction with
  | line k line => rw [firstLine_line line, firstLine_line (by simp [h, line])]
  | feed k cs line _ =>
    rw [firstLine_feed line, ← List.append_assoc, firstLine_feed (by simp [h, line])]

theorem firstLine_append_feed (cs ds : List Char) :
    firstLine (cs ++ '\n' :: ds) = firstLine cs := by
  induction cs using line_induction with
  | line l h => rw [firstLine_feed h, firstLine_line h]
  | feed l cs h _ => rw [List.append_assoc, List.cons_append, firstLine_feed h, firstLine_feed h]

theorem mem_of_mem_firstLine {c : Char} (h : c ∈ firstLine cs) : c ∈ cs := by
  induction cs using line_induction with
  | line l line => rwa [firstLine_line line] at h
  | feed l cs line _ =>
    rw [firstLine_feed line] at h
    exact List.mem_append_left _ h

theorem lastLine_line (h : '\n' ∉ l) : lastLine l = l := by
  rw [lastLine, splitList_of_not_mem h]
  rfl

theorem lastLine_feed (cs ds : List Char) : lastLine (cs ++ '\n' :: ds) = lastLine ds := by
  have line {l : List Char} (h : '\n' ∉ l) (ds : List Char) :
      lastLine (l ++ '\n' :: ds) = lastLine ds := by
    obtain ⟨first, others, split⟩ := List.exists_cons_of_ne_nil (splitList_ne_nil '\n' ds)
    rw [lastLine, lastLine, splitList_append_cons h, split]
    rfl
  induction cs using line_induction with
  | line l h => exact line h ds
  | feed l cs h ih => rw [List.append_assoc, List.cons_append, line h, ih]

theorem lastLine_append (h : '\n' ∉ l) (cs : List Char) :
    lastLine (cs ++ l) = lastLine cs ++ l := by
  induction cs using line_induction with
  | line k line => rw [lastLine_line line, lastLine_line (by simp [h, line])]
  | feed k cs _ ih => rw [List.append_assoc, List.cons_append, lastLine_feed, lastLine_feed, ih]

theorem lastLine_append_ne_nil (cs : List Char) {ds : List Char} (h : lastLine ds ≠ []) :
    lastLine (cs ++ ds) ≠ [] := by
  induction ds using line_induction with
  | line l line =>
    rw [lastLine_line line] at h
    rw [lastLine_append line]
    simp [h]
  | feed l ds _ _ =>
    rw [lastLine_feed] at h
    rwa [← List.append_assoc, lastLine_feed]

theorem not_mem_lastLine (cs : List Char) : '\n' ∉ lastLine cs := by
  induction cs using line_induction with
  | line l h => rwa [lastLine_line h]
  | feed l cs _ ih => rwa [lastLine_feed]

theorem shown_cons {c : Char} (h : Text.isBlank c = false) (cs : List Char) : Shown (c :: cs) := by
  have visible : '\n' ∉ [c] := by
    rw [List.mem_singleton]
    rintro rfl
    exact absurd h (by decide)
  rw [Shown, ← List.singleton_append, firstLine_append visible]
  simp [h]

theorem Shown.append (h : Shown cs) (line : '\n' ∉ l) : Shown (l ++ cs) := by
  rw [Shown, firstLine_append line, List.all_append, Bool.and_eq_false_iff]
  exact .inr h

end

/-! ## Placing lines -/

/-- The text with each line under the margin. -/
def layOut (margin cs : List Char) : List Char :=
  joinList '\n' ((splitList '\n' cs).map (placed margin))

/-- The lines under the margin, the last of them even if it is blank. -/
def continued (margin : List Char) : List (List Char) → List (List Char)
  | [] => []
  | [last] => [margin ++ last]
  | line :: lines => placed margin line :: continued margin lines

/-- The text with each line but the first under the margin. -/
def carryOn (margin cs : List Char) : List Char :=
  joinList '\n' (firstLine cs :: ((splitList '\n' cs).drop 1).map (placed margin))

/-- The text with each line under the margin, if more is to stand on the last one. -/
def resume (margin cs : List Char) : List Char :=
  joinList '\n' (continued margin (splitList '\n' cs))

/-- The text with each line but the first under the margin, if more is to stand on the last one. -/
def reindent (margin cs : List Char) : List Char :=
  joinList '\n' (firstLine cs :: continued margin ((splitList '\n' cs).drop 1))

section
variable {l : List Char} (m : List Char)

theorem joinList_cons {ls : List (List Char)} (h : ls ≠ []) (l : List Char) :
    joinList '\n' (l :: ls) = l ++ '\n' :: joinList '\n' ls := by
  obtain ⟨first, others, rfl⟩ := List.exists_cons_of_ne_nil h
  rfl

theorem layOut_line (h : '\n' ∉ l) : layOut m l = placed m l := by
  rw [layOut, splitList_of_not_mem h]
  rfl

theorem layOut_feed (h : '\n' ∉ l) (cs : List Char) :
    layOut m (l ++ '\n' :: cs) = placed m l ++ '\n' :: layOut m cs := by
  rw [layOut, splitList_append_cons h, List.map_cons, joinList_cons]
  · rfl
  · simpa using splitList_ne_nil '\n' cs

theorem carryOn_line (h : '\n' ∉ l) : carryOn m l = l := by
  rw [carryOn, splitList_of_not_mem h, firstLine_line h]
  rfl

theorem carryOn_feed (h : '\n' ∉ l) (cs : List Char) :
    carryOn m (l ++ '\n' :: cs) = l ++ '\n' :: layOut m cs := by
  rw [carryOn, splitList_append_cons h, firstLine_feed h, joinList_cons]
  · rfl
  · simpa using splitList_ne_nil '\n' cs

theorem resume_line (h : '\n' ∉ l) : resume m l = m ++ l := by
  rw [resume, splitList_of_not_mem h]
  rfl

theorem resume_feed (h : '\n' ∉ l) (cs : List Char) :
    resume m (l ++ '\n' :: cs) = placed m l ++ '\n' :: resume m cs := by
  obtain ⟨first, others, split⟩ := List.exists_cons_of_ne_nil (splitList_ne_nil '\n' cs)
  rw [resume, resume, splitList_append_cons h, split]
  cases others <;> rfl

theorem reindent_line (h : '\n' ∉ l) : reindent m l = l := by
  rw [reindent, splitList_of_not_mem h, firstLine_line h]
  rfl

theorem reindent_feed (h : '\n' ∉ l) (cs : List Char) :
    reindent m (l ++ '\n' :: cs) = l ++ '\n' :: resume m cs := by
  obtain ⟨first, others, split⟩ := List.exists_cons_of_ne_nil (splitList_ne_nil '\n' cs)
  rw [reindent, resume, splitList_append_cons h, firstLine_feed h, split]
  cases others <;> rfl

/-! ## Text behind other text -/

theorem layOut_append_feed (cs ds : List Char) :
    layOut m (cs ++ '\n' :: ds) = layOut m cs ++ '\n' :: layOut m ds := by
  induction cs using line_induction with
  | line l h => rw [layOut_feed m h, layOut_line m h]
  | feed l cs h ih =>
    rw [List.append_assoc, List.cons_append, layOut_feed m h, layOut_feed m h, ih,
      List.append_assoc, List.cons_append]

theorem carryOn_append_feed (cs ds : List Char) :
    carryOn m (cs ++ '\n' :: ds) = carryOn m cs ++ '\n' :: layOut m ds := by
  induction cs using line_induction with
  | line l h => rw [carryOn_feed m h, carryOn_line m h]
  | feed l cs h _ =>
    rw [List.append_assoc, List.cons_append, carryOn_feed m h, carryOn_feed m h,
      layOut_append_feed, List.append_assoc, List.cons_append]

theorem carryOn_append_line (h : '\n' ∉ l) (cs : List Char) :
    carryOn m (l ++ cs) = l ++ carryOn m cs := by
  induction cs using line_induction with
  | line k line => rw [carryOn_line m line, carryOn_line m (by simp [h, line])]
  | feed k cs line _ =>
    rw [carryOn_feed m line, ← List.append_assoc, carryOn_feed m (by simp [h, line]),
      List.append_assoc]

theorem placed_of_shown (h : l.all Text.isBlank = false) : placed m l = m ++ l := by
  simp [placed, h]

/-- A line that goes on with something to be seen is under the margin. -/
theorem layOut_append_line {cs : List Char} (shown : Shown cs) (h : '\n' ∉ l) :
    layOut m (l ++ cs) = m ++ l ++ carryOn m cs := by
  induction cs using line_induction with
  | line k line =>
    have visible := shown.append h
    have both : '\n' ∉ l ++ k := by simp [h, line]
    rw [Shown, firstLine_line both] at visible
    rw [layOut_line m both, placed_of_shown m visible, carryOn_line m line, List.append_assoc]
  | feed k cs line _ =>
    have visible := shown.append h
    have both : '\n' ∉ l ++ k := by simp [h, line]
    rw [← List.append_assoc, Shown, firstLine_feed both] at visible
    rw [← List.append_assoc, layOut_feed m both, placed_of_shown m visible, carryOn_feed m line]
    simp

theorem layOut_append {cs : List Char} (shown : Shown cs) (front : List Char) :
    layOut m (front ++ cs) = resume m front ++ carryOn m cs := by
  induction front using line_induction with
  | line l h => rw [layOut_append_line m shown h, resume_line m h]
  | feed l front h ih =>
    rw [List.append_assoc, List.cons_append, layOut_feed m h, resume_feed m h, ih,
      List.append_assoc, List.cons_append]

/-- What becomes of a text does not depend on the text behind it, as long as that shows something on
the last line of the first. -/
theorem carryOn_append {cs : List Char} (shown : Shown cs) (front : List Char) :
    carryOn m (front ++ cs) = reindent m front ++ carryOn m cs := by
  induction front using line_induction with
  | line l h => rw [carryOn_append_line m h, reindent_line m h]
  | feed l front h _ =>
    rw [List.append_assoc, List.cons_append, carryOn_feed m h, reindent_feed m h,
      layOut_append m shown, List.append_assoc, List.cons_append]

theorem firstLine_carryOn (cs : List Char) : firstLine (carryOn m cs) = firstLine cs := by
  induction cs using line_induction with
  | line l h => rw [carryOn_line m h]
  | feed l cs h _ => rw [carryOn_feed m h, firstLine_feed h, firstLine_feed h]

theorem layOut_feeds (cs : List Char) (n : Nat) :
    layOut m (cs ++ List.replicate n '\n') = layOut m cs ++ List.replicate n '\n' := by
  induction n with
  | zero => simp
  | succ n ih =>
    have empty : layOut m [] = [] := rfl
    rw [List.replicate_succ', ← List.append_assoc, layOut_append_feed, ih, empty,
      List.append_assoc]

theorem carryOn_feeds (cs : List Char) (n : Nat) :
    carryOn m (cs ++ List.replicate n '\n') = carryOn m cs ++ List.replicate n '\n' := by
  cases n with
  | zero => simp
  | succ n =>
    have feeds := layOut_feeds m [] n
    rw [List.replicate_succ, carryOn_append_feed]
    rw [List.nil_append] at feeds
    rw [feeds]
    rfl

/-! ## Margins within margins -/

theorem placed_placed (outer inner cs : List Char) :
    placed outer (placed inner cs) = placed (outer ++ inner) cs := by
  unfold placed
  by_cases blank : cs.all Text.isBlank
  · simp [blank]
  · simp [blank]

theorem not_mem_placed {inner : List Char} (feedless : '\n' ∉ inner) (h : '\n' ∉ l) :
    '\n' ∉ placed inner l := by
  unfold placed
  split
  · simp
  · simp [feedless, h]

theorem layOut_layOut {inner : List Char} (feedless : '\n' ∉ inner) (cs : List Char) :
    layOut m (layOut inner cs) = layOut (m ++ inner) cs := by
  induction cs using line_induction with
  | line l h =>
    rw [layOut_line inner h, layOut_line m (not_mem_placed feedless h), placed_placed,
      layOut_line _ h]
  | feed l cs h ih =>
    rw [layOut_feed inner h, layOut_feed m (not_mem_placed feedless h), placed_placed, ih,
      layOut_feed _ h]

theorem layOut_layOut_nil (cs : List Char) : layOut m (layOut [] cs) = layOut m cs := by
  rw [layOut_layOut m (by simp), List.append_nil]

theorem carryOn_carryOn_nil (cs : List Char) : carryOn m (carryOn [] cs) = carryOn m cs := by
  induction cs using line_induction with
  | line l h => rw [carryOn_line [] h]
  | feed l cs h _ =>
    rw [carryOn_feed [] h, carryOn_feed m h, carryOn_feed m h, layOut_layOut_nil]

/-- Under a margin the first line of a text has at most that margin in front. -/
theorem exists_layOut_eq (cs : List Char) :
    ∃ front, layOut m cs = front ++ carryOn m (layOut [] cs) := by
  have first (l : List Char) : ∃ front, placed m l = front ++ placed [] l := by
    unfold placed
    split
    · exact ⟨[], rfl⟩
    · exact ⟨m, rfl⟩
  induction cs using line_induction with
  | line l h =>
    obtain ⟨front, same⟩ := first l
    refine ⟨front, ?_⟩
    rw [layOut_line m h, layOut_line [] h, carryOn_line m (not_mem_placed (by simp) h), same]
  | feed l cs h _ =>
    obtain ⟨front, same⟩ := first l
    refine ⟨front, ?_⟩
    rw [layOut_feed m h, layOut_feed [] h, carryOn_feed m (not_mem_placed (by simp) h), same,
      layOut_layOut_nil, List.append_assoc]

/-- From the first line on that shows something, a text that has been laid out goes on as it is. -/
theorem exists_carryOn_layOut {cs : List Char} (shown : Shown cs) (front : List Char) :
    ∃ before, carryOn m (layOut [] (front ++ cs)) = before ++ carryOn m cs := by
  have still : Shown (carryOn [] cs) := by rwa [Shown, firstLine_carryOn]
  exact ⟨reindent m (resume [] front), by
    rw [layOut_append [] shown, carryOn_append m still, carryOn_carryOn_nil]⟩

theorem exists_carryOn_eq {cs : List Char} (visible : (lastLine cs).all Text.isBlank = false) :
    ∃ front, carryOn m (layOut [] cs) = front ++ lastLine cs := by
  induction cs using line_induction with
  | line l h =>
    rw [lastLine_line h] at visible ⊢
    rw [layOut_line [] h, placed_of_shown [] visible]
    exact ⟨[], carryOn_line m h⟩
  | feed l cs h ih =>
    rw [lastLine_feed] at visible ⊢
    obtain ⟨inner, last⟩ := ih visible
    obtain ⟨front, rest⟩ := exists_layOut_eq m cs
    refine ⟨placed [] l ++ '\n' :: (front ++ inner), ?_⟩
    rw [layOut_feed [] h, carryOn_feed m (not_mem_placed (by simp) h), layOut_layOut_nil, rest,
      last]
    simp

/-- Lines that are indented by blanks and then placed are placed under both margins. -/
theorem layOut_indented {inner : List Char} (blank : inner.all Text.isBlank = true)
    (feedless : '\n' ∉ inner) (cs : List Char) :
    layOut m (joinList '\n' ((splitList '\n' cs).map (indentLine inner)))
      = layOut (m ++ inner) cs := by
  have line (l : List Char) : placed m (indentLine inner l) = placed (m ++ inner) l := by
    unfold indentLine
    split
    next empty => simp [List.isEmpty_iff.1 empty, placed]
    next => simp [placed, List.all_append, blank]
  have lines : ∀ l ∈ (splitList '\n' cs).map (indentLine inner), '\n' ∉ l := by
    intro l member
    obtain ⟨part, found, rfl⟩ := List.mem_map.1 member
    have here : '\n' ∉ part := not_mem_of_mem_splitList found
    unfold indentLine
    split
    · simp
    · simp [feedless, here]
  rw [layOut, splitList_joinList (by simpa using splitList_ne_nil '\n' cs) lines, List.map_map]
  exact congrArg _ (List.map_congr_left fun l _ => line l)

end

/-! ## Texts that are not changed -/

/-- The lines between the first and the last. -/
def innerLines (cs : List Char) : List (List Char) := ((splitList '\n' cs).drop 1).dropLast

theorem continued_eq_self_iff {margin : List Char} {ls : List (List Char)} (h : ls ≠ []) :
    continued margin ls = ls ↔
      margin = [] ∧ ∀ l ∈ ls.dropLast, l.all Text.isBlank = true → l = [] := by
  induction ls with
  | nil => exact absurd rfl h
  | cons l ls ih =>
    cases ls with
    | nil => simp [continued]
    | cons next others =>
      have rest := ih (by simp)
      have here : placed [] l = l ↔ (l.all Text.isBlank = true → l = []) := by
        unfold placed
        split <;> grind
      rw [continued, List.cons_eq_cons, rest, List.dropLast_cons_cons, List.forall_mem_cons]
      · constructor
        · rintro ⟨same, rfl, others⟩
          exact ⟨rfl, here.1 same, others⟩
        · rintro ⟨rfl, first, others⟩
          exact ⟨here.2 first, rfl, others⟩
      · simp

theorem not_mem_of_mem_continued {margin : List Char} (feedless : '\n' ∉ margin)
    {ls : List (List Char)} (h : ∀ l ∈ ls, '\n' ∉ l) : ∀ l ∈ continued margin ls, '\n' ∉ l := by
  induction ls with
  | nil => simp [continued]
  | cons l ls ih =>
    obtain ⟨here, later⟩ := List.forall_mem_cons.1 h
    cases ls with
    | nil => simp [continued, feedless, here]
    | cons next others =>
      rw [continued]
      · exact List.forall_mem_cons.2 ⟨not_mem_placed feedless here, ih later⟩
      · simp

theorem resume_eq_self_iff {margin : List Char} (feedless : '\n' ∉ margin) (cs : List Char) :
    resume margin cs = cs ↔
      margin = [] ∧ ∀ l ∈ (splitList '\n' cs).dropLast, l.all Text.isBlank = true → l = [] := by
  have nonempty := splitList_ne_nil '\n' cs
  have feedless : ∀ l ∈ continued margin (splitList '\n' cs), '\n' ∉ l :=
    not_mem_of_mem_continued feedless fun l => not_mem_of_mem_splitList
  rw [← continued_eq_self_iff nonempty]
  constructor
  · intro same
    have more : continued margin (splitList '\n' cs) ≠ [] := by
      obtain ⟨first, others, split⟩ := List.exists_cons_of_ne_nil nonempty
      rw [split]
      cases others <;> simp [continued]
    rw [← splitList_joinList more feedless]
    exact congrArg (splitList '\n') same
  · intro same
    rw [resume, same, joinList_splitList]

/-- A text is continued as it is exactly if it has one line only, or if there is no margin and its
blank inner lines are empty. -/
theorem reindent_eq_self_iff {margin : List Char} (feedless : '\n' ∉ margin) (cs : List Char) :
    reindent margin cs = cs ↔ '\n' ∉ cs ∨
      (margin = [] ∧ ∀ l ∈ innerLines cs, l.all Text.isBlank = true → l = []) := by
  induction cs using line_induction with
  | line l h => simp [reindent_line margin h, h]
  | feed l cs h _ =>
    have inner : innerLines (l ++ '\n' :: cs) = (splitList '\n' cs).dropLast := by
      rw [innerLines, splitList_append_cons h]
      rfl
    rw [reindent_feed margin h, inner, ← resume_eq_self_iff feedless cs]
    simp

end TypeGuard.Script
