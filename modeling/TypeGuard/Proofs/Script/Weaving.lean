import TypeGuard.Proofs.Script.Margins

/-!
# Passages in printed text

Raw text is copied into the output, where the lines behind its first one move to the margin of the
place. A text is woven from such passages if they stand in it one behind the other, with made text
around them. Whether a comment at the end of a passage can swallow made text is seen on the rest of
its line, which is empty or a semicolon if the passage is not exposed.

## Main definitions

* `Passage`: raw text at some depth.
* `Woven`: the passages of a text, in order, each with what stands behind it.
* `Carries`: a printed text keeps its passages wherever it stands.
-/

namespace TypeGuard.Script

/-- The margin of a depth. -/
def indentation (unit : String) (depth : Nat) : List Char :=
  ({ unit, level := depth } : Layout).margin.toList

theorem indentation_zero (unit : String) : indentation unit 0 = [] := rfl

theorem indentation_succ (unit : String) (depth : Nat) :
    indentation unit (depth + 1) = indentation unit depth ++ unit.toList := by
  simp [indentation, Layout.margin, List.replicate_succ', String.join_append]

theorem not_mem_indentation {unit : String} (h : '\n' ∉ unit.toList) (depth : Nat) :
    '\n' ∉ indentation unit depth :=
  Layout.not_mem_margin (l := { unit, level := depth }) h

theorem indentation_eq_nil_iff {unit : String} (h : unit.toList ≠ []) {depth : Nat} :
    indentation unit depth = [] ↔ depth = 0 := by
  cases depth with
  | zero => simp [indentation_zero]
  | succ depth => simp [indentation_succ, h]

/-! ## Passages -/

/-- Raw text that is copied into the output. -/
structure Passage where
  text : List Char
  /-- The number of bodies around it. -/
  depth : Nat := 0
  /-- Something other than a semicolon is printed behind it, on its last line. -/
  exposed : Bool := false
  deriving DecidableEq, Repr

namespace Passage

/-- The passage further in. -/
def shift (k : Nat) (p : Passage) : Passage := { p with depth := p.depth + k }

/-- A comment may begin on the last line of the passage. -/
def marked (p : Passage) : Bool := hasCommentMark (lastLine p.text)

/-- How the passage is printed. -/
def form (unit : String) (p : Passage) : List Char := reindent (indentation unit p.depth) p.text

theorem map_shift_zero (ps : List Passage) : ps.map (shift 0) = ps := by
  simp [show shift 0 = id from rfl]

theorem map_shift_shift (j k : Nat) (ps : List Passage) :
    (ps.map (shift j)).map (shift k) = ps.map (shift (j + k)) := by
  simp [shift, Function.comp_def, Nat.add_assoc]

theorem form_of_line (unit : String) {p : Passage} (h : '\n' ∉ p.text) : p.form unit = p.text :=
  reindent_line _ h

/-- What stands behind a passage: if a comment may end it, the rest of the line is empty or a
semicolon unless the passage is exposed. Not only line feeds follow a passage with an empty last
line, so that it survives when line feeds at the end are trimmed. -/
structure Stands (unit : String) (p : Passage) (after : List Char) : Prop where
  guarded : p.marked = true → (p.exposed = false ↔ firstLine after ∈ [[], [';']])
  kept : lastLine (p.form unit) ≠ [] ∨ ∃ c ∈ after, c ≠ '\n'

end Passage

/-- The passages stand in the text, one behind the other, and what is behind each of them fits. -/
inductive Woven (unit : String) (fits : Passage → List Char → Prop) :
    List Char → List Passage → Prop where
  | nil (cs : List Char) : Woven unit fits cs []
  | cons (before : List Char) {p : Passage} {after : List Char} {ps : List Passage} :
    fits p after → Woven unit fits after ps →
    Woven unit fits (before ++ p.form unit ++ after) (p :: ps)

namespace Woven

variable {unit : String} {fits : Passage → List Char → Prop} {cs ds : List Char}
  {ps qs : List Passage}

theorem front (before : List Char) (h : Woven unit fits cs ps) :
    Woven unit fits (before ++ cs) ps := by
  cases h with
  | nil => exact .nil _
  | cons first stands later =>
    rw [← List.append_assoc, ← List.append_assoc]
    exact .cons (before ++ first) stands later

theorem mono {fits' : Passage → List Char → Prop} (h : Woven unit fits cs ps)
    (weaker : ∀ p after, fits p after → fits' p after) : Woven unit fits' cs ps := by
  induction h with
  | nil => exact .nil _
  | cons before stands _ ih => exact .cons before (weaker _ _ stands) ih

/-- Something is left of every passage. -/
theorem eq_nil (h : Woven unit (Passage.Stands unit) [] ps) : ps = [] := by
  generalize text : [] = whole at h
  cases h with
  | nil => rfl
  | @cons before p after _ stands _ =>
    obtain ⟨-, form, rfl⟩ : before = [] ∧ p.form unit = [] ∧ after = [] := by simpa using text.symm
    obtain last | ⟨c, member, -⟩ := stands.kept
    · rw [form] at last
      exact absurd rfl last
    · simp at member

/-- Text that begins a new line does not change what stands behind the passages in front. -/
theorem append_feed (h : Woven unit (Passage.Stands unit) cs ps)
    (later : Woven unit (Passage.Stands unit) ds qs) :
    Woven unit (Passage.Stands unit) (cs ++ '\n' :: ds) (ps ++ qs) := by
  induction h with
  | nil cs => exact (later.front ['\n']).front cs
  | cons before stands _ ih =>
    rw [List.append_assoc]
    refine .cons before ⟨?_, ?_⟩ ih
    · rw [firstLine_append_feed]
      exact stands.guarded
    · obtain last | ⟨c, member, visible⟩ := stands.kept
      · exact .inl last
      · exact .inr ⟨c, List.mem_append_left _ member, visible⟩

theorem drop_feed (h : Woven unit (Passage.Stands unit) (cs ++ ['\n']) ps) :
    Woven unit (Passage.Stands unit) cs ps := by
  generalize text : cs ++ ['\n'] = whole at h
  induction h generalizing cs with
  | nil => exact .nil cs
  | @cons before p after ps stands _ ih =>
    obtain rfl | ⟨inner, c, rfl⟩ := List.eq_nil_or_concat after
    · -- The passage would end in the line feed, and then its last line were empty.
      obtain last | ⟨c, member, -⟩ := stands.kept
      · have empty : lastLine (cs ++ ['\n']) = [] := lastLine_feed cs []
        rw [text, List.append_nil] at empty
        exact absurd empty (lastLine_append_ne_nil before last)
      · simp at member
    · rw [List.concat_eq_append] at text stands ih
      rw [← List.append_assoc] at text
      obtain ⟨rfl, same⟩ := List.append_inj' text rfl
      obtain rfl : '\n' = c := by simpa using same
      refine .cons before ⟨?_, ?_⟩ (ih rfl)
      · have guarded := stands.guarded
        rwa [firstLine_append_feed] at guarded
      · obtain last | ⟨c, member, visible⟩ := stands.kept
        · exact .inl last
        · refine .inr ⟨c, ?_, visible⟩
          simpa [visible] using member

theorem drop_feeds {n : Nat}
    (h : Woven unit (Passage.Stands unit) (cs ++ List.replicate n '\n') ps) :
    Woven unit (Passage.Stands unit) cs ps := by
  induction n with
  | zero => simpa using h
  | succ n ih =>
    rw [List.replicate_succ', ← List.append_assoc] at h
    exact ih h.drop_feed

end Woven

/-! ## Inline text -/

theorem hasCommentMark_iff (cs : List Char) : hasCommentMark cs = true ↔ ['/', '/'] <:+: cs := by
  fun_induction hasCommentMark cs with
  | case1 cs => simpa using ⟨[], cs, rfl⟩
  | case2 c cs other ih =>
    rw [ih, List.infix_cons_iff]
    refine ⟨.inr, fun found => found.resolve_left ?_⟩
    rintro ⟨back, same⟩
    obtain ⟨rfl, rest⟩ := List.cons_eq_cons.1 same
    exact other back rfl rest.symm
  | case3 => simp

theorem not_mem_of_reindent {margin cs : List Char} (h : '\n' ∉ reindent margin cs) :
    '\n' ∉ cs := by
  induction cs using line_induction with
  | line l line => exact line
  | feed l cs line _ => simp [reindent_feed margin line] at h

/-- Passages on one line without a comment mark are the same at every depth, and whatever may
follow them. -/
theorem Woven.inline {unit : String} {cs ds : List Char} {ps qs : List Passage} (k : Nat)
    (h : Woven unit (Passage.Stands unit) cs ps) (line : '\n' ∉ cs)
    (unmarked : hasCommentMark cs = false) (later : Woven unit (Passage.Stands unit) ds qs) :
    Woven unit (Passage.Stands unit) (cs ++ ds) (ps.map (Passage.shift k) ++ qs) := by
  induction h with
  | nil cs => exact later.front cs
  | @cons before p after ps stands _ ih =>
    have feedless : '\n' ∉ p.form unit ∧ '\n' ∉ after := by simp_all
    have text : '\n' ∉ p.text := not_mem_of_reindent feedless.1
    have moved : (p.shift k).form unit = p.form unit :=
      (Passage.form_of_line unit (p := p.shift k) text).trans (Passage.form_of_line unit text).symm
    have inAfter : hasCommentMark after = false := by
      rw [Bool.eq_false_iff, Ne, hasCommentMark_iff] at unmarked ⊢
      exact fun found => unmarked (found.trans (List.suffix_append _ _).isInfix)
    rw [List.append_assoc, ← moved, List.map_cons, List.cons_append]
    refine .cons before ⟨fun marked => ?_, ?_⟩ (ih feedless.2 inAfter)
    · have inText : ['/', '/'] <:+: p.form unit := by
        rwa [Passage.marked, Passage.shift, lastLine_line text, hasCommentMark_iff,
          ← Passage.form_of_line unit text] at marked
      rw [Bool.eq_false_iff, Ne, hasCommentMark_iff, List.append_assoc] at unmarked
      exact absurd (inText.trans (List.infix_append _ _ _)) (by simpa using unmarked)
    · rw [moved]
      obtain last | ⟨c, member, visible⟩ := stands.kept
      · exact .inl last
      · exact .inr ⟨c, List.mem_append_left _ member, visible⟩

/-! ## Texts that keep their passages -/

/-- The text keeps its passages at every depth, with anything behind it that goes on on its last
line. The passages depend on whether that is more than a semicolon. -/
def Carries (unit : String) (text : List Char) (ps : Bool → List Passage) : Prop :=
  ∀ (k : Nat) (exposed : Bool) {after : List Char} {qs : List Passage}, Shown after →
    (exposed = false ↔ firstLine after = [';']) →
    Woven unit (Passage.Stands unit) (carryOn (indentation unit k) after) qs →
    Woven unit (Passage.Stands unit) (carryOn (indentation unit k) (text ++ after))
      ((ps exposed).map (Passage.shift k) ++ qs)

/-- Behind other text, this one shows something on the first line, and more than a semicolon. -/
def Separates (text : List Char) : Prop :=
  ∀ after, Shown (text ++ after) ∧ firstLine (text ++ after) ≠ [';']

theorem separates_line {l : List Char}
    (h : '\n' ∉ l ∧ l.all Text.isBlank = false ∧ l.head? ≠ some ';') : Separates l := by
  obtain ⟨line, visible, other⟩ := h
  intro after
  rw [Shown, firstLine_append line, List.all_append, visible]
  refine ⟨rfl, fun same => ?_⟩
  cases l with
  | nil => simp at visible
  | cons c l => simp_all

theorem Separates.append {l : List Char} (h : Separates l) (cs : List Char) :
    Separates (l ++ cs) := by
  intro after
  rw [List.append_assoc]
  exact h _

section
variable {unit : String} {a b : List Char} {ps qs : Bool → List Passage}

theorem carries_made (text : List Char) : Carries unit text fun _ => [] := by
  intro k _ after qs shown _ later
  rw [carryOn_append _ shown]
  exact later.front _

theorem carries_raw (text : List Char) :
    Carries unit text fun exposed => [{ text, exposed }] := by
  intro k exposed after qs shown same later
  obtain ⟨c, member, visible⟩ : ∃ c ∈ firstLine after, Text.isBlank c = false := by
    simpa [Shown, List.all_eq_false] using shown
  have first := firstLine_carryOn (indentation unit k) after
  let p : Passage := { text, depth := k, exposed }
  have stands : p.Stands unit (carryOn (indentation unit k) after) := by
    refine ⟨fun _ => ?_, .inr ⟨c, ?_, ?_⟩⟩
    · rw [first, same]
      grind
    · rw [← first] at member
      exact mem_of_mem_firstLine member
    · rintro rfl
      exact absurd visible (by decide)
  have moved : ({ text, exposed } : Passage).shift k = p := by simp [Passage.shift, p]
  rw [carryOn_append _ shown, List.map_singleton, moved]
  exact .cons [] stands later

theorem Carries.append (ha : Carries unit a ps) (hb : Carries unit b qs) (sep : Separates b) :
    Carries unit (a ++ b) fun exposed => ps true ++ qs exposed := by
  intro k exposed after rs shown same later
  obtain ⟨visible, more⟩ := sep after
  have whole := ha k true visible (by simpa using more) (hb k exposed shown same later)
  simpa using whole

/-- Made text on one line in front. -/
theorem Carries.literal (hb : Carries unit b qs) (line : '\n' ∉ a) :
    Carries unit (a ++ b) qs := by
  intro k exposed after rs shown same later
  rw [List.append_assoc, carryOn_append_line _ line]
  exact (hb k exposed shown same later).front a

/-- The text keeps its passages, and from some place in front of them on it shows something on its
first line, if what is behind it does. -/
def Leads (unit : String) (text : List Char) (ps : Bool → List Passage) : Prop :=
  ∃ front back, text = front ++ back ∧ (∀ after, Shown after → Shown (back ++ after)) ∧
    Carries unit back ps

theorem leads_made (text : List Char) : Leads unit text fun _ => [] :=
  ⟨text, [], by simp, fun _ shown => shown, carries_made []⟩

theorem Carries.leads {l : List Char} (h : Carries unit (l ++ b) qs) (line : '\n' ∉ l)
    (visible : l.all Text.isBlank = false) : Leads unit (l ++ b) qs := by
  refine ⟨[], l ++ b, rfl, fun after _ => ?_, h⟩
  rw [Shown, List.append_assoc, firstLine_append line, List.all_append, visible]
  rfl

theorem Leads.carries (h : Leads unit a ps) : Carries unit a ps := by
  obtain ⟨front, back, rfl, shown, carries⟩ := h
  intro k exposed after rs visible same later
  rw [List.append_assoc, carryOn_append _ (shown after visible)]
  exact (carries k exposed visible same later).front _

theorem Leads.behind (h : Leads unit a ps) (made : List Char) : Leads unit (made ++ a) ps := by
  obtain ⟨front, back, rfl, rest⟩ := h
  exact ⟨made ++ front, back, (List.append_assoc ..).symm, rest⟩

theorem Leads.append (ha : Leads unit a ps) (hb : Carries unit b qs) (sep : Separates b) :
    Leads unit (a ++ b) fun exposed => ps true ++ qs exposed := by
  obtain ⟨front, back, rfl, shown, carries⟩ := ha
  refine ⟨front, back ++ b, by simp, fun after _ => ?_, carries.append hb sep⟩
  rw [List.append_assoc]
  exact shown _ (sep after).1

/-- Texts that keep their passages, in a place where something follows each of them. -/
inductive CarriesAll (unit : String) : List String → List Passage → Prop where
  | nil : CarriesAll unit [] []
  | cons {t : String} {ts : List String} {ps : Bool → List Passage} {qs : List Passage} :
    Carries unit t.toList ps → CarriesAll unit ts qs → CarriesAll unit (t :: ts) (ps true ++ qs)

theorem CarriesAll.append {ts us : List String} {ps qs : List Passage} (ht : CarriesAll unit ts ps)
    (hu : CarriesAll unit us qs) : CarriesAll unit (ts ++ us) (ps ++ qs) := by
  induction ht with
  | nil => exact hu
  | cons first _ ih =>
    rw [List.append_assoc]
    exact .cons first ih

theorem carriesAll_restPart (rest : Option String) : CarriesAll unit (restPart rest) [] := by
  cases rest with
  | none => exact .nil
  | some name => exact .cons (carries_made _) .nil

theorem CarriesAll.commas {ts : List String} {ps : List Passage} (h : CarriesAll unit ts ps)
    (hb : Carries unit b qs) (sep : Separates b) :
    Carries unit ((commas ts).toList ++ b) fun exposed => ps ++ qs exposed := by
  induction h with
  | nil => exact hb
  | @cons t ts ps rs first others ih =>
    cases others with
    | nil => simpa [Script.commas] using first.append hb sep
    | cons second others =>
      have comma : Separates ", ".toList := separates_line (by decide)
      have whole := first.append (ih.literal (a := ", ".toList) (by decide)) (comma.append _)
      simpa [Script.commas] using whole

end

end TypeGuard.Script
