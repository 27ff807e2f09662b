import TypeGuard.Proofs.Text.Splitting
import TypeGuard.Script.Helper

/-!
# Output grows at its end

Printing never looks at what has been printed before, so statements behind others are printed as they
would be alone. Text that consists of whole lines, none of them blank but not empty, is printed again
as it is, which is what happens to the assertion helper.
-/

namespace TypeGuard.Script

/-! ## Printing behind other output -/

namespace Layout

/-- The layout with more text in front of its own. -/
def behind (text : String) (l : Layout) : Layout := { l with text := text ++ l.text }

theorem emit_behind (text code : String) (l : Layout) :
    (l.behind text).emit code = (l.emit code).behind text := by
  have same : (l.behind text).line = l.line := rfl
  simp only [emit, same]
  simp [behind, String.append_assoc]

theorem block_behind {ε : Type} (text header footer : String) {body : Layout → Except ε Layout}
    (h : ∀ l, body (l.behind text) = (body l).map (behind text)) (l : Layout) :
    (l.behind text).block header footer body = (l.block header footer body).map (behind text) := by
  have inner : body ((l.behind text).emit header).indent
      = (body (l.emit header).indent).map (behind text) := by
    rw [emit_behind]
    exact h (l.emit header).indent
  unfold block
  rw [inner]
  cases body (l.emit header).indent with
  | error e => rfl
  | ok out => exact congrArg Except.ok (emit_behind text footer out.dedent)

end Layout

section
variable (unit text : String)

mutual

/-- What a statement adds to the output does not depend on what is there. -/
theorem printStmt_behind : ∀ (s : Stmt) (out : Layout),
    printStmt unit s (out.behind text) = (printStmt unit s out).map (Layout.behind text)
  | .block body, out => Layout.block_behind text _ _ (printStmts_behind body) out
  | .function name ⟨params, _, _⟩ body _, out => by
    unfold printStmt
    cases printParams unit params with
    | error e => rfl
    | ok params => exact Layout.block_behind text _ _ (printStmts_behind body) out
  | .ret (some argument), out => by
    unfold printStmt
    cases printExpr unit argument with
    | error e => rfl
    | ok value => exact congrArg Except.ok (Layout.emit_behind text _ out)
  | .expr expression, out => by
    unfold printStmt
    cases printExpr unit expression with
    | error e => rfl
    | ok value => exact congrArg Except.ok (Layout.emit_behind text _ out)
  | .var kind target none _, out => by
    unfold printStmt
    cases printPattern unit target with
    | error e => rfl
    | ok target => exact congrArg Except.ok (Layout.emit_behind text _ out)
  | .var kind target (some init) _, out => by
    unfold printStmt
    cases printPattern unit target with
    | error e => rfl
    | ok target =>
      cases printExpr unit init with
      | error e => rfl
      | ok value => exact congrArg Except.ok (Layout.emit_behind text _ out)
  | .exports declaration _, out => by
    unfold printStmt
    cases printStmt unit declaration { unit } with
    | error e => rfl
    | ok inner => exact congrArg Except.ok (Layout.emit_behind text _ out)
  | .ret none, out | .raw _, out | .imports _, out =>
    congrArg Except.ok (Layout.emit_behind text _ out)
  | .typeAlias _, _ | .interface _, _ | .stray _, _ => rfl
termination_by structural s => s

theorem printStmts_behind : ∀ (ss : List Stmt) (out : Layout),
    printStmts unit ss (out.behind text) = (printStmts unit ss out).map (Layout.behind text)
  | [], _ => rfl
  | s :: ss, out => by
    have first := printStmt_behind s out
    unfold printStmts
    rw [first]
    cases printStmt unit s out with
    | error e => rfl
    | ok mid => exact printStmts_behind ss mid
termination_by structural ss => ss

end

end

/-! ## Whole lines -/

/-- The lines, each with its line feed. -/
def ended (ls : List (List Char)) : List Char := ls.flatMap (· ++ ['\n'])

@[simp] theorem ended_append (first second : List (List Char)) :
    ended (first ++ second) = ended first ++ ended second :=
  List.flatMap_append

/-- The line has no line feed in it, and is empty if it is blank. -/
def IsLine (cs : List Char) : Prop := '\n' ∉ cs ∧ (cs.all Text.isBlank = true → cs = [])

/-- A line as it is emitted at some margin. -/
def placed (margin cs : List Char) : List Char := if cs.all Text.isBlank then [] else margin ++ cs

theorem isLine_placed {margin cs : List Char} (hm : '\n' ∉ margin) (hc : '\n' ∉ cs) :
    IsLine (placed margin cs) := by
  unfold placed
  split
  next blank => exact ⟨by simp, fun _ => rfl⟩
  next visible =>
    refine ⟨by simp [hm, hc], fun h => ?_⟩
    rw [List.all_append, Bool.and_eq_true] at h
    exact absurd h.2 visible

namespace Layout

/-- The lines that emitting `code` adds. -/
def added (l : Layout) (code : String) : List (List Char) :=
  (Text.splitList '\n' code.toList).map (placed l.margin.toList)

theorem toList_line (l : Layout) (cs : List Char) :
    (l.line (.ofList cs)).toList = placed l.margin.toList cs ++ ['\n'] := by
  unfold line placed Text.isBlankText
  rw [String.toList_ofList]
  split <;> simp

theorem text_emit (l : Layout) (code : String) :
    (l.emit code).text.toList = l.text.toList ++ ended (l.added code) := by
  have each (parts : List (List Char)) :
      (String.join ((parts.map String.ofList).map l.line)).toList
        = ended (parts.map (placed l.margin.toList)) := by
    induction parts with
    | nil => rfl
    | cons part parts ih =>
      rw [List.map_cons, List.map_cons, String.join_cons, String.toList_append, toList_line, ih]
      rfl
  rw [emit, String.toList_append, Text.lines, Text.split, each]
  rfl

theorem not_mem_margin {l : Layout} (h : '\n' ∉ l.unit.toList) : '\n' ∉ l.margin.toList := by
  unfold margin
  induction l.level with
  | zero => simp [String.join]
  | succ n ih =>
    rw [List.replicate_succ, String.join_cons, String.toList_append, List.mem_append, not_or]
    exact ⟨h, ih⟩

theorem isLine_of_mem_added {l : Layout} {code : String} (h : '\n' ∉ l.unit.toList) {cs : List Char}
    (member : cs ∈ l.added code) : IsLine cs := by
  obtain ⟨part, found, rfl⟩ := List.mem_map.1 member
  exact isLine_placed (not_mem_margin h) (Text.not_mem_of_mem_splitList found)

/-- The text is made of whole lines, and the first of them is not empty. -/
def Whole (l : Layout) : Prop :=
  '\n' ∉ l.unit.toList ∧ ∃ first others, l.text.toList = ended (first :: others) ∧ first ≠ [] ∧
    ∀ cs ∈ first :: others, IsLine cs

theorem Whole.emit {l : Layout} (h : l.Whole) (code : String) : (l.emit code).Whole := by
  obtain ⟨unit, first, others, text, visible, lines⟩ := h
  refine ⟨unit, first, others ++ l.added code, ?_, visible, ?_⟩
  · rw [text_emit, text, ← List.cons_append, ended_append]
  · intro cs member
    rw [← List.cons_append, List.mem_append] at member
    obtain old | new := member
    · exact lines cs old
    · exact isLine_of_mem_added unit new

theorem Whole.wrap {l : Layout} (h : l.Whole) (header footer : String) {body : Layout → Layout}
    (kept : ∀ l : Layout, l.Whole → (body l).Whole) : (l.wrap header footer body).Whole := by
  have inner : (body (l.emit header).indent).Whole := kept _ (h.emit header)
  exact Whole.emit (l := (body (l.emit header).indent).dedent) inner footer

/-- The first text that is emitted begins with a visible character. -/
theorem whole_emit_empty {c : Char} {cs : List Char} (visible : Text.isBlank c = false)
    (l : Layout) (unit : '\n' ∉ l.unit.toList) (empty : l.text = "") :
    (l.emit (.ofList (c :: cs))).Whole := by
  have shown : c ≠ '\n' := by
    rintro rfl
    exact absurd visible (by decide)
  obtain ⟨part, parts, split⟩ : ∃ part parts,
      Text.splitList '\n' (c :: cs) = (c :: part) :: parts := by
    unfold Text.splitList
    rw [if_neg shown]
    cases Text.splitList '\n' cs with
    | nil => exact ⟨[], [], rfl⟩
    | cons part parts => exact ⟨part, parts, rfl⟩
  have lines : l.added (.ofList (c :: cs))
      = (l.margin.toList ++ c :: part) :: parts.map (placed l.margin.toList) := by
    rw [added, String.toList_ofList, split, List.map_cons]
    simp [placed, visible]
  refine ⟨unit, l.margin.toList ++ c :: part, parts.map (placed l.margin.toList), ?_, by simp, ?_⟩
  · rw [text_emit, empty, lines]
    rfl
  · intro line member
    rw [← lines] at member
    exact isLine_of_mem_added unit member

end Layout

/-- Lines that are followed by one more are found again. -/
theorem splitList_ended {ls : List (List Char)} {last : List Char}
    (h : ∀ cs ∈ ls ++ [last], '\n' ∉ cs) :
    Text.splitList '\n' (ended ls ++ last) = ls ++ [last] := by
  induction ls with
  | nil => exact Text.splitList_of_not_mem (h last (by simp))
  | cons l ls ih =>
    have here : '\n' ∉ l := h l (by simp)
    have later := ih fun cs member => h cs (List.mem_cons_of_mem _ member)
    have front : ended (l :: ls) ++ last = l ++ '\n' :: (ended ls ++ last) := by simp [ended]
    rw [front, Text.splitList_append_cons here, later, List.cons_append]

theorem trimEnd_append_newline {cs : List Char} {c : Char} (h : c ≠ '\n') :
    trimEnd (cs ++ [c] ++ ['\n']) = cs ++ [c] := by
  simp [trimEnd, h]

/-- Whole lines, the first and the last of them not empty, are emitted again as they are. -/
theorem text_emit_trimLines (unit : String) {s : String} {ls : List (List Char)} {last : List Char}
    {c : Char} (text : s.toList = ended ls ++ last ++ [c] ++ ['\n']) (visible : c ≠ '\n')
    (front : s.toList.head? ≠ some '\n') (lines : ∀ cs ∈ ls ++ [last ++ [c]], IsLine cs) :
    (({ unit } : Layout).emit (trimLines s)).text = s := by
  have kept : s.toList.dropWhile (· == '\n') = s.toList := by
    cases hs : s.toList with
    | nil => rfl
    | cons d ds =>
      rw [hs] at front
      have shown : d ≠ '\n' := by simpa using front
      simp [shown]
  have trimmed : (trimLines s).toList = ended ls ++ (last ++ [c]) := by
    rw [trimLines, String.toList_ofList, kept, text, trimEnd_append_newline visible,
      List.append_assoc]
  have again (cs : List Char) (h : IsLine cs) : placed [] cs = cs := by
    unfold placed
    split
    next blank => exact (h.2 blank).symm
    next => rfl
  have added : ({ unit } : Layout).added (trimLines s) = ls ++ [last ++ [c]] := by
    rw [Layout.added, trimmed, splitList_ended fun cs member => (lines cs member).1]
    exact (List.map_congr_left fun cs member => again cs (lines cs member)).trans (List.map_id _)
  apply String.toList_injective
  rw [Layout.text_emit, added, ended_append, text]
  simp [ended]

/-- A block of whole lines whose header begins with a visible character. -/
theorem exists_whole_of_wrap {header : String} {c : Char} (footer : String)
    {body : Layout → Layout} (visible : Text.isBlank c = false)
    (front : header.toList.head? = some c)
    (kept : ∀ l : Layout, l.Whole → (body l).Whole) : ∃ inner : Layout,
      inner.Whole ∧ (Layout.wrap header footer body {}).text = (inner.emit footer).text := by
  obtain ⟨cs, split⟩ : ∃ cs, header.toList = c :: cs := List.head?_eq_some_iff.1 front
  have opened : (({} : Layout).emit header).Whole := by
    rw [← String.ofList_toList (s := header), split]
    exact Layout.whole_emit_empty visible {} (by decide) rfl
  exact ⟨(body (({} : Layout).emit header).indent).dedent, kept _ opened, rfl⟩

/-- The assertion helper is made of whole lines, and a brace closes it. -/
theorem helperText_eq (name t : String) : ∃ inner : Layout,
    inner.Whole ∧ helperText name t = (inner.emit closeBrace).text := by
  unfold helperText
  refine exists_whole_of_wrap (c := 'f') closeBrace (by decide) ?_ ?_
  · simp
  · intro l whole
    refine Layout.Whole.wrap (Layout.Whole.wrap (Layout.Whole.wrap whole _ _ ?_) _ _ ?_) _ _ ?_
    · exact fun _ whole => whole.emit _
    · exact fun _ whole => (whole.emit _).wrap _ _ fun _ inner => inner.emit _
    · exact fun _ whole => whole.emit _

/-- The assertion helper is printed as it is. -/
theorem text_emit_helperText (unit name t : String) :
    (({ unit } : Layout).emit (trimLines (helperText name t))).text = helperText name t := by
  obtain ⟨inner, ⟨noFeed, first, others, text, visible, lines⟩, same⟩ := helperText_eq name t
  have closing : inner.added closeBrace = [inner.margin.toList ++ ['\x7d']] := by
    simp [Layout.added, closeBrace, Text.splitList, placed, Text.isBlank, Text.blankRanges,
      Text.inRanges]
  have whole : (helperText name t).toList
      = ended (first :: others) ++ inner.margin.toList ++ ['\x7d'] ++ ['\n'] := by
    rw [same, Layout.text_emit, text, closing]
    simp [ended]
  refine text_emit_trimLines unit whole (by decide) ?_ ?_
  · have feedless : '\n' ∉ first := (lines first (List.mem_cons_self ..)).1
    cases first with
    | nil => exact absurd rfl visible
    | cons c cs =>
      have shown : c ≠ '\n' := fun h => feedless (h ▸ List.mem_cons_self ..)
      simpa [whole, ended] using shown
  · intro cs member
    obtain old | new := List.mem_append.1 member
    · exact lines cs old
    · rw [← closing] at new
      exact Layout.isLine_of_mem_added noFeed new

end TypeGuard.Script
