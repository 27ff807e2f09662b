import Mathlib.Data.List.TakeWhile
import TypeGuard.Proofs.Script.Weaving

/-!
# Printed lines

A statement is printed as whole lines under the margin of its place. The body of a function is
printed on its own, and then its lines are indented, or it goes on one line with the header. In both
cases the passages in it are kept: `Carries.braced`.

## Main definitions

* `Lays`: a step lays out the same text wherever it prints.
* `Prints`, `PrintsAll`: a step lays out text that keeps its passages, on lines of its own.
-/

namespace TypeGuard.Script

open Text (joinList splitList)

/-! ## Whole lines -/

/-- The text is empty or ends in a line feed. -/
def WholeLines (cs : List Char) : Prop := cs = [] ∨ ∃ ds, cs = ds ++ ['\n']

theorem WholeLines.append {cs ds : List Char} (hc : WholeLines cs) (hd : WholeLines ds) :
    WholeLines (cs ++ ds) := by
  obtain rfl | ⟨ds, rfl⟩ := hd
  · simpa using hc
  · exact .inr ⟨cs ++ ds, (List.append_assoc ..).symm⟩

theorem layOut_newline (m cs : List Char) : layOut m (cs ++ ['\n']) = layOut m cs ++ ['\n'] :=
  layOut_append_feed m cs []

theorem carryOn_newline (m cs : List Char) : carryOn m (cs ++ ['\n']) = carryOn m cs ++ ['\n'] :=
  carryOn_append_feed m cs []

theorem WholeLines.layOut {cs : List Char} (h : WholeLines cs) (m : List Char) :
    WholeLines (layOut m cs) := by
  obtain rfl | ⟨ds, rfl⟩ := h
  · exact .inl rfl
  · exact .inr ⟨_, layOut_newline m ds⟩

theorem WholeLines.layOut_append {cs : List Char} (h : WholeLines cs) (m ds : List Char) :
    Script.layOut m (cs ++ ds) = Script.layOut m cs ++ Script.layOut m ds := by
  obtain rfl | ⟨front, rfl⟩ := h
  · rfl
  · rw [layOut_newline, List.append_assoc, List.append_assoc]
    exact layOut_append_feed m front ds

theorem ended_eq_joinList {ls : List (List Char)} (h : ls ≠ []) :
    ended ls = joinList '\n' ls ++ ['\n'] := by
  induction ls with
  | nil => exact absurd rfl h
  | cons l ls ih =>
    cases ls with
    | nil => simp [ended, joinList]
    | cons next others =>
      have rest := ih (by simp)
      simp_all [ended, joinList]

/-! ## Steps -/

namespace Layout

/-- The layout with a text under its margin. -/
def lay (cs : List Char) (l : Layout) : Layout :=
  { l with text := l.text ++ .ofList (layOut l.margin.toList cs) }

theorem emit_eq_lay (code : String) (l : Layout) : l.emit code = l.lay (code.toList ++ ['\n']) := by
  have lines : ended (l.added code) = layOut l.margin.toList (code.toList ++ ['\n']) := by
    rw [layOut_newline, ended_eq_joinList]
    · rfl
    · simpa [added] using Text.splitList_ne_nil '\n' code.toList
  have text : (l.emit code).text = (l.lay (code.toList ++ ['\n'])).text := by
    apply String.toList_injective
    rw [text_emit, lines]
    simp [lay]
  exact congrArg (fun text => { l with text }) text

theorem lay_lay {cs : List Char} (h : WholeLines cs) (ds : List Char) (l : Layout) :
    (l.lay cs).lay ds = l.lay (cs ++ ds) := by
  simp only [lay, h.layOut_append, String.ofList_append, ← String.append_assoc]
  rfl

end Layout

/-- Wherever it prints, the step lays out the text, which is made of whole lines. -/
structure Lays (unit : String) (step : Layout → Except PrintError Layout) (cs : List Char) :
    Prop where
  whole : WholeLines cs
  runs : ∀ l : Layout, l.unit = unit → step l = .ok (l.lay cs)

section
variable {unit : String}

theorem lays_nothing : Lays unit .ok [] :=
  ⟨.inl rfl, fun l _ => by
    have empty : layOut l.margin.toList [] = [] := rfl
    simp [Layout.lay, empty]⟩

theorem lays_emit (code : String) :
    Lays unit (fun l => .ok (l.emit code)) (code.toList ++ ['\n']) :=
  ⟨.inr ⟨_, rfl⟩, fun l _ => congrArg Except.ok (l.emit_eq_lay code)⟩

theorem Lays.append {first second : Layout → Except PrintError Layout} {cs ds : List Char}
    (hc : Lays unit first cs) (hd : Lays unit second ds) :
    Lays unit (fun l => first l >>= second) (cs ++ ds) := by
  refine ⟨hc.whole.append hd.whole, fun l same => ?_⟩
  rw [hc.runs l same]
  change second (l.lay cs) = _
  rw [hd.runs (l.lay cs) same, Layout.lay_lay hc.whole]

theorem Lays.block {body : Layout → Except PrintError Layout} {cs : List Char}
    (h : Lays unit body cs) (feedless : '\n' ∉ unit.toList) (header footer : String) :
    Lays unit (Layout.block header footer body)
      (header.toList ++ '\n' :: layOut unit.toList cs ++ (footer.toList ++ ['\n'])) := by
  have head : WholeLines (header.toList ++ ['\n']) := .inr ⟨_, rfl⟩
  have inner := h.whole.layOut unit.toList
  have split : header.toList ++ '\n' :: layOut unit.toList cs
      = header.toList ++ ['\n'] ++ layOut unit.toList cs := by simp
  rw [split]
  refine ⟨(head.append inner).append (.inr ⟨_, rfl⟩), fun l same => ?_⟩
  have margin : (l.emit header).indent.margin.toList = l.margin.toList ++ unit.toList := by
    simpa [indentation, Layout.indent, Layout.emit, same, Layout.margin]
      using indentation_succ l.unit l.level
  have body : ((l.emit header).indent.lay cs).dedent
      = (l.emit header).lay (layOut unit.toList cs) := by
    have lines := layOut_layOut l.margin.toList feedless cs
    simp only [Layout.lay, margin, ← lines]
    rfl
  unfold Layout.block
  rw [h.runs (l.emit header).indent same]
  refine congrArg Except.ok ?_
  rw [body, l.emit_eq_lay header, Layout.emit_eq_lay, Layout.lay_lay head,
    Layout.lay_lay (head.append inner)]

end

/-- The unit of indentation is made of blanks on one line. -/
structure Indents (unit : String) : Prop where
  blank : unit.toList.all Text.isBlank = true
  feedless : '\n' ∉ unit.toList

/-! ## Statements -/

/-- The step prints lines that keep their passages, also behind other text on the first line. -/
def Prints (unit : String) (step : Layout → Except PrintError Layout) (ps : List Passage) : Prop :=
  ∃ cs, Lays unit step (cs ++ ['\n']) ∧ ∀ k, Woven unit (Passage.Stands unit)
    (carryOn (indentation unit k) (layOut [] cs)) (ps.map (Passage.shift k))

/-- The step prints lines, if any, that keep their passages. -/
def PrintsAll (unit : String) (step : Layout → Except PrintError Layout) (ps : List Passage) :
    Prop :=
  ∃ cs, Lays unit step cs ∧ ∀ k, Woven unit (Passage.Stands unit)
    (layOut (indentation unit k) cs) (ps.map (Passage.shift k))

section
variable {unit : String} {first second : Layout → Except PrintError Layout}
  {ps qs : List Passage}

theorem Woven.append_lines {cs ds : List Char} (h : Woven unit (Passage.Stands unit) cs ps)
    (whole : WholeLines cs) (later : Woven unit (Passage.Stands unit) ds qs) :
    Woven unit (Passage.Stands unit) (cs ++ ds) (ps ++ qs) := by
  obtain rfl | ⟨front, rfl⟩ := whole
  · rwa [h.eq_nil]
  · simpa using h.drop_feed.append_feed later

theorem prints_made (code : String) : Prints unit (fun l => .ok (l.emit code)) [] :=
  ⟨code.toList, lays_emit code, fun _ => .nil _⟩

/-- A step that first prints something else. -/
theorem Prints.bind {α : Type} {x : Except PrintError α} {a : α} (printed : x = .ok a)
    {step : α → Layout → Except PrintError Layout} (h : Prints unit (step a) ps) :
    Prints unit (fun l => x >>= fun a => step a l) ps := by
  subst printed
  exact h

theorem printsAll_nothing : PrintsAll unit .ok [] := ⟨[], lays_nothing, fun _ => .nil _⟩

theorem Prints.cons (hf : Prints unit first ps) (hs : PrintsAll unit second qs) :
    PrintsAll unit (fun l => first l >>= second) (ps ++ qs) := by
  obtain ⟨cs, front, woven⟩ := hf
  obtain ⟨ds, back, later⟩ := hs
  refine ⟨_, front.append back, fun k => ?_⟩
  obtain ⟨before, same⟩ := exists_layOut_eq (indentation unit k) cs
  rw [front.whole.layOut_append, layOut_newline, List.append_assoc, List.map_append, same]
  exact ((woven k).front before).append_feed (later k)

/-- A text that keeps its passages is printed behind made text and with a semicolon at its end. -/
theorem Leads.prints {code : String} {a : List Char} {ps : Bool → List Passage}
    (h : Leads unit a ps) (made : List Char) (text : code.toList = made ++ (a ++ [';'])) :
    Prints unit (fun l => .ok (l.emit code)) (ps false) := by
  obtain ⟨front, back, rfl, shown, carries⟩ := h
  have visible : Shown [';'] := shown_cons (by decide) []
  have ending : firstLine [';'] = [';'] := firstLine_line (by decide)
  refine ⟨code.toList, lays_emit code, fun k => ?_⟩
  obtain ⟨before, same⟩ :=
    exists_carryOn_layOut (indentation unit k) (shown [';'] visible) (made ++ front)
  have woven := carries k false visible (by simp [ending]) (.nil _)
  rw [List.append_nil] at woven
  rw [text, List.append_assoc, ← List.append_assoc made, same]
  exact woven.front before

/-- A block is printed with the passages of its header and, one level further in, of its body. -/
theorem Carries.printsBlock {header footer : String} {a l : List Char}
    (ha : Carries unit a fun _ => ps) (text : header.toList = a ++ l) (line : '\n' ∉ l)
    (sep : Separates l) (shown : Shown header.toList) (indents : Indents unit)
    (hb : PrintsAll unit first qs) :
    Prints unit (Layout.block header footer first) (ps ++ qs.map (Passage.shift 1)) := by
  obtain ⟨cs, lays, woven⟩ := hb
  refine ⟨header.toList ++ '\n' :: layOut unit.toList cs ++ footer.toList, ?_, fun k => ?_⟩
  · simpa using lays.block indents.feedless header footer
  have visible : Shown (header.toList ++ '\n' :: layOut unit.toList cs ++ footer.toList) := by
    rwa [List.append_assoc, List.cons_append, Shown, firstLine_append_feed]
  obtain ⟨before, same⟩ := exists_carryOn_layOut (indentation unit k) visible []
  have body : Woven unit (Passage.Stands unit)
      (carryOn (indentation unit k) (l ++ '\n' :: (layOut unit.toList cs ++ footer.toList)))
      ((qs.map (Passage.shift 1)).map (Passage.shift k)) := by
    have lines := woven (k + 1)
    rw [indentation_succ, ← layOut_layOut _ indents.feedless] at lines
    have inner := lays.whole.layOut unit.toList
    have closed := (lines.append_lines (inner.layOut _)
      (.nil (layOut (indentation unit k) footer.toList))).front ['\n']
    rw [carryOn_feed _ line, inner.layOut_append, Passage.map_shift_shift, Nat.add_comm]
    simpa using closed.front l
  obtain ⟨separate, more⟩ := sep ('\n' :: (layOut unit.toList cs ++ footer.toList))
  have whole := ha k true separate (by simpa using more) body
  rw [← List.map_append, ← List.append_assoc, ← text, ← List.cons_append, ← List.append_assoc]
    at whole
  rw [List.nil_append] at same
  rw [same]
  exact whole.front before

/-- The last line of raw statements, if a comment may end it. -/
def Passage.ofComment (cs : List Char) : List Passage :=
  if hasCommentMark (lastLine cs) then [{ text := lastLine cs }] else []

theorem shown_of_hasCommentMark {cs : List Char} (h : hasCommentMark cs = true) :
    cs.all Text.isBlank = false := by
  obtain ⟨front, back, rfl⟩ := (hasCommentMark_iff cs).1 h
  rw [List.all_eq_false]
  exact ⟨'/', by simp, by decide⟩

theorem prints_raw (code : String) :
    Prints unit (fun l => .ok (l.emit code)) (Passage.ofComment code.toList) := by
  refine ⟨code.toList, lays_emit code, fun k => ?_⟩
  unfold Passage.ofComment
  split
  next marked =>
    have visible := shown_of_hasCommentMark marked
    obtain ⟨before, same⟩ := exists_carryOn_eq (indentation unit k) visible
    have feedless := not_mem_lastLine code.toList
    let p : Passage := { text := lastLine code.toList, depth := 0 + k }
    have form : p.form unit = lastLine code.toList := p.form_of_line unit feedless
    have stands : p.Stands unit [] := by
      refine ⟨fun _ => by simp [p, firstLine_line], .inl ?_⟩
      rw [form, lastLine_line feedless]
      rintro empty
      rw [empty] at visible
      exact absurd visible (by decide)
    have woven : Woven unit (Passage.Stands unit) (before ++ p.form unit ++ []) [p] :=
      .cons before stands (.nil [])
    rwa [form, List.append_nil, ← same] at woven
  next => exact .nil _

/-! ## Bodies of functions -/

theorem exists_trimEnd_eq (cs : List Char) :
    ∃ n, cs = trimEnd cs ++ List.replicate n '\n' := by
  have feeds : ∀ c ∈ cs.reverse.takeWhile (· == '\n'), c = '\n' := by
    intro c member
    simpa using List.mem_takeWhile_imp member
  refine ⟨(cs.reverse.takeWhile (· == '\n')).length, ?_⟩
  rw [trimEnd, ← List.reverse_replicate, ← List.eq_replicate_of_mem feeds, ← List.reverse_append,
    List.takeWhile_append_dropWhile, List.reverse_reverse]

/-- What is exported stands behind the keyword, without the line feeds at its end. -/
theorem Prints.exports {inner : Layout} (h : Prints unit first ps)
    (run : first { unit } = .ok inner) :
    Prints unit (fun l => .ok (l.emit ("export " ++ .ofList (trimEnd inner.text.toList)))) ps := by
  obtain ⟨cs, lays, woven⟩ := h
  have text : inner.text.toList = layOut [] cs ++ ['\n'] := by
    obtain rfl := Except.ok.inj ((lays.runs { unit } rfl).symm.trans run)
    simp [Layout.lay, show ({ unit } : Layout).margin.toList = [] from rfl, layOut_newline]
  obtain ⟨n, feeds⟩ := exists_trimEnd_eq inner.text.toList
  have code : ("export " ++ String.ofList (trimEnd inner.text.toList)).toList
      = "export ".toList ++ trimEnd inner.text.toList := by simp
  refine ⟨_, lays_emit _, fun k => ?_⟩
  have kept : Woven unit (Passage.Stands unit)
      (carryOn (indentation unit k) (trimEnd inner.text.toList)) (ps.map (Passage.shift k)) := by
    have lines := (woven k).append_feed (.nil [])
    rw [← carryOn_newline, ← text, feeds, carryOn_feeds, List.append_nil] at lines
    exact lines.drop_feeds
  have shown : Shown ("export ".toList ++ trimEnd inner.text.toList) := shown_cons (by decide) _
  obtain ⟨before, same⟩ := exists_carryOn_layOut (indentation unit k) shown []
  rw [List.nil_append, carryOn_append_line _ (by decide)] at same
  rw [code, same]
  exact (kept.front _).front before

theorem toList_intercalate_newline (ls : List (List Char)) :
    ("\n".intercalate (ls.map .ofList)).toList = joinList '\n' ls := by
  induction ls with
  | nil => rfl
  | cons l ls ih =>
    cases ls with
    | nil => simp [joinList]
    | cons next others =>
      rw [List.map_cons, List.map_cons, String.intercalate_cons_cons, ← List.map_cons,
        String.toList_append, ih, joinList_cons (List.cons_ne_nil next others)]
      simp

theorem indented_line (unit : String) (line : List Char) :
    (if String.ofList line = "" then String.ofList line else unit ++ String.ofList line)
      = .ofList (indentLine unit.toList line) := by
  apply String.toList_injective
  cases line <;> simp [indentLine]

theorem toList_indented_lines (unit : String) (ls : List (List Char)) :
    ("\n".intercalate ((ls.map String.ofList).map fun line =>
      if line = "" then line else unit ++ line)).toList
      = joinList '\n' (ls.map (indentLine unit.toList)) := by
  rw [← toList_intercalate_newline, List.map_map, List.map_map]
  simp only [Function.comp_def, indented_line]

/-- The ways in which a body is written behind its header. -/
theorem toList_braced (unit header : String) (body : List Stmt) (code : String) :
    (body = [] ∧ (braced unit header body code).toList = header.toList ++ " \x7b\x7d".toList) ∨
    (braced unit header body code).toList = header.toList ++ (" \x7b".toList ++ '\n' ::
      (joinList '\n' ((splitList '\n' (trimEnd code.toList)).map (indentLine unit.toList))
        ++ '\n' :: "\x7d".toList)) ∨
    ('\n' ∉ trimEnd code.toList ∧ hasCommentMark (trimEnd code.toList) = false ∧
      (braced unit header body code).toList
        = header.toList ++ (" \x7b ".toList ++ (trimEnd code.toList ++ " \x7d".toList))) := by
  have lines : Text.lines (.ofList (trimEnd code.toList))
      = (splitList '\n' (trimEnd code.toList)).map .ofList := by
    rw [Text.lines, Text.split, String.toList_ofList]
  unfold braced
  split
  next empty => exact .inl ⟨List.isEmpty_iff.1 empty, by simp [inBraces, openBrace, closeBrace]⟩
  next =>
    right
    rw [lines]
    generalize hs : splitList '\n' (trimEnd code.toList) = parts
    cases parts with
    | nil => exact absurd hs (Text.splitList_ne_nil _ _)
    | cons first others =>
      cases others with
      | nil =>
        have single : first = trimEnd code.toList := by
          have joined := Text.joinList_splitList '\n' (trimEnd code.toList)
          rwa [hs] at joined
        have line : '\n' ∉ first :=
          Text.not_mem_of_mem_splitList (hs ▸ List.mem_singleton_self first)
        rw [← single]
        simp only [List.map_cons, List.map_nil, String.toList_ofList, indented_line, joinList]
        cases mark : hasCommentMark first with
        | true =>
          left
          simp [openBrace, closeBrace]
        | false =>
          rw [Bool.or_false]
          split
          · left
            simp [openBrace, closeBrace]
          · exact .inr ⟨line, rfl, by simp [openBrace, closeBrace]⟩
      | cons second others =>
        left
        rw [← toList_indented_lines]
        simp [openBrace, closeBrace]

/-- A header with the texts of parameters in it. -/
theorem CarriesAll.header {ts : List String} (h : CarriesAll unit ts ps) (front : String)
    (close : String) (sep : Separates close.toList) :
    Carries unit (front ++ "(" ++ Script.commas ts ++ close).toList fun _ => ps := by
  have opening : Separates "(".toList := separates_line (by decide)
  have params := (h.commas (carries_made close.toList) sep).literal (a := "(".toList) (by decide)
  simpa using (carries_made front.toList).append params (opening.append _)

/-- A body behind a header that keeps its passages keeps its own, one level further in. -/
theorem Carries.braced {header : String} {body : List Stmt} {out : Layout}
    (hh : Carries unit header.toList fun _ => ps) (indents : Indents unit)
    (hb : PrintsAll unit (printStmts unit body) qs) (empty : body = [] → qs = [])
    (run : printStmts unit body { unit } = .ok out) :
    Carries unit (Script.braced unit header body out.text).toList
      fun _ => ps ++ qs.map (Passage.shift 1) := by
  obtain ⟨cs, lays, woven⟩ := hb
  have text : out.text.toList = layOut [] cs := by
    obtain rfl : ({ unit } : Layout).lay cs = out :=
      Except.ok.inj ((lays.runs { unit } rfl).symm.trans run)
    simp [Layout.lay, show ({ unit } : Layout).margin.toList = [] from rfl]
  obtain ⟨n, feeds⟩ := exists_trimEnd_eq out.text.toList
  -- At each depth the lines without the line feeds at their end keep the passages.
  have kept (k : Nat) : Woven unit (Passage.Stands unit)
      (layOut (indentation unit k) (trimEnd out.text.toList)) (qs.map (Passage.shift k)) := by
    have lines := woven k
    rw [← layOut_layOut_nil, ← text, feeds, layOut_feeds] at lines
    exact lines.drop_feeds
  obtain ⟨nothing, shape⟩ | shape | ⟨line, unmarked, shape⟩ :=
    toList_braced unit header body out.text
  · rw [shape, empty nothing]
    exact hh.append (carries_made _) (separates_line (by decide))
  · rw [shape]
    refine hh.append ?_ ((separates_line (by decide)).append _)
    intro k exposed after rs shown _ later
    have closing := layOut_append_line (indentation unit k) shown (l := "\x7d".toList) (by decide)
    have body := kept (k + 1)
    rw [indentation_succ, ← layOut_indented _ indents.blank indents.feedless] at body
    rw [List.append_assoc, List.cons_append, List.append_assoc, List.cons_append,
      carryOn_feed _ (by decide), layOut_append_feed, closing, Passage.map_shift_shift,
      Nat.add_comm]
    exact ((body.append_feed (later.front _)).front ['\n']).front _
  · rw [shape]
    refine hh.append ?_ ((separates_line (by decide)).append _)
    intro k exposed after rs shown _ later
    have body : Woven unit (Passage.Stands unit) (trimEnd out.text.toList) qs := by
      have flat := kept 0
      rw [indentation_zero, layOut_line [] line, Passage.map_shift_zero, placed] at flat
      split at flat
      · simpa using flat.front (trimEnd out.text.toList)
      · exact flat
    have inner := body.inline (k + 1) line unmarked (later.front " \x7d".toList)
    rw [List.append_assoc, List.append_assoc, carryOn_append_line _ (by decide),
      carryOn_append_line _ line, carryOn_append_line _ (by decide), Passage.map_shift_shift,
      Nat.add_comm]
    exact inner.front _

end

end TypeGuard.Script
