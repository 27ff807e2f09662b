import TypeGuard.Proofs.Script.Output

/-!
# Indentation

Statements are printed in pieces, each at some depth below the level where the printing began.
Which pieces these are does not depend on that level, so printing at a level gives the lines of
printing at level zero, each behind the margin of the level unless it is empty.

## Main definitions

* `indentText`: a text with a margin in front of each line that is not empty.
* `Layout.Writes`: a step writes the same pieces wherever it writes, or fails in the same way.
-/

namespace TypeGuard.Script

/-! ## Texts with a margin -/

/-- A line behind a margin; an empty line stays empty. -/
def indentLine (margin line : List Char) : List Char := if line.isEmpty then [] else margin ++ line

/-- The text with the margin in front of each line that is not empty. -/
def indentText (margin text : String) : String :=
  .ofList (Text.joinList '\n'
    ((Text.splitList '\n' text.toList).map (indentLine margin.toList)))

theorem joinList_ended (ls : List (List Char)) : Text.joinList '\n' (ls ++ [[]]) = ended ls := by
  induction ls with
  | nil => rfl
  | cons l ls ih =>
    have rest : ls ++ [[]] ≠ [] := by simp
    obtain ⟨next, others, split⟩ := List.exists_cons_of_ne_nil rest
    rw [List.cons_append, split, Text.joinList, ← split, ih]
    · simp [ended]
    · simp

/-- The lines of a text that ends in a line feed are indented one by one. -/
theorem toList_indentText_ended {margin : String} {ls : List (List Char)}
    (feedless : ∀ l ∈ ls, '\n' ∉ l) :
    (indentText margin (.ofList (ended ls))).toList
      = ended (ls.map (indentLine margin.toList)) := by
  have lines : Text.splitList '\n' (ended ls) = ls ++ [[]] := by
    have ends : ∀ l ∈ ls ++ [[]], '\n' ∉ l := by
      intro l member
      rcases List.mem_append.1 member with old | new
      · exact feedless l old
      · simp [List.mem_singleton.1 new]
    simpa using splitList_ended ends
  rw [indentText, String.toList_ofList, String.toList_ofList, lines, List.map_append]
  exact joinList_ended _

/-- A line that is placed at a margin and then indented is placed at both margins. -/
theorem indentLine_placed (outer inner cs : List Char) :
    indentLine outer (placed inner cs) = placed (outer ++ inner) cs := by
  unfold indentLine placed
  by_cases blank : cs.all Text.isBlank
  · simp [blank]
  · have visible : cs ≠ [] := by
      rintro rfl
      exact blank rfl
    simp [blank, visible]

namespace Layout

/-! ## Pieces of output -/

/-- Code that stands some levels below the current one. -/
structure Piece where
  depth : Nat
  code : String

def Piece.deeper (piece : Piece) : Piece := { piece with depth := piece.depth + 1 }

/-- The layout some levels further in. -/
def atDepth (l : Layout) (depth : Nat) : Layout := { l with level := l.level + depth }

/-- Adds one piece after the other. -/
def write (l : Layout) : List Piece → Layout
  | [] => l
  | piece :: pieces =>
    write { l with text := ((l.atDepth piece.depth).emit piece.code).text } pieces

/-- The lines that pieces add. -/
def written (l : Layout) (pieces : List Piece) : List (List Char) :=
  pieces.flatMap fun piece => (l.atDepth piece.depth).added piece.code

theorem write_append (l : Layout) (first second : List Piece) :
    l.write (first ++ second) = (l.write first).write second := by
  induction first generalizing l with
  | nil => rfl
  | cons piece first ih => exact ih _

/-- Writing adds lines, and changes neither the level nor anything else. -/
theorem write_eq (l : Layout) (pieces : List Piece) :
    l.write pieces = { l with text := l.text ++ .ofList (ended (l.written pieces)) } := by
  induction pieces generalizing l with
  | nil => simp [write, written, ended]
  | cons piece pieces ih =>
    have text : ((l.atDepth piece.depth).emit piece.code).text
        = l.text ++ .ofList (ended ((l.atDepth piece.depth).added piece.code)) := by
      apply String.toList_injective
      rw [text_emit, String.toList_append, String.toList_ofList]
      rfl
    have lines : l.written (piece :: pieces)
        = (l.atDepth piece.depth).added piece.code ++ l.written pieces := List.flatMap_cons
    rw [write, ih, text, lines, ended_append, String.ofList_append, ← String.append_assoc]
    rfl

theorem write_deeper (l : Layout) (pieces : List Piece) :
    l.write (pieces.map Piece.deeper) = (l.indent.write pieces).dedent := by
  induction pieces generalizing l with
  | nil => rfl
  | cons piece pieces ih =>
    have level : l.atDepth piece.deeper.depth = l.indent.atDepth piece.depth := by
      simp only [atDepth, Piece.deeper, indent, Layout.mk.injEq, true_and, and_true]
      omega
    rw [List.map_cons, write, ih, level]
    rfl

/-! ## Steps that write the same pieces everywhere -/

/-- Wherever it writes, the step fails with the given error or writes the given pieces. -/
def Writes {ε : Type} (step : Layout → Except ε Layout) (pieces : Except ε (List Piece)) : Prop :=
  ∀ l, step l = pieces.map l.write

namespace Writes

variable {ε : Type}

theorem error (e : ε) : Writes (fun _ => .error e) (.error e) := fun _ => rfl

theorem emit (code : String) : Writes (ε := ε) (fun l => .ok (l.emit code)) (.ok [⟨0, code⟩]) :=
  fun _ => rfl

theorem nothing : Writes (ε := ε) .ok (.ok []) := fun _ => rfl

theorem append {first second : Layout → Except ε Layout} {ps qs : Except ε (List Piece)}
    (hp : Writes first ps) (hq : Writes second qs) :
    Writes (fun l => first l >>= second) (do return (← ps) ++ (← qs)) := by
  intro l
  change (first l >>= second) = _
  rw [hp l]
  cases ps with
  | error e => rfl
  | ok ps =>
    change second (l.write ps) = _
    rw [hq]
    cases qs with
    | error e => rfl
    | ok qs => exact congrArg Except.ok (write_append l ps qs).symm

theorem block {body : Layout → Except ε Layout} {ps : Except ε (List Piece)}
    (header footer : String) (h : Writes body ps) :
    Writes (Layout.block header footer body)
      (ps.map fun ps => ⟨0, header⟩ :: ps.map Piece.deeper ++ [⟨0, footer⟩]) := by
  intro l
  unfold Layout.block
  rw [h]
  cases ps with
  | error e => rfl
  | ok ps =>
    have inner : (l.emit header).write (ps.map Piece.deeper)
        = ((l.emit header).indent.write ps).dedent := write_deeper _ ps
    refine congrArg Except.ok ?_
    rw [← inner, write_append]
    rfl

end Writes

end Layout

open Layout (Writes)

/-- A step that first prints something else writes what it writes for the printed text. -/
theorem exists_writes_bind {ε α : Type} (x : Except ε α) {step : α → Layout → Except ε Layout}
    (h : ∀ a, ∃ pieces, Writes (step a) pieces) :
    ∃ pieces, Writes (fun l => x >>= fun a => step a l) pieces := by
  cases x with
  | error e => exact ⟨.error e, .error e⟩
  | ok a => exact h a

/-- A step that emits the printed form of something. -/
theorem exists_writes_emit {ε α : Type} (x : Except ε α) (code : α → String) :
    ∃ pieces, Writes (fun l => x >>= fun a => pure (l.emit (code a))) pieces :=
  exists_writes_bind x fun a => ⟨_, .emit (code a)⟩

section
variable (unit : String)

mutual

/-- Which pieces a statement is printed in does not depend on where it is printed. -/
theorem exists_writes_printStmt : ∀ s : Stmt, ∃ pieces, Writes (printStmt unit s) pieces
  | .block body => by
    obtain ⟨pieces, writes⟩ := exists_writes_printStmts body
    exact ⟨_, writes.block openBrace closeBrace⟩
  | .function _ ⟨params, _, _⟩ body _ => by
    obtain ⟨pieces, writes⟩ := exists_writes_printStmts body
    exact exists_writes_bind (printParams unit params) fun _ => ⟨_, writes.block _ closeBrace⟩
  | .ret (some argument) => exists_writes_emit (printExpr unit argument) _
  | .expr expression => exists_writes_emit (printExpr unit expression) _
  | .var _ target none _ => exists_writes_emit (printPattern unit target) _
  | .var _ target (some init) _ =>
    exists_writes_bind (printPattern unit target) fun _ =>
      exists_writes_emit (printExpr unit init) _
  | .exports declaration _ => exists_writes_emit (printStmt unit declaration { unit }) _
  | .ret none => ⟨_, .emit _⟩
  | .raw _ => ⟨_, .emit _⟩
  | .imports _ => ⟨_, .emit _⟩
  | .typeAlias _ => ⟨_, .error _⟩
  | .interface _ => ⟨_, .error _⟩
  | .stray _ => ⟨_, .error _⟩
termination_by structural s => s

theorem exists_writes_printStmts : ∀ ss : List Stmt, ∃ pieces, Writes (printStmts unit ss) pieces
  | [] => ⟨_, .nothing⟩
  | s :: ss => by
    obtain ⟨first, writes⟩ := exists_writes_printStmt s
    obtain ⟨others, writes'⟩ := exists_writes_printStmts ss
    exact ⟨_, writes.append writes'⟩
termination_by structural ss => ss

end

end

/-! ## Printing at a level -/

namespace Layout

theorem margin_atDepth (l : Layout) (depth : Nat) :
    (l.atDepth depth).margin
      = l.margin ++ (({ unit := l.unit } : Layout).atDepth depth).margin := by
  simp [margin, atDepth, ← List.replicate_append_replicate, String.join_append]

/-- The lines of pieces at a level are those at level zero behind the margin. -/
theorem written_eq_map_indentLine (l : Layout) (pieces : List Piece) :
    l.written pieces
      = (({ unit := l.unit } : Layout).written pieces).map (indentLine l.margin.toList) := by
  unfold written
  rw [List.map_flatMap]
  congr 1
  funext piece
  rw [added, added, List.map_map]
  refine List.map_congr_left fun line _ => ?_
  rw [Function.comp_apply, indentLine_placed, margin_atDepth, String.toList_append]

theorem feedless_of_mem_written {l : Layout} {pieces : List Piece} {line : List Char}
    (feedless : '\n' ∉ l.unit.toList) (member : line ∈ l.written pieces) : '\n' ∉ line := by
  obtain ⟨piece, -, found⟩ := List.mem_flatMap.1 member
  exact (isLine_of_mem_added (l := l.atDepth piece.depth) feedless found).1

end Layout

/-- Statements are printed at a level as they are at level zero, with the margin of the level in
front of each line that is not empty. Printing fails at the one exactly if it fails at the other,
with the same error, and the layout comes back at its level. -/
theorem printStmts_eq_map_indentText (unit : String) (stmts : List Stmt) (out : Layout)
    (feedless : '\n' ∉ out.unit.toList) :
    printStmts unit stmts out =
      (printStmts unit stmts { unit := out.unit }).map fun flat =>
        { out with text := out.text ++ indentText out.margin flat.text } := by
  obtain ⟨pieces, writes⟩ := exists_writes_printStmts unit stmts
  rw [writes out, writes { unit := out.unit }]
  cases pieces with
  | error e => rfl
  | ok pieces =>
    let flat : Layout := { unit := out.unit }
    have lines : ∀ line ∈ flat.written pieces, '\n' ∉ line :=
      fun _ member => Layout.feedless_of_mem_written (l := flat) feedless member
    have indented : indentText out.margin (flat.write pieces).text
        = .ofList (ended (out.written pieces)) := by
      apply String.toList_injective
      rw [Layout.write_eq flat, String.empty_append, toList_indentText_ended lines,
        Layout.written_eq_map_indentLine out, String.toList_ofList]
    refine congrArg Except.ok ?_
    rw [Layout.write_eq out, ← indented]

/-- Statements of several kinds, nested in each other, with blank lines in raw text. -/
def nestedStmts : List Stmt :=
  let callback : Expr :=
    .function { params := [{ binding := .ident "x" }] }
      [.raw "first();\n \n  second();", .ret (some (.ident "x"))] none .unknown
  let inline : Expr := .arrow {} (.block [.ret none]) .unknown
  [.function "f" {}
      [.block [.raw "\na();\n\n\tb();\n"], .expr (.call (.ident "g") [callback, inline])] .unknown,
    .exports (.var .const (.ident "h") (some callback) .unknown) .unknown]

theorem nestedStmts_indented :
    let out : Layout := { unit := "\t", level := 2, text := "start\n" }
    '\n' ∉ out.unit.toList ∧ ∃ flat,
      printStmts "  " nestedStmts { unit := out.unit } = .ok flat ∧
      printStmts "  " nestedStmts out
        = .ok { out with text := out.text ++ indentText out.margin flat.text } := by
  intro out
  have feedless : '\n' ∉ out.unit.toList := by decide
  refine ⟨feedless, _, rfl, ?_⟩
  rw [printStmts_eq_map_indentText _ _ _ feedless]
  rfl

end TypeGuard.Script
