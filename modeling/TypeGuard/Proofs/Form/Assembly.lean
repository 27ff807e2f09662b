import TypeGuard.Form.Reader
import TypeGuard.Proofs.Outcome

/-!
# What all forms of a text have

Forms are assembled on a stack, token by token. `Form.Hereditary.ofLexemes` says that a property that
atoms and texts have, and that passes from forms to what is made of them, is one of every form that is
assembled.
-/

namespace TypeGuard

namespace Form

/-- Atoms and texts have the property, and so have the forms that are made of forms that have it. -/
structure Hereditary (holds : Form → Prop) : Prop where
  atom : ∀ cs, holds (ofAtom cs)
  text : ∀ value, holds (.text value)
  quoted : ∀ form, holds form → holds (.quoted form)
  list : ∀ items, (∀ item ∈ items, holds item) → holds (.list items {})
  brackets : ∀ items, (∀ item ∈ items, holds item) → holds (.brackets items)

variable {holds : Form → Prop}

namespace Levels

/-- Every form on every level has the property. -/
def All (holds : Form → Prop) (l : Levels) : Prop :=
  (∀ form ∈ l.current, holds form) ∧ ∀ level ∈ l.outer, ∀ form ∈ level.2, holds form

theorem All.push {l : Levels} {form : Form} (h : l.All holds) (first : holds form) :
    (l.push form).All holds :=
  ⟨List.forall_mem_cons.2 ⟨first, h.1⟩, h.2⟩

theorem All.enter {l : Levels} (h : l.All holds) (opener : Opener) : (l.enter opener).All holds :=
  ⟨by simp [Levels.enter], List.forall_mem_cons.2 ⟨h.1, h.2⟩⟩

theorem All.closeQuotes (kept : Hereditary holds) {current : List Form}
    {outer : List (Opener × List Form)} (h : All holds ⟨current, outer⟩) :
    Ends (fun _ => True) (All holds) (closeQuotes current outer) := by
  fun_induction Levels.closeQuotes current outer with
  | case1 => trivial
  | case2 current offset before outer first others reversed ih =>
    have inside : ∀ form ∈ first :: others, holds form := by
      intro form member
      rw [← reversed] at member
      exact h.1 form (List.mem_reverse.1 member)
    obtain ⟨inFirst, inOthers⟩ := List.forall_mem_cons.1 inside
    obtain ⟨inBefore, inOuter⟩ := List.forall_mem_cons.1 h.2
    have quoted : holds (.quoted first) := kept.quoted first inFirst
    refine ih ⟨List.forall_mem_append.2 ⟨?_, List.forall_mem_cons.2 ⟨quoted, inBefore⟩⟩, inOuter⟩
    exact fun form member => inOthers form (List.mem_reverse.1 member)
  | case3 => exact h

theorem All.close (kept : Hereditary holds) {bracket : Bracket} {cs : List Char} {offset : Nat}
    {l : Levels} (h : l.All holds) :
    Ends (fun _ => True) (All holds) (l.close bracket cs offset) := by
  refine (h.closeQuotes kept).bind fun mid inside => ?_
  split
  next current expected before outer =>
    obtain ⟨inCurrent, inOuter⟩ := inside
    obtain ⟨inBefore, inOuter⟩ := List.forall_mem_cons.1 inOuter
    have items : ∀ item ∈ current.reverse, holds item :=
      fun item member => inCurrent item (List.mem_reverse.1 member)
    split
    · refine .pure ⟨List.forall_mem_cons.2 ⟨?_, inBefore⟩, inOuter⟩
      cases expected with
      | round => exact kept.list _ items
      | square => exact kept.brackets _ items
    · trivial
  · trivial

theorem All.step (kept : Hereditary holds) {cs : List Char} {l : Levels} (h : l.All holds)
    (lexeme : Lexeme) : Ends (fun _ => True) (All holds) (l.step cs lexeme) := by
  obtain ⟨token, offset⟩ := lexeme
  cases token with
  | opening bracket => exact h.enter _
  | apostrophe => exact h.enter _
  | closing bracket => exact h.close kept
  | text value => exact h.push (kept.text _)
  | atom value => exact h.push (kept.atom value)
  | unterminated | danglingEscape => trivial

end Levels

/-- Every form that is assembled has the property. -/
theorem Hereditary.ofLexemes (kept : Hereditary holds) (cs : List Char) (lexemes : List Lexeme) :
    Ends (fun _ => True) (fun forms => ∀ form ∈ forms, holds form) (ofLexemes cs lexemes) := by
  have start : Levels.All holds {} := ⟨by simp, by simp⟩
  refine (Ends.foldlM start fun l inside lexeme _ => inside.step kept lexeme).bind
    fun l inside => (inside.closeQuotes kept).bind fun mid inside => ?_
  split
  · trivial
  · exact fun form member => inside.1 form (List.mem_reverse.1 member)

/-- The form of a text, before its lists get their positions, has the property. -/
theorem Hereditary.read (kept : Hereditary holds) {source : String} {form : Form}
    (h : read source = .ok form) :
    ∃ single, holds single ∧ (single.locate (Position.openings source.toList)).1 = form := by
  have inside := kept.ofLexemes source.toList (Token.scan source.toList)
  rw [Form.read] at h
  cases assembled : Form.ofLexemes source.toList (Token.scan source.toList) with
  | error e => simp [assembled, bind, Except.bind] at h
  | ok forms =>
    rw [assembled] at h inside
    match forms, h with
    | [single], h => exact ⟨single, inside single (List.mem_singleton_self _), Except.ok.inj h⟩
    | [], h | _ :: _ :: _, h => cases h

end Form

end TypeGuard
