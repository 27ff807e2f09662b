import TypeGuard.Text.Lines

/-!
# Parts of a split text

Splitting finds the parts again that were joined, if none of them has the separator in it.
-/

namespace TypeGuard.Text

theorem not_mem_of_mem_splitList {sep : Char} {cs part : List Char}
    (h : part ∈ splitList sep cs) : sep ∉ part := by
  induction cs generalizing part with
  | nil =>
    obtain rfl : part = [] := by simpa [splitList] using h
    simp
  | cons c cs ih =>
    unfold splitList at h
    split at h
    next hc =>
      obtain rfl | later := List.mem_cons.1 h
      · simp
      · exact ih later
    next hc =>
      cases hs : splitList sep cs with
      | nil => exact absurd hs (splitList_ne_nil sep cs)
      | cons first others =>
        rw [hs] at h ih
        obtain rfl | later := List.mem_cons.1 h
        · have rest := ih (List.mem_cons_self ..)
          simp only [List.mem_cons, not_or]
          exact ⟨Ne.symm hc, rest⟩
        · exact ih (List.mem_cons_of_mem _ later)

theorem splitList_of_not_mem {sep : Char} {part : List Char} (h : sep ∉ part) :
    splitList sep part = [part] := by
  induction part with
  | nil => rfl
  | cons c part ih =>
    obtain ⟨hc, hp⟩ : sep ≠ c ∧ sep ∉ part := by simpa using h
    simp [splitList, Ne.symm hc, ih hp]

theorem splitList_append_cons {sep : Char} {part : List Char} (h : sep ∉ part) (cs : List Char) :
    splitList sep (part ++ sep :: cs) = part :: splitList sep cs := by
  induction part with
  | nil => simp [splitList]
  | cons c part ih =>
    obtain ⟨hc, hp⟩ : sep ≠ c ∧ sep ∉ part := by simpa using h
    simp [splitList, Ne.symm hc, ih hp]

/-- Splitting undoes joining. -/
theorem splitList_joinList {sep : Char} {parts : List (List Char)} (some : parts ≠ [])
    (h : ∀ part ∈ parts, sep ∉ part) : splitList sep (joinList sep parts) = parts := by
  induction parts with
  | nil => exact absurd rfl some
  | cons part parts ih =>
    obtain ⟨here, later⟩ := List.forall_mem_cons.1 h
    cases parts with
    | nil => exact splitList_of_not_mem here
    | cons next others =>
      rw [joinList, splitList_append_cons here, ih (by simp) later]
      simp

end TypeGuard.Text
