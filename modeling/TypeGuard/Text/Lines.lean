/-!
# Splitting at a character

A text is cut at every occurrence of a separator, so that the parts joined by the separator are the
text again. Cutting at line feeds gives its lines.
-/

namespace TypeGuard.Text

/-- The parts between the occurrences of `sep`, one more than there are occurrences. -/
def splitList (sep : Char) : List Char → List (List Char)
  | [] => [[]]
  | c :: cs =>
    if c = sep then [] :: splitList sep cs
    else
      match splitList sep cs with
      | [] => [[c]]
      | part :: parts => (c :: part) :: parts

/-- The parts joined by `sep`. -/
def joinList (sep : Char) : List (List Char) → List Char
  | [] => []
  | [part] => part
  | part :: parts => part ++ sep :: joinList sep parts

theorem splitList_ne_nil (sep : Char) (cs : List Char) : splitList sep cs ≠ [] := by
  cases cs with
  | nil => simp [splitList]
  | cons c cs => unfold splitList; split <;> (try split) <;> simp

theorem joinList_splitList (sep : Char) (cs : List Char) : joinList sep (splitList sep cs) = cs := by
  induction cs with
  | nil => rfl
  | cons c cs ih =>
    unfold splitList
    split
    · next h =>
      subst h
      cases hs : splitList c cs with
      | nil => exact absurd hs (splitList_ne_nil c cs)
      | cons part parts => rw [hs] at ih; simp [joinList, ih]
    · cases hs : splitList sep cs with
      | nil => exact absurd hs (splitList_ne_nil sep cs)
      | cons part parts =>
        rw [hs] at ih
        cases parts with
        | nil => simpa [joinList] using ih
        | cons next rest => simpa [joinList] using ih

/-- The parts of a text between the occurrences of `sep`. -/
def split (sep : Char) (s : String) : List String := (splitList sep s.toList).map .ofList

/-- The lines of a text. A text that ends in a line feed has an empty last line. -/
def lines (s : String) : List String := split '\n' s

end TypeGuard.Text
