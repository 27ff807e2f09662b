import Mathlib.Data.Finset.Card
import Mathlib.Order.Bounds.Basic
import TypeGuard.Lowering.Basic

/-!
# New names

A new name is the first of its candidates that is not blocked. The candidates of a stem are distinct,
and the search tries one more of them than there are blocked names, so it always ends with a name
that is not blocked. The names of the helper and of checked results have different stems and are
never the same.
-/

namespace TypeGuard

theorem candidate_injective (stem : String) : Function.Injective (candidate stem) := by
  intro m n same
  unfold candidate at same
  split at same
  next first =>
    split at same
    next first' => rw [first, first']
    next =>
      have empty : toString (n + 1) = "" := String.append_eq_left_iff.1 same.symm
      exact absurd empty Nat.repr_ne_empty
  next =>
    split at same
    next =>
      have empty : toString (m + 1) = "" := String.append_eq_left_iff.1 same
      exact absurd empty Nat.repr_ne_empty
    next =>
      have written : (m + 1).repr = (n + 1).repr := (String.append_right_inj stem).1 same
      have digits : Nat.toDigits 10 (m + 1) = Nat.toDigits 10 (n + 1) := by
        simpa only [Nat.toList_repr] using congrArg String.toList written
      have number : m + 1 = n + 1 := by
        simpa using congrArg (fun cs => Nat.ofDigitChars 10 cs 0) digits
      omega

theorem le_card_of_candidates_mem {blocked : List String} {stem : String} {n : Nat}
    (h : ∀ i < n, candidate stem i ∈ blocked) : n ≤ blocked.toFinset.card := by
  have within : (Finset.range n).image (candidate stem) ⊆ blocked.toFinset := by
    intro name member
    obtain ⟨i, small, rfl⟩ := Finset.mem_image.1 member
    exact List.mem_toFinset.2 (h i (Finset.mem_range.1 small))
  calc n = ((Finset.range n).image (candidate stem)).card := by
        rw [Finset.card_image_of_injective _ (candidate_injective stem), Finset.card_range]
    _ ≤ blocked.toFinset.card := Finset.card_le_card within

/-- The search ends with a candidate behind blocked ones, and with a blocked one only where it may
try no further candidate. -/
theorem firstFreeFrom_spec (blocked : List String) (stem : String) (fuel n : Nat) :
    ∃ i, firstFreeFrom blocked stem fuel n = candidate stem i ∧
      (∀ j, n ≤ j → j < i → candidate stem j ∈ blocked) ∧
      (candidate stem i ∈ blocked → i = n + fuel) := by
  induction fuel generalizing n with
  | zero => exact ⟨n, rfl, fun j start before => by omega, fun _ => rfl⟩
  | succ fuel ih =>
    unfold firstFreeFrom
    split
    next taken =>
      obtain ⟨i, found, passed, last⟩ := ih (n + 1)
      refine ⟨i, found, fun j start before => ?_, fun ends => ?_⟩
      · rcases Nat.eq_or_lt_of_le start with rfl | later
        · simpa using taken
        · exact passed j later before
      · have := last ends
        omega
    next free =>
      refine ⟨n, rfl, fun j start before => by omega, fun taken => ?_⟩
      simp [taken] at free

/-- The first free candidate is at the least position of a candidate that is not blocked. -/
theorem exists_isLeast_firstFree (blocked : List String) (stem : String) :
    ∃ i, IsLeast {i | candidate stem i ∉ blocked} i ∧ firstFree blocked stem = candidate stem i := by
  obtain ⟨i, found, passed, last⟩ := firstFreeFrom_spec blocked stem blocked.length 0
  refine ⟨i, ⟨?_, fun j free => ?_⟩, found⟩
  · -- Otherwise one more candidate is blocked than there are blocked names.
    intro taken
    obtain rfl : i = blocked.length := by simpa using last taken
    have all : ∀ j < blocked.length + 1, candidate stem j ∈ blocked := by
      intro j small
      rcases Nat.eq_or_lt_of_le (Nat.le_of_lt_succ small) with rfl | before
      · exact taken
      · exact passed j j.zero_le before
    have many := le_card_of_candidates_mem all
    have few := List.toFinset_card_le blocked
    omega
  · exact Nat.le_of_not_lt fun before => free (passed j j.zero_le before)

theorem firstFree_not_mem (blocked : List String) (stem : String) :
    firstFree blocked stem ∉ blocked := by
  obtain ⟨i, least, found⟩ := exists_isLeast_firstFree blocked stem
  rw [found]
  exact least.1

theorem toList_candidate (stem : String) (n : Nat) :
    ∃ digits, (candidate stem n).toList = stem.toList ++ digits := by
  unfold candidate
  split
  · exact ⟨[], by simp⟩
  · exact ⟨_, String.toList_append⟩

namespace Context

theorem freshLocal_not_mem (base : String) (avoid : List String) (ctx : Context) :
    ctx.freshLocal base avoid ∉ ctx.taken ++ avoid :=
  firstFree_not_mem _ _

theorem freshName_not_mem (base : String) (ctx : Context) : (ctx.freshName base).1 ∉ ctx.taken :=
  fun member => ctx.freshLocal_not_mem base [] (List.mem_append_left [] member)

/-- A name for a result is never a name for the helper. -/
theorem freshLocal_ret_ne_assert (avoid avoid' : List String) (ctx ctx' : Context) :
    ctx.freshLocal "ret" avoid ≠ ctx'.freshLocal "assert" avoid' := by
  intro same
  obtain ⟨m, result⟩ : ∃ m, ctx.freshLocal "ret" avoid = candidate "_ret" m :=
    (exists_isLeast_firstFree _ _).imp fun _ first => first.2
  obtain ⟨n, helper⟩ : ∃ n, ctx'.freshLocal "assert" avoid' = candidate "_assert" n :=
    (exists_isLeast_firstFree _ _).imp fun _ first => first.2
  obtain ⟨digits, spelled⟩ := toList_candidate "_ret" m
  obtain ⟨digits', spelled'⟩ := toList_candidate "_assert" n
  -- The second letters differ.
  have letters : '_' :: 'r' :: 'e' :: 't' :: digits
      = '_' :: 'a' :: 's' :: 's' :: 'e' :: 'r' :: 't' :: digits' := by
    rw [result, helper] at same
    exact spelled.symm.trans ((congrArg String.toList same).trans spelled')
  simp at letters

end Context

end TypeGuard
