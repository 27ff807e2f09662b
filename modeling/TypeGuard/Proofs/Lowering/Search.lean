import Mathlib.Data.Nat.Nth
import TypeGuard.Proofs.Lowering.Runs

/-!
# The search for new names

The search for a new name tries one candidate after the other and has no bound of its own. It ends
all the same, with the first candidate that is not blocked, and this is the name that a context
gives out. Since a name of the whole file is taken from then on, names that are asked for one after
the other come in the order of the candidates.

## Main definitions

* `NamesFor`: the sequence of the candidates of a base.
* `Search`: the search without a bound, as a relation between where it stands and how it ends.
* `Enumerates`: the positions of all free names of a sequence, in ascending order.
-/

namespace TypeGuard

/-- The names that are tried for a base: one low line and what stands behind the low lines that the
base starts with, alone at first and then with the numbers from two on. -/
structure NamesFor (base : String) (names : Nat → String) : Prop where
  first : ∃ lows rest, base.toList = List.replicate lows '_' ++ rest ∧ rest.head? ≠ some '_' ∧
    (names 0).toList = '_' :: rest
  numbered (n : Nat) : names (n + 1) = names 0 ++ toString (n + 2)

theorem namesFor_candidate (base : String) : NamesFor base (candidate (freshStem base)) where
  first := by
    let low : Char → Bool := (· == '_')
    let lows := base.toList.takeWhile low
    have same : lows = List.replicate lows.length '_' := by
      refine List.eq_replicate_of_mem fun c member => ?_
      simpa [low] using List.all_eq_true.1 List.all_takeWhile c member
    refine ⟨lows.length, base.toList.dropWhile low, ?_, ?_, String.toList_ofList⟩
    · rw [← same, List.takeWhile_append_dropWhile]
    · intro again
      have := List.head?_dropWhile_not low base.toList
      simp [again, low] at this
  numbered _ := rfl

/-! ## One search -/

/-- The search for a name with the given stem that is not blocked. It stands at a name, with the
number of the names up to it, and ends with a result. -/
inductive Search (blocked : List String) (stem : String) : String → Nat → String → Prop where
  | free {name : String} {number : Nat} :
    name ∉ blocked → Search blocked stem name number name
  | taken {name result : String} {number : Nat} :
    name ∈ blocked → Search blocked stem (stem ++ toString (number + 1)) (number + 1) result →
      Search blocked stem name number result

section
variable {blocked : List String} {stem : String}

theorem Search.unique {name result result' : String} {number : Nat}
    (h : Search blocked stem name number result) (h' : Search blocked stem name number result') :
    result = result' := by
  induction h with
  | free free =>
    cases h' with
    | free _ => rfl
    | taken taken _ => exact absurd taken free
  | taken taken _ ih =>
    cases h' with
    | free free => exact absurd taken free
    | taken _ later => exact ih later

theorem candidate_mem_of_isLeast {i j : Nat} (least : IsLeast {i | candidate stem i ∉ blocked} i)
    (before : j < i) : candidate stem j ∈ blocked := by
  by_contra free
  have := least.2 free
  omega

/-- The search gets from each candidate up to the first free one on to that. -/
theorem search_of_isLeast {i n : Nat} (least : IsLeast {i | candidate stem i ∉ blocked} i)
    (upTo : n ≤ i) : Search blocked stem (candidate stem n) (n + 1) (candidate stem i) := by
  induction upTo using Nat.decreasingInduction with
  | self => exact .free least.1
  | of_succ n before ih => exact .taken (candidate_mem_of_isLeast least before) ih

theorem search_iff_of_isLeast {i : Nat} (least : IsLeast {i | candidate stem i ∉ blocked} i)
    (result : String) : Search blocked stem stem 1 result ↔ result = candidate stem i := by
  have ends : Search blocked stem stem 1 (candidate stem i) := search_of_isLeast least i.zero_le
  constructor
  · intro h
    exact h.unique ends
  · rintro rfl
    exact ends

end

/-! ## One search after the other -/

/-- The positions of the names that are not blocked, all of them and in ascending order. -/
structure Enumerates (names : Nat → String) (blocked : List String) (position : Nat → Nat) :
    Prop where
  ascending : StrictMono position
  free (i : Nat) : (∃ k, position k = i) ↔ names i ∉ blocked

section
variable {names : Nat → String} {blocked : List String} {position : Nat → Nat}

theorem exists_enumerates (distinct : Function.Injective names) (blocked : List String) :
    ∃ position, Enumerates names blocked position := by
  have few : {i | names i ∈ blocked}.Finite := blocked.finite_toSet.preimage distinct.injOn
  have many : {i | names i ∉ blocked}.Infinite := few.infinite_compl
  refine ⟨Nat.nth fun i => names i ∉ blocked, Nat.nth_strictMono many, fun i => ?_⟩
  exact Set.ext_iff.1 (Nat.range_nth_of_infinite many) i

theorem Enumerates.isLeast (h : Enumerates names blocked position) :
    IsLeast {i | names i ∉ blocked} (position 0) := by
  refine ⟨(h.free _).1 ⟨0, rfl⟩, fun i free => ?_⟩
  obtain ⟨k, rfl⟩ := (h.free i).2 free
  exact h.ascending.monotone k.zero_le

/-- Once the first free name is blocked as well, the others are left. -/
theorem Enumerates.rest (h : Enumerates names blocked position)
    (distinct : Function.Injective names) :
    Enumerates names (blocked ++ [names (position 0)]) fun k => position (k + 1) where
  ascending := fun j k less => h.ascending (Nat.succ_lt_succ less)
  free i := by
    have other : names i ∉ blocked ++ [names (position 0)] ↔
        names i ∉ blocked ∧ i ≠ position 0 := by
      simp [distinct.eq_iff]
    rw [other, ← h.free i]
    constructor
    · rintro ⟨k, rfl⟩
      exact ⟨⟨k + 1, rfl⟩, fun same => absurd (h.ascending.injective same) k.succ_ne_zero⟩
    · rintro ⟨⟨k, rfl⟩, later⟩
      cases k with
      | zero => exact absurd rfl later
      | succ k => exact ⟨k, rfl⟩

end

theorem Context.freshName_of_enumerates {base : String} {ctx : Context} {position : Nat → Nat}
    (h : Enumerates (candidate (freshStem base)) ctx.taken position) :
    (ctx.freshName base).1 = candidate (freshStem base) (position 0) := by
  obtain ⟨i, least, found⟩ := exists_isLeast_firstFree (ctx.taken ++ []) (freshStem base)
  rw [List.append_nil] at least
  rw [← least.unique h.isLeast]
  exact found

/-- Names for one base that are asked for one after the other are the free candidates in order. -/
theorem Operation.allocated_freshName (options : Options) {base : String} {ctx : Context}
    {position : Nat → Nat} (h : Enumerates (candidate (freshStem base)) ctx.taken position)
    (n : Nat) :
    allocated options ctx (List.replicate n (.freshName base))
      = (List.range n).map fun k => candidate (freshStem base) (position k) := by
  induction n generalizing ctx position with
  | zero => rfl
  | succ n ih =>
    -- The first call uses up the first position, and the others enumerate what is left to the rest.
    have first := ctx.freshName_of_enumerates h
    have left : Enumerates (candidate (freshStem base)) (ctx.freshName base).2.taken
        fun k => position (k + 1) := by
      have taken : (ctx.freshName base).2.taken = ctx.taken ++ [(ctx.freshName base).1] := rfl
      rw [taken, first]
      exact h.rest (candidate_injective _)
    calc allocated options ctx (List.replicate (n + 1) (.freshName base))
        = (ctx.freshName base).1
            :: allocated options (ctx.freshName base).2 (List.replicate n (.freshName base)) := rfl
      _ = candidate (freshStem base) (position 0)
            :: (List.range n).map fun k => candidate (freshStem base) (position (k + 1)) := by
        rw [first, ih left]
      _ = (List.range (n + 1)).map fun k => candidate (freshStem base) (position k) := by
        rw [List.range_succ_eq_map, List.map_cons, List.map_map]
        rfl

/-- The search for a name inside a function ends, with the first candidate that is neither taken nor
to be avoided and after at most as many others as there are such names. Any number of names of the
whole file, asked for one after the other with one base, are the first free candidates in order. -/
theorem Context.newNames_first_free (options : Options) (base : String) (ctx : Context) :
    let names := candidate (freshStem base)
    NamesFor base names ∧
      (∀ avoid, ∃ i,
        IsLeast {i | names i ∉ ctx.taken ∧ names i ∉ avoid} i ∧
        i ≤ (ctx.taken ++ avoid).toFinset.card ∧
        ctx.freshLocal base avoid = names i ∧
        ∀ result, Search (ctx.taken ++ avoid) (names 0) (names 0) 1 result ↔
          result = ctx.freshLocal base avoid) ∧
      ∃ position, Enumerates names ctx.taken position ∧
        ∀ n, let given := Operation.allocated options ctx (List.replicate n (.freshName base))
          given = (List.range n).map (fun k => names (position k)) ∧ given.Nodup := by
  intro names
  refine ⟨namesFor_candidate base, fun avoid => ?_, ?_⟩
  · obtain ⟨i, least, found⟩ := exists_isLeast_firstFree (ctx.taken ++ avoid) (freshStem base)
    have found : ctx.freshLocal base avoid = names i := found
    refine ⟨i, ?_, ?_, found, fun result => ?_⟩
    · simpa only [List.mem_append, not_or] using least
    · exact le_card_of_candidates_mem fun j before => candidate_mem_of_isLeast least before
    · rw [found]
      exact search_iff_of_isLeast least result
  · obtain ⟨position, free⟩ := exists_enumerates (candidate_injective (freshStem base)) ctx.taken
    refine ⟨position, free, fun n => ⟨Operation.allocated_freshName options free n, ?_⟩⟩
    exact (Operation.nodup_allocated options ctx _).1

example : Operation.allocated {} { taken := ["_tmp2"] } (List.replicate 3 (.freshName "__tmp"))
    = ["_tmp", "_tmp3", "_tmp4"] := by
  decide

end TypeGuard
