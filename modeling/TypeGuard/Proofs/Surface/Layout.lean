import TypeGuard.Proofs.Surface.Trees

/-!
# Where the parts of a function stand

The parameters and the body of a function are found by their number among its items.
-/

namespace TypeGuard

section
variable {file : String} (position : Position)

theorem Param.listAt_length (front forms : List Form) :
    Param.listAt file position front.length (front ++ forms)
      = Param.listAt file position 0 forms := by
  induction front with
  | nil => rfl
  | cons form front ih => simpa [Param.listAt] using ih

theorem Stmt.bodyAt_length (front forms : List Form) :
    Stmt.bodyAt file position front.length (front ++ forms)
      = Stmt.bodyAt file position 0 forms := by
  induction front with
  | nil => rfl
  | cons form front ih => simpa [Stmt.bodyAt] using ih

theorem Expr.bodyAt_length (front forms : List Form) :
    Expr.bodyAt file position front.length (front ++ forms)
      = Expr.bodyAt file position 0 forms := by
  induction front with
  | nil => rfl
  | cons form front ih =>
    rw [List.length_cons, List.cons_append, Expr.bodyAt]
    exact ih

/-- There is no body behind the last item. -/
theorem Stmt.bodyAt_ne_ok {n : Nat} {forms : List Form} (h : forms.length ≤ n) (body : List Stmt) :
    Stmt.bodyAt file position n forms ≠ .ok body := by
  induction forms generalizing n with
  | nil => exact Position.refuse_ne_ok
  | cons form forms ih =>
    cases n with
    | zero => exact absurd h (Nat.not_succ_le_zero _)
    | succ n =>
      rw [Stmt.bodyAt]
      exact ih (Nat.le_of_succ_le_succ h)

theorem Expr.bodyAt_ne_ok {n : Nat} {forms : List Form} (h : forms.length ≤ n)
    (body : Body Stmt Expr) : Expr.bodyAt file position n forms ≠ .ok body := by
  induction forms generalizing n with
  | nil => exact Position.refuse_ne_ok
  | cons form forms ih =>
    cases n with
    | zero => exact absurd h (Nat.not_succ_le_zero _)
    | succ n =>
      rw [Expr.bodyAt]
      exact ih (Nat.le_of_succ_le_succ h)

/-- The parts of a function with a name stand one item further on. -/
theorem FunctionLayout.ofItems_succ (start : Nat) (first : Form) (items : List Form) :
    ofItems (start + 1) (first :: items)
      = { ofItems start items with
          params := (ofItems start items).params + 1, body := (ofItems start items).body + 1 } := by
  simp only [ofItems, List.getElem?_cons_succ]
  by_cases generics : (items[start]?.filter (·.head? == some "generics")).isSome = true
  · simp only [generics, if_true, mk.injEq, true_and]
    split <;> rfl
  · simp only [generics, Bool.false_eq_true, if_false, mk.injEq, true_and]
    split <;> rfl

end

end TypeGuard
