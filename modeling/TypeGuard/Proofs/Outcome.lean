/-!
# Outcomes

What is known of the outcome of a computation that may fail, whichever way it ends, with one rule for
each way in which such computations are put together.
-/

namespace TypeGuard

/-- The error that a computation ends with. -/
def failure? {ε α : Type} : Except ε α → Option ε
  | .ok _ => none
  | .error e => some e

theorem failure?_eq_some_iff {ε α : Type} {r : Except ε α} {e : ε} :
    failure? r = some e ↔ r = .error e := by
  cases r <;> simp [failure?]

theorem failure?_eq_none_iff {ε α : Type} {r : Except ε α} :
    failure? r = none ↔ ∃ a, r = .ok a := by
  cases r <;> simp [failure?]

theorem failure?_bind {ε α β : Type} {x : Except ε α} {f : α → Except ε β} {later : Option ε}
    (h : ∀ a, failure? (f a) = later) : failure? (x >>= f) = (failure? x).or later := by
  cases x with
  | error e => rfl
  | ok a => exact h a

theorem failure?_bind_pure {ε α β : Type} {x : Except ε α} (f : α → β) :
    failure? (x >>= fun a => pure (f a) : Except ε β) = failure? x := by
  cases x <;> rfl

/-- The outcome is a value with the one property, or an error with the other. -/
def Ends {ε α : Type} (fails : ε → Prop) (holds : α → Prop) : Except ε α → Prop
  | .error e => fails e
  | .ok a => holds a

/-- The computation may succeed, and fails only with errors that have the property. -/
abbrev FailsOnly {ε α : Type} (fails : ε → Prop) : Except ε α → Prop := Ends fails fun _ => True

namespace Ends

variable {ε α β : Type} {fails : ε → Prop} {holds : α → Prop} {holds' : β → Prop}

theorem pure {a : α} (h : holds a) : Ends fails holds (Pure.pure a : Except ε α) := h

theorem bind {x : Except ε α} {f : α → Except ε β} (hx : Ends fails holds x)
    (hf : ∀ a, holds a → Ends fails holds' (f a)) : Ends fails holds' (x >>= f) := by
  cases x with
  | error e => exact hx
  | ok a => exact hf a hx

/-- What is said of the failures of a whole run holds of those of its first step. -/
theorem of_bind {x : Except ε α} {f : α → Except ε β} (h : Ends fails holds' (x >>= f)) :
    FailsOnly fails x := by
  cases x with
  | error e => exact h
  | ok a => trivial

theorem of_isOk {x : Except ε α} (h : x.isOk = true) : FailsOnly fails x := by
  cases x with
  | error e => cases h
  | ok a => trivial

theorem mono {more : α → Prop} {x : Except ε α} (hx : Ends fails holds x)
    (h : ∀ a, holds a → more a) : Ends fails more x := by
  cases x with
  | error e => exact hx
  | ok a => exact h a hx

theorem mapError {ε' : Type} {fails' : ε' → Prop} {x : Except ε α} {f : ε → ε'}
    (hx : Ends fails holds x) (h : ∀ e, fails e → fails' (f e)) :
    Ends fails' holds (x.mapError f) := by
  cases x with
  | error e => exact h e hx
  | ok a => exact hx

theorem mapM {xs : List β} {f : β → Except ε α} (h : ∀ x ∈ xs, Ends fails holds (f x)) :
    Ends fails (fun as => ∀ a ∈ as, holds a) (xs.mapM f) := by
  induction xs with
  | nil => exact pure (by simp)
  | cons x xs ih =>
    rw [List.mapM_cons]
    obtain ⟨first, others⟩ := List.forall_mem_cons.1 h
    exact first.bind fun a ha => (ih others).bind fun as has =>
      pure (List.forall_mem_cons.2 ⟨ha, has⟩)

theorem foldlM {σ : Type} {invariant : σ → Prop} {f : σ → β → Except ε σ} {xs : List β} {s : σ}
    (start : invariant s) (step : ∀ s, invariant s → ∀ x ∈ xs, Ends fails invariant (f s x)) :
    Ends fails invariant (xs.foldlM f s) := by
  induction xs generalizing s with
  | nil => exact start
  | cons x xs ih =>
    rw [List.foldlM_cons]
    refine (step s start x (List.mem_cons_self ..)).bind fun mid kept => ?_
    exact ih kept fun s kept x member => step s kept x (List.mem_cons_of_mem _ member)

end Ends

end TypeGuard
