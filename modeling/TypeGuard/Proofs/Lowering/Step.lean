import TypeGuard.Compile
import TypeGuard.Proofs.Outcome

/-!
# Steps of lowering

What a successful step of lowering yields, and what a step does however it ends, one law for each way
in which steps are put together. A step, whether it succeeds or fails, leaves the open frames of type
parameters as they are, never frees a name, and never changes a library reference or a helper name
that is already settled: a frame that it opens is closed again (`Lowering.Acts.inFrame`).
-/

namespace TypeGuard

/-! ## Outcomes of steps -/

namespace Lowering

variable {ε α β : Type}

/-- The result of a step started in `ctx`, and the context it leaves. -/
def outcome (step : Lowering ε α) (ctx : Context) : Except ε α × Context := ExceptT.run step ctx

theorem outcome_bind (x : Lowering ε α) (f : α → Lowering ε β) (ctx : Context) :
    (x >>= f).outcome ctx = match x.outcome ctx with
      | (.ok a, mid) => (f a).outcome mid
      | (.error e, mid) => (.error e, mid) := by
  change (match x.outcome ctx with | (r, mid) => ExceptT.bindCont f r mid) = _
  rcases x.outcome ctx with ⟨_ | a, mid⟩ <;> rfl

theorem outcome_positioned (loc : Location) (step : Lowering TypeError α) (ctx : Context) :
    (step.positioned loc).outcome ctx =
      ((step.outcome ctx).1.mapError fun e => .ofFault e.fault (some loc), (step.outcome ctx).2) :=
  rfl

theorem outcome_tryCatch (x : Lowering ε α) (f : ε → Lowering ε α) (ctx : Context) :
    outcome (ExceptT.tryCatch x f) ctx = match x.outcome ctx with
      | (.ok a, mid) => (.ok a, mid)
      | (.error e, mid) => (f e).outcome mid := by
  have same : outcome (ExceptT.tryCatch x f) ctx
      = outcome (ExceptT.tryCatch (ExceptT.mk fun _ => x.outcome ctx) f) ctx := rfl
  rw [same]
  rcases x.outcome ctx with ⟨_ | a, mid⟩ <;> rfl

theorem outcome_inFrame (names : List String) (step : Lowering ε α) (ctx : Context) :
    (step.inFrame names).outcome ctx =
      ((step.outcome (ctx.enter names)).1, (step.outcome (ctx.enter names)).2.leave) := by
  have same : (step.inFrame names).outcome ctx
      = (inFrame names (ExceptT.mk fun _ => step.outcome (ctx.enter names))).outcome ctx := rfl
  rw [same]
  rcases step.outcome (ctx.enter names) with ⟨_ | a, mid⟩ <;> rfl

/-- Started in `ctx`, the step succeeds with `a` and leaves `ctx'`. -/
def Yields (step : Lowering ε α) (ctx : Context) (a : α) (ctx' : Context) : Prop :=
  step.outcome ctx = (.ok a, ctx')

@[simp] theorem yields_pure {a b : α} {ctx ctx' : Context} :
    (pure a : Lowering ε α).Yields ctx b ctx' ↔ a = b ∧ ctx = ctx' := by
  change ((.ok a, ctx) : Except ε α × Context) = _ ↔ _
  simp

@[simp] theorem yields_bind {x : Lowering ε α} {f : α → Lowering ε β} {b : β}
    {ctx ctx' : Context} :
    (x >>= f).Yields ctx b ctx' ↔ ∃ a mid, x.Yields ctx a mid ∧ (f a).Yields mid b ctx' := by
  unfold Yields
  rw [outcome_bind]
  rcases x.outcome ctx with ⟨_ | a, mid⟩ <;> simp [and_assoc]

@[simp] theorem yields_get {a ctx ctx' : Context} :
    (get : Lowering ε Context).Yields ctx a ctx' ↔ ctx = a ∧ ctx = ctx' := by
  change ((.ok ctx, ctx) : Except ε Context × Context) = _ ↔ _
  simp

@[simp] theorem yields_modify {f : Context → Context} {u : Unit} {ctx ctx' : Context} :
    (modify f : Lowering ε Unit).Yields ctx u ctx' ↔ f ctx = ctx' := by
  change ((.ok (), f ctx) : Except ε Unit × Context) = _ ↔ _
  simp

@[simp] theorem yields_modifyGet {f : Context → α × Context} {a : α} {ctx ctx' : Context} :
    (modifyGet f : Lowering ε α).Yields ctx a ctx' ↔ f ctx = (a, ctx') := by
  change ((.ok (f ctx).1, (f ctx).2) : Except ε α × Context) = _ ↔ _
  rcases f ctx with ⟨b, mid⟩
  simp

@[simp] theorem yields_note {event : Event} {u : Unit} {ctx ctx' : Context} :
    (note event : Lowering ε Unit).Yields ctx u ctx' ↔ ctx.note event = ctx' :=
  yields_modify

@[simp] theorem yields_ofExcept {r : Except ε α} {a : α} {ctx ctx' : Context} :
    (ofExcept r).Yields ctx a ctx' ↔ r = .ok a ∧ ctx = ctx' := by
  change ((r, ctx) : Except ε α × Context) = _ ↔ _
  simp

@[simp] theorem yields_throw {e : ε} {a : α} {ctx ctx' : Context} :
    ¬ (throw e : Lowering ε α).Yields ctx a ctx' := by
  change ¬ ((.error e, ctx) : Except ε α × Context) = _
  simp

@[simp] theorem yields_positioned {loc : Location} {step : Lowering TypeError α} {a : α}
    {ctx ctx' : Context} :
    (step.positioned loc).Yields ctx a ctx' ↔ step.Yields ctx a ctx' := by
  unfold Yields
  rw [outcome_positioned]
  rcases step.outcome ctx with ⟨e | b, mid⟩
  · change ((.error (.ofFault e.fault (some loc)), mid) : Except Diagnostic α × Context) = _ ↔ _
    simp
  · change ((.ok b, mid) : Except Diagnostic α × Context) = _ ↔ _
    simp

@[simp] theorem yields_inFrame {names : List String} {step : Lowering ε α} {a : α}
    {ctx ctx' : Context} :
    (step.inFrame names).Yields ctx a ctx' ↔
      ∃ mid, step.Yields (ctx.enter names) a mid ∧ mid.leave = ctx' := by
  unfold Yields
  rw [outcome_inFrame]
  rcases step.outcome (ctx.enter names) with ⟨r, mid⟩
  simp [and_assoc]

theorem yields_tryCatch {x : Lowering ε α} {f : ε → Lowering ε α} {a : α} {ctx ctx' : Context}
    (fails : ∀ e mid, ¬ (f e).Yields mid a ctx') :
    Yields (ExceptT.tryCatch x f) ctx a ctx' ↔ x.Yields ctx a ctx' := by
  unfold Yields
  rw [outcome_tryCatch]
  rcases x.outcome ctx with ⟨e | b, mid⟩
  · simpa [Yields] using fails e mid
  · rfl

end Lowering

/-! ## What steps leave alone -/

/-- `ctx'` can come after `ctx` in the lowering of one file: what is settled in `ctx` is so in
`ctx'`. -/
structure Context.Extends (ctx ctx' : Context) : Prop where
  file : ctx'.file = ctx.file
  scope : ctx'.scope = ctx.scope
  taken : ctx.taken ⊆ ctx'.taken
  binding : ∀ b, ctx.binding = some b → ctx'.binding = some b
  assertName : ∀ name, ctx.assertName = some name → ctx'.assertName = some name
  /-- The only name that a step takes is that of the helper, a new one. -/
  names : ctx'.assertName = ctx.assertName ∧ ctx'.taken = ctx.taken ∨
    ctx.assertName = none ∧ ctx'.assertName = some (ctx.freshName "assert").1 ∧
      ctx'.taken = (ctx.freshName "assert").2.taken

namespace Context.Extends

variable {ctx mid ctx' : Context}

theorem refl (ctx : Context) : ctx.Extends ctx :=
  ⟨rfl, rfl, List.Subset.refl _, fun _ h => h, fun _ h => h, .inl ⟨rfl, rfl⟩⟩

theorem trans (h : ctx.Extends mid) (k : mid.Extends ctx') : ctx.Extends ctx' where
  file := k.file.trans h.file
  scope := k.scope.trans h.scope
  taken := List.Subset.trans h.taken k.taken
  binding b hb := k.binding b (h.binding b hb)
  assertName name hn := k.assertName name (h.assertName name hn)
  names := by
    obtain ⟨hn, ht⟩ | ⟨hn, hs, ht⟩ := h.names
    · simpa only [Context.freshName, Context.freshLocal, Context.reserve, hn, ht] using k.names
    · obtain ⟨kn, kt⟩ | ⟨kn, -, -⟩ := k.names
      · exact .inr ⟨hn, kn.trans hs, kt.trans ht⟩
      · exact absurd (hs.symm.trans kn) (by simp)

theorem note (event : Event) (ctx : Context) : ctx.Extends (ctx.note event) :=
  ⟨rfl, rfl, List.Subset.refl _, fun _ h => h, fun _ h => h, .inl ⟨rfl, rfl⟩⟩

theorem library (ctx : Context) : ctx.Extends ctx.library.2 := by
  unfold Context.library
  split
  · exact refl ctx
  next hb =>
    exact ⟨rfl, rfl, List.Subset.refl _, by simp [hb], fun _ h => h, .inl ⟨rfl, rfl⟩⟩

theorem register (stmt : Stmt) (ctx : Context) : ctx.Extends (ctx.register stmt).2 := by
  unfold Context.register
  split
  next hb _ =>
    exact ⟨rfl, rfl, List.Subset.refl _, by simp [hb], fun _ h => h, .inl ⟨rfl, rfl⟩⟩
  · exact refl ctx

theorem helperName (ctx : Context) : ctx.Extends ctx.helperName.2 := by
  unfold Context.helperName
  split
  · exact refl ctx
  next hn =>
    exact ⟨rfl, rfl, List.subset_append_left _ _, fun _ h => h, by simp [hn],
      .inr ⟨hn, rfl, rfl⟩⟩

end Context.Extends

/-- A frame that was opened before is closed after. -/
theorem Context.Extends.leave {names : List String} {ctx mid : Context}
    (h : (ctx.enter names).Extends mid) : ctx.Extends mid.leave :=
  ⟨h.file, congrArg List.tail h.scope, h.taken, h.binding, h.assertName, h.names⟩

/-! ## What steps do -/

/-- The reference of a file that needs the library before it designates it. -/
def LibraryBinding.standard : LibraryBinding := ⟨.require defaultPackage, .default, .unknown⟩

namespace Lowering

variable {ε α β : Type} {opened : Scope}

/-- A run from `ctx` on leaves alone what is settled. It fails in the given way, or succeeds if that
is none; then the library is bound as it was before or, if it was not, as given. -/
structure Ran (ctx : Context) (run : Except ε α × Context) (failure : Option ε)
    (binding : Option LibraryBinding) : Prop where
  settled : ctx.Extends run.2
  failed : failure? run.1 = failure
  bound : failure = none → run.2.binding = ctx.binding.or binding

/-- What a step does wherever exactly the given frames are open. -/
def Acts (step : Lowering ε α) (opened : Scope) (failure : Option ε)
    (binding : Option LibraryBinding) : Prop :=
  ∀ ctx : Context, ctx.scope = opened → Ran ctx (step.outcome ctx) failure binding

section
variable {step : Lowering ε α} {ctx ctx' : Context} {a : α} {failure : Option ε}
  {binding : Option LibraryBinding}

theorem Yields.extends (h : step.Yields ctx a ctx') (acts : step.Acts ctx.scope failure binding) :
    ctx.Extends ctx' := by
  have settled := (acts ctx rfl).settled
  rwa [h] at settled

theorem Yields.binding_eq (h : step.Yields ctx a ctx')
    (acts : step.Acts ctx.scope failure binding) : ctx'.binding = ctx.binding.or binding := by
  have ran := acts ctx rfl
  rw [h] at ran
  exact ran.bound ran.failed.symm

end

namespace Acts

variable {failure : Option ε} {binding : Option LibraryBinding}

theorem pure (a : α) : (Pure.pure a : Lowering ε α).Acts opened none none :=
  fun ctx _ => ⟨.refl ctx, rfl, fun _ => Option.or_none.symm⟩

theorem ofExcept (r : Except ε α) : (Lowering.ofExcept r).Acts opened (failure? r) none :=
  fun ctx _ => ⟨.refl ctx, rfl, fun _ => Option.or_none.symm⟩

theorem note (event : Event) : (Lowering.note event : Lowering ε Unit).Acts opened none none :=
  fun ctx _ => ⟨.note event ctx, rfl, fun _ => Option.or_none.symm⟩

theorem helperName : (Lowering.helperName : Lowering ε String).Acts opened none none := by
  refine fun ctx _ => ⟨.helperName ctx, rfl, fun _ => ?_⟩
  change ctx.helperName.2.binding = _
  unfold Context.helperName
  split <;> exact Option.or_none.symm

theorem library : (Lowering.library : Lowering ε Expr).Acts opened none (some .standard) := by
  refine fun ctx _ => ⟨.library ctx, rfl, fun _ => ?_⟩
  change ctx.library.2.binding = _
  unfold Context.library
  split
  next b bound => rw [bound, Option.some_or]
  next unbound =>
    rw [unbound, Option.none_or]
    rfl

theorem register (stmt : Stmt) : (modify fun ctx => (ctx.register stmt).2 :
    Lowering ε Unit).Acts opened none stmt.library? := by
  refine fun ctx _ => ⟨.register stmt ctx, rfl, fun _ => ?_⟩
  change (ctx.register stmt).2.binding = _
  unfold Context.register
  split
  next unbound designated => rw [unbound, designated, Option.none_or]; rfl
  next other =>
    cases bound : ctx.binding with
    | some b => rfl
    | none =>
      cases designated : stmt.library? with
      | none => rfl
      | some found => exact absurd designated (other found bound)

/-- The first part to fail decides, and the first to bind the library. -/
theorem bind {x : Lowering ε α} {f : α → Lowering ε β} {failure' : Option ε}
    {binding' : Option LibraryBinding} (hx : x.Acts opened failure binding)
    (hf : ∀ a, (f a).Acts opened failure' binding') :
    (x >>= f).Acts opened (failure.or failure') (binding.or binding') := by
  intro ctx inside
  have first := hx ctx inside
  rw [outcome_bind]
  rcases run : x.outcome ctx with ⟨e | a, mid⟩ <;> rw [run] at first
  · obtain rfl : some e = failure := first.failed
    exact ⟨first.settled, rfl, nofun⟩
  · obtain rfl : none = failure := first.failed
    have second := hf a mid (first.settled.scope.trans inside)
    refine ⟨first.settled.trans second.settled, second.failed, fun succeeds => ?_⟩
    rw [second.bound succeeds, first.bound rfl, Option.or_assoc]

theorem bind_none {x : Lowering ε α} {f : α → Lowering ε β}
    (hx : x.Acts opened failure binding) (hf : ∀ a, (f a).Acts opened none none) :
    (x >>= f).Acts opened failure binding := by
  simpa using hx.bind hf

/-- A step whose last part only puts its result together. -/
theorem map {x : Lowering ε α} (hx : x.Acts opened failure binding) (f : α → β) :
    (x >>= fun a => Pure.pure (f a) : Lowering ε β).Acts opened failure binding :=
  hx.bind_none fun a => pure (f a)

/-- A step that looks at its context. -/
theorem get_bind {f : Context → Lowering ε β}
    (h : ∀ ctx, ctx.scope = opened → (f ctx).Acts opened failure binding) :
    (MonadState.get >>= f).Acts opened failure binding :=
  fun ctx inside => h ctx inside ctx inside

theorem positioned (loc : Location) {step : Lowering TypeError α} {failure : Option TypeError}
    (h : step.Acts opened failure binding) :
    (step.positioned loc).Acts opened (failure.map fun e => .ofFault e.fault (some loc))
      binding := by
  intro ctx inside
  have ran := h ctx inside
  rw [outcome_positioned]
  refine ⟨ran.settled, ?_, fun succeeds => ran.bound (Option.map_eq_none_iff.1 succeeds)⟩
  rw [← ran.failed]
  rcases step.outcome ctx with ⟨_ | _, _⟩ <;> rfl

/-- However a step ends, the frame that it was taken in is closed again. -/
theorem inFrame (names : List String) {step : Lowering ε α}
    (h : step.Acts (names :: opened) failure binding) :
    (step.inFrame names).Acts opened failure binding := by
  intro ctx inside
  have ran := h (ctx.enter names) (congrArg (names :: ·) inside)
  rw [outcome_inFrame]
  exact ⟨ran.settled.leave, ran.failed, ran.bound⟩

/-- What is read in a frame is read with all frames open. -/
theorem inFrame_ofExcept (names : List String) (read : Scope → Except ε α) :
    (Lowering.inFrame names do
      Lowering.ofExcept (read (← MonadState.get).scope)).Acts opened
        (failure? (read (names :: opened))) none := by
  refine .inFrame names (.get_bind fun ctx inside => ?_)
  rw [inside]
  exact .ofExcept _

end Acts

end Lowering

/-! ## Statements of the module and the helper -/

section
variable (options : Options)

/-- Offers a statement as the one that designates the library, at the top level only. -/
def Stmt.offer (topLevel : Bool) (stmt : Stmt) : Lowering Diagnostic Unit :=
  if topLevel then modify fun ctx => (ctx.register stmt).2 else pure ()

open Lowering (Acts)

theorem Stmt.offer_acts (opened : Scope) (topLevel : Bool) (stmt : Stmt) :
    (stmt.offer topLevel).Acts opened none (if topLevel then stmt.library? else none) := by
  cases topLevel with
  | true => exact .register stmt
  | false => exact .pure _

theorem Stmt.lower_imports (topLevel : Bool) (decl : ImportDecl) :
    Stmt.lower options topLevel (.imports decl) = (do
      Stmt.offer topLevel (.imports decl)
      return .imports decl) := by
  cases topLevel <;> rfl

theorem Stmt.lower_var_none (topLevel : Bool) (kind : VarKind) (target : Pattern)
    (loc : Location) :
    Stmt.lower options topLevel (.var kind target none loc) = (do
      Stmt.offer topLevel (.var kind target none loc)
      return .var kind target none loc) := by
  cases topLevel <;> rfl

theorem Stmt.lower_var_some (topLevel : Bool) (kind : VarKind) (target : Pattern) (init : Expr)
    (loc : Location) :
    Stmt.lower options topLevel (.var kind target (some init) loc) = (do
      Stmt.offer topLevel (.var kind target (some init) loc)
      return .var kind target (some (← Expr.lower options init)) loc) := by
  cases topLevel <;> rfl

/-- The helper needs the library. -/
theorem withHelper_settles {body stmts : List Stmt} {ctx ctx' : Context}
    (h : (withHelper options body).Yields ctx stmts ctx') :
    ctx.Extends ctx' ∧ ctx'.binding
      = ctx.binding.or (if options.injectHelper then some .standard else none) := by
  unfold withHelper at h
  cases injected : options.injectHelper with
  | false =>
    rw [injected] at h
    obtain ⟨-, rfl⟩ := Lowering.yields_pure.1 h
    exact ⟨.refl ctx, Option.or_none.symm⟩
  | true =>
    rw [injected] at h
    obtain ⟨name, mid, named, h⟩ := Lowering.yields_bind.1 h
    obtain ⟨library, last, settled, front⟩ := Lowering.yields_bind.1 h
    obtain rfl : last = ctx' := by
      split at front
      · exact (Lowering.yields_pure.1 front).2
      · exact absurd front Lowering.yields_throw
    refine ⟨(named.extends .helperName).trans (settled.extends .library), ?_⟩
    rw [settled.binding_eq .library, named.binding_eq .helperName, Option.or_none]
    rfl

/-- The whole lowering of a program, as one step. -/
def Program.lowerStep (program : Program) : Lowering Diagnostic (List Stmt) := do
  let body ← ExceptT.tryCatch (Stmt.lowerTop options program.body) fun d => do
    Lowering.note (.aborted program.file d.message)
    throw d
  withHelper options body

theorem Program.lower_fst (program : Program) :
    (program.lower options).1 =
      ((program.lowerStep options).outcome (Context.prepare program {})).1.map
        fun body => { program with body } := rfl

/-- A program is lowered exactly if its statements are and, after them, the helper. -/
theorem Program.lower_eq_ok_iff {program lowered : Program} :
    (program.lower options).1 = .ok lowered ↔ ∃ body mid ctx',
      (Stmt.lowerTop options program.body).Yields (Context.prepare program {}) body mid ∧
      (withHelper options body).Yields mid lowered.body ctx' ∧ lowered.file = program.file := by
  have run : (program.lower options).1 = .ok lowered ↔ ∃ ctx',
      (program.lowerStep options).Yields (Context.prepare program {}) lowered.body ctx' ∧
      lowered.file = program.file := by
    rw [Program.lower_fst]
    unfold Lowering.Yields
    rcases (program.lowerStep options).outcome (Context.prepare program {}) with ⟨_ | body, ctx'⟩
    · simp [Except.map]
    · obtain ⟨stmts, file⟩ := lowered
      simp only [Except.map, Except.ok.injEq, Program.mk.injEq, Prod.mk.injEq]
      grind
  rw [run]
  unfold Program.lowerStep
  simp only [Lowering.yields_bind]
  constructor
  · rintro ⟨ctx', ⟨body, mid, hbody, hhelper⟩, file⟩
    exact ⟨body, mid, ctx', (Lowering.yields_tryCatch (by simp)).1 hbody, hhelper, file⟩
  · rintro ⟨body, mid, ctx', hbody, hhelper, file⟩
    exact ⟨ctx', ⟨body, mid, (Lowering.yields_tryCatch (by simp)).2 hbody, hhelper⟩, file⟩

end

end TypeGuard
