import TypeGuard.Proofs.Lowering.Occurrences

/-!
# The shape of lowered programs

What the lowering of a program looks like, said without a context: every check of a file calls one
helper and builds its types with one library reference, and each function has the checks of its
annotated parameters in order, then its body, which stands in an inner function if the return type
is annotated. `Program.lowers_of_lower` says that every lowering that succeeds has this shape.
-/

namespace TypeGuard

/-- What the lowering of a file is settled on: the name of the helper, the reference to the library
and the names that new names avoid. -/
structure Setting where
  options : Options
  helper : String
  library : Expr
  reserved : List String := []
  /-- What is asked of each emitted type, under the frames of type parameters around its
  declaration. -/
  emits : Scope → Site → Descriptor → Prop := fun _ _ _ => True

namespace Setting

variable (g : Setting)

/-- A call of the assertion helper. -/
def check (value : Expr) (descriptor : Descriptor) (label : String) : Stmt :=
  .expr (.call (.ident g.helper) [value, descriptor.lower g.library, .string label])

/-- The checks of the parameters from `index` on: one for each annotated parameter, in the order of
the parameters. No frame around the function is open when its annotations are encoded. -/
inductive ArgumentChecks (frames : Scope) (own : List String) (arrow : Bool) :
    Nat → List (Param Pattern Expr) → List Stmt → Prop where
  | nil (index : Nat) : ArgumentChecks frames own arrow index [] []
  | unchecked {index : Nat} {param : Param Pattern Expr} {params : List (Param Pattern Expr)}
      {checks : List Stmt} :
      param.type = none → ArgumentChecks frames own arrow (index + 1) params checks →
      ArgumentChecks frames own arrow index (param :: params) checks
  | checked {index : Nat} {param : Param Pattern Expr} {params : List (Param Pattern Expr)}
      {checks : List Stmt} {type : Ty} {descriptor : Descriptor} :
      param.type = some type →
      (Site.param own type param.optional).encode [] = .ok descriptor →
      g.emits frames (.param own type param.optional) descriptor →
      ArgumentChecks frames own arrow (index + 1) params checks →
      ArgumentChecks frames own arrow index (param :: params)
        (g.check (Instrument.subject param index arrow).1 descriptor
          (Instrument.subject param index arrow).2 :: checks)

/-- A body moved into an inner function, whose result is checked and returned. -/
def checkedReturn (signature : Signature Pattern Expr) (result : String) (descriptor : Descriptor)
    (core : List Stmt) : List Stmt :=
  let inner := Expr.function { params := Instrument.innerParams signature.params } core none .unknown
  [.var .const (.ident result)
      (some (.call (.member inner "call") (.this :: Instrument.forwarded signature.params)))
      .unknown,
    g.check (.ident result) descriptor returnLabel,
    .ret (some (.ident result))]

/-- What follows the checks of the arguments: the body itself, or the body behind a check of its
result, which goes under a name that is new to the function. -/
def Returns (frames : Scope) (signature : Signature Pattern Expr) (core tail : List Stmt) : Prop :=
  match signature.returnType with
  | none => tail = core
  | some type => ∃ (ctx : Context) (descriptor : Descriptor),
      g.reserved ⊆ ctx.taken ∧
      (Site.result signature.typeParams type).encode [] = .ok descriptor ∧
      g.emits frames (.result signature.typeParams type) descriptor ∧
      tail = g.checkedReturn signature (ctx.freshLocal "ret" signature.boundNames) descriptor core

/-- The body of a function is `core` with its checks. -/
def Guards (frames : Scope) (signature : Signature Pattern Expr) (arrow : Bool)
    (core body : List Stmt) : Prop :=
  ∃ checks tail, g.ArgumentChecks frames signature.typeParams arrow 0 signature.params checks ∧
    g.Returns frames signature core tail ∧ body = checks ++ tail

/-- The body of a function is `core` with its checks, or `core` itself if functions stay as they
are. -/
def Bodies (frames : Scope) (signature : Signature Pattern Expr) (core body : List Stmt) : Prop :=
  if g.options.skipAsserts then body = core else g.Guards frames signature false core body

/-- The body of an arrow function is `core` with its checks, or `core` itself if functions stay as
they are. A checked body is a block. -/
def ArrowBodies (frames : Scope) (signature : Signature Pattern Expr)
    (core body : Body Stmt Expr) : Prop :=
  if g.options.skipAsserts then body = core
  else ∃ stmts, g.Guards frames signature true (Instrument.statements core) stmts ∧
    body = .block stmts

/-- `stmt` is the constant that holds the validator of a declaration. -/
def Defines (frames : Scope) (site : Site) (name : String) (loc : Location) (stmt : Stmt) : Prop :=
  ∃ d, site.encode [] = .ok d ∧ g.emits frames site d ∧
    stmt = .var .const (.ident name) (some (d.lower g.library)) loc

end Setting

section
variable (g : Setting)

mutual

/-- `e'` is the lowered `e`, below the given frames of type parameters. -/
def Expr.Lowers : Scope → Expr → Expr → Prop
  | frames, .function signature body name loc, e' => ∃ core body',
      Stmt.AllLower (signature.typeParams :: frames) body core ∧
      g.Bodies frames signature core body' ∧ e' = .function signature body' name loc
  | frames, .arrow signature body loc, e' => ∃ core body',
      Expr.BodyLowers (signature.typeParams :: frames) body core ∧
      g.ArrowBodies frames signature core body' ∧ e' = .arrow signature body' loc
  | frames, .call callee args, e' => ∃ callee' args',
      Expr.Lowers frames callee callee' ∧ Expr.AllLower frames args args' ∧ e' = .call callee' args'
  | _, e, e' => e' = e
termination_by structural _ e => e

def Expr.BodyLowers : Scope → Body Stmt Expr → Body Stmt Expr → Prop
  | frames, .block stmts, body => ∃ stmts', Stmt.AllLower frames stmts stmts' ∧ body = .block stmts'
  | frames, .expression value, body =>
      ∃ value', Expr.Lowers frames value value' ∧ body = .expression value'
termination_by structural _ body => body

def Expr.AllLower : Scope → List Expr → List Expr → Prop
  | _, [], es' => es' = []
  | frames, e :: es, es' => ∃ e' rest,
      Expr.Lowers frames e e' ∧ Expr.AllLower frames es rest ∧ es' = e' :: rest
termination_by structural _ es => es

/-- `s'` is the lowered `s`, below the given frames of type parameters. -/
def Stmt.Lowers : Scope → Stmt → Stmt → Prop
  | frames, .typeAlias decl, s' => g.Defines frames (.typeAlias decl) decl.name decl.loc s'
  | frames, .interface decl, s' => g.Defines frames (.interface decl) decl.name decl.loc s'
  | frames, .function name signature body loc, s' => ∃ core body',
      Stmt.AllLower (signature.typeParams :: frames) body core ∧
      g.Bodies frames signature core body' ∧ s' = .function name signature body' loc
  | frames, .var kind target (some init) loc, s' => ∃ init',
      Expr.Lowers frames init init' ∧ s' = .var kind target (some init') loc
  | frames, .exports declaration loc, s' => ∃ declaration',
      Stmt.Lowers frames declaration declaration' ∧ s' = .exports declaration' loc
  | frames, .ret (some argument), s' => ∃ argument',
      Expr.Lowers frames argument argument' ∧ s' = .ret (some argument')
  | frames, .expr expression, s' => ∃ expression',
      Expr.Lowers frames expression expression' ∧ s' = .expr expression'
  | frames, .block body, s' => ∃ body', Stmt.AllLower frames body body' ∧ s' = .block body'
  | _, s, s' => s' = s
termination_by structural _ s => s

def Stmt.AllLower : Scope → List Stmt → List Stmt → Prop
  | _, [], ss' => ss' = []
  | frames, s :: ss, ss' => ∃ s' rest,
      Stmt.Lowers frames s s' ∧ Stmt.AllLower frames ss rest ∧ ss' = s' :: rest
termination_by structural _ ss => ss

end

/-- `lowered` is the lowered program, behind the assertion helper if that is wanted. -/
def Program.Lowers (program lowered : Program) : Prop :=
  lowered.file = program.file ∧ ∃ body, Stmt.AllLower g [] program.body body ∧
    if g.options.injectHelper then
      ∃ text, Script.assertHelper g.helper g.library = .ok text ∧ lowered.body = .raw text :: body
    else lowered.body = body

end

/-! ## Contexts that agree with a setting -/

theorem Context.library_settles {ctx ctx' : Context} {e : Expr} (h : ctx.library = (e, ctx')) :
    ∃ b, ctx'.binding = some b ∧ b.expression = e := by
  unfold Context.library at h
  split at h
  next b hb =>
    cases h
    exact ⟨b, hb, rfl⟩
  · cases h
    exact ⟨_, rfl, rfl⟩

theorem Context.helperName_settles {ctx ctx' : Context} {name : String}
    (h : ctx.helperName = (name, ctx')) : ctx'.assertName = some name := by
  unfold Context.helperName at h
  split at h
  next hn =>
    cases h
    exact hn
  · cases h
    rfl

/-- What `ctx` has settled so far agrees with the setting, and the given frames are open. -/
structure Context.Fits (g : Setting) (ctx : Context) (opened : Scope := []) : Prop where
  scope : ctx.scope = opened
  reserved : g.reserved ⊆ ctx.taken
  helper : ∀ name, ctx.assertName = some name → name = g.helper
  library : ∀ b, ctx.binding = some b → b.expression = g.library

namespace Context.Fits

variable {g : Setting} {ctx mid ctx' : Context} {opened : Scope}

/-- The names and frames of an earlier context stay, so only the choices have to agree. -/
theorem later (h : ctx.Fits g opened) (settled : ctx.Extends ctx')
    (helper : ∀ name, ctx'.assertName = some name → name = g.helper)
    (library : ∀ b, ctx'.binding = some b → b.expression = g.library) : ctx'.Fits g opened :=
  ⟨settled.scope.trans h.scope, List.Subset.trans h.reserved settled.taken, helper, library⟩

/-- The choices of a later context hold before it. -/
theorem between (h : ctx.Fits g opened) (h' : ctx'.Fits g opened) (before : ctx.Extends mid)
    (after : mid.Extends ctx') : mid.Fits g opened :=
  h.later before (fun name hn => h'.helper name (after.assertName name hn))
    fun b hb => h'.library b (after.binding b hb)

theorem enter (h : ctx.Fits g opened) (names : List String) :
    (ctx.enter names).Fits g (names :: opened) :=
  ⟨congrArg (names :: ·) h.scope, h.reserved, h.helper, h.library⟩

end Context.Fits

/-! ## Every lowering has the shape -/

section
variable {g : Setting} {ctx ctx' : Context} {opened : Scope}

open Lowering

namespace Instrument

theorem assertion_yields {value : Expr} {descriptor : Descriptor} {label : String} {s : Stmt}
    (h : (assertion value descriptor label).Yields ctx s ctx') (fits : ctx'.Fits g opened) :
    s = g.check value descriptor label := by
  simp only [assertion, Lowering.library, Lowering.helperName, yields_bind, yields_modifyGet,
    yields_pure] at h
  obtain ⟨library, mid, hlibrary, helper, _, hhelper, rfl, rfl⟩ := h
  obtain ⟨b, hb, rfl⟩ := Context.library_settles hlibrary
  have kept := Context.Extends.helperName mid
  rw [hhelper] at kept
  have same := fits.helper helper (Context.helperName_settles hhelper)
  have bound := fits.library b (kept.binding b hb)
  rw [Setting.check, same, bound]

theorem checks_yields (everything : ∀ frames site d, g.emits frames site d) (frames : Scope)
    {own : List String} {arrow : Bool} {index : Nat} {params : List (Param Pattern Expr)}
    {found : List Stmt} (h : (checks [own] arrow index params).Yields ctx found ctx')
    (fits : ctx.Fits g opened) (fits' : ctx'.Fits g opened) :
    g.ArgumentChecks frames own arrow index params found := by
  induction params generalizing index ctx found with
  | nil =>
    simp only [checks, yields_pure] at h
    obtain ⟨rfl, rfl⟩ := h
    exact .nil index
  | cons param params ih =>
    unfold checks at h
    split at h
    next untyped => exact .unchecked untyped (ih h fits)
    next type typed =>
      simp only [yields_bind, yields_ofExcept, yields_pure] at h
      obtain ⟨descriptor, _, ⟨mapped, rfl⟩, check, mid, hcheck, rest, _, hrest, rfl, rfl⟩ := h
      have between := fits.between fits' (hcheck.extends (assertion_acts _ _ _ _))
        (hrest.extends (checks_acts _ _ _ _ _ _))
      rw [assertion_yields hcheck between]
      exact .checked typed mapped (everything _ _ _) (ih hrest between)

theorem returning_yields (everything : ∀ frames site d, g.emits frames site d) (frames : Scope)
    {signature : Signature Pattern Expr} {core tail : List Stmt}
    (h : (returning [signature.typeParams] signature core).Yields ctx tail ctx')
    (fits : ctx.Fits g opened) (fits' : ctx'.Fits g opened) :
    g.Returns frames signature core tail := by
  unfold returning at h
  unfold Setting.Returns
  split at h
  next annotated =>
    simp only [wrapReturn, yields_bind, yields_get, yields_ofExcept, yields_pure] at h
    obtain ⟨_, _, ⟨rfl, rfl⟩, descriptor, _, ⟨mapped, rfl⟩, check, _, hcheck, rfl, rfl⟩ := h
    rw [assertion_yields hcheck fits', annotated]
    exact ⟨_, descriptor, fits.reserved, mapped, everything _ _ _, rfl⟩
  next unannotated =>
    simp only [yields_pure] at h
    rw [unannotated]
    exact h.1.symm

end Instrument

open Instrument in
theorem instrument_yields (everything : ∀ frames site d, g.emits frames site d) (frames : Scope)
    {signature : Signature Pattern Expr} {body : Body Stmt Expr} {arrow : Bool}
    {stmts : List Stmt} (h : (instrument signature body arrow).Yields ctx stmts ctx')
    (fits : ctx.Fits g) (fits' : ctx'.Fits g) :
    g.Guards frames signature arrow (statements body) stmts := by
  simp only [instrument, yields_bind, yields_inFrame, yields_get, yields_note, yields_pure] at h
  obtain ⟨⟨found, tail⟩, _, ⟨last, hparts, rfl⟩, _, _, ⟨rfl, rfl⟩, _, _, rfl, rfl, rfl⟩ := h
  have settled := hparts.extends (parts_acts _ signature _ arrow)
  have fitsLast : last.Fits g [signature.typeParams] :=
    (fits.enter signature.typeParams).later settled fits'.helper fits'.library
  simp only [parts, yields_bind, yields_get, yields_pure] at hparts
  obtain ⟨_, _, ⟨rfl, rfl⟩, _, mid, htail, _, _, hfound, pair, rfl⟩ := hparts
  cases pair
  rw [(fits.enter signature.typeParams).scope] at htail hfound
  have fitsMid := (fits.enter signature.typeParams).between fitsLast
    (htail.extends (returning_acts _ _ _ _)) (hfound.extends (checks_acts _ _ _ _ _ _))
  exact ⟨found, tail, checks_yields everything frames hfound fitsMid fitsLast,
    returning_yields everything frames htail (fits.enter _) fitsMid, rfl⟩

theorem validatorOf_yields (everything : ∀ frames site d, g.emits frames site d) (frames : Scope)
    (site : Site) {name : String} {loc : Location} {typeParams : List String}
    {read : Scope → Except TypeError Descriptor} {s : Stmt}
    (reads : read [typeParams] = site.encode [])
    (h : (validatorOf name loc typeParams read).Yields ctx s ctx')
    (fits : ctx.Fits g) (fits' : ctx'.Fits g) : g.Defines frames site name loc s := by
  simp only [validatorOf, Lowering.library, yields_bind, yields_inFrame, yields_get,
    yields_ofExcept, yields_note, yields_modifyGet, yields_pure] at h
  obtain ⟨d, _, ⟨_, ⟨_, _, ⟨rfl, rfl⟩, mapped, rfl⟩, rfl⟩, _, _, rfl, library, _, hlibrary, rfl,
    rfl⟩ := h
  rw [(fits.enter typeParams).scope, reads] at mapped
  obtain ⟨b, hb, rfl⟩ := Context.library_settles hlibrary
  rw [fits'.library b hb]
  exact ⟨d, mapped, everything _ _ _, rfl⟩

theorem checkedBody_yields (everything : ∀ frames site d, g.emits frames site d) (frames : Scope)
    {signature : Signature Pattern Expr} {core body : List Stmt} {loc : Location}
    (h : (checkedBody g.options signature core loc).Yields ctx body ctx')
    (fits : ctx.Fits g) (fits' : ctx'.Fits g) : g.Bodies frames signature core body := by
  unfold checkedBody at h
  unfold Setting.Bodies
  split at h
  next skipped =>
    simp only [yields_pure] at h
    rw [if_pos skipped]
    exact h.1.symm
  next asserted =>
    rw [yields_positioned] at h
    rw [if_neg asserted]
    exact instrument_yields everything frames h fits fits'

theorem checkedArrowBody_yields (everything : ∀ frames site d, g.emits frames site d)
    (frames : Scope)
    {signature : Signature Pattern Expr} {core body : Body Stmt Expr} {loc : Location}
    (h : (checkedArrowBody g.options signature core loc).Yields ctx body ctx')
    (fits : ctx.Fits g) (fits' : ctx'.Fits g) : g.ArrowBodies frames signature core body := by
  unfold checkedArrowBody at h
  unfold Setting.ArrowBodies
  split at h
  next skipped =>
    simp only [yields_pure] at h
    rw [if_pos skipped]
    exact h.1.symm
  next asserted =>
    simp only [yields_bind, yields_positioned, yields_pure] at h
    obtain ⟨stmts, _, hstmts, rfl, rfl⟩ := h
    rw [if_neg asserted]
    exact ⟨stmts, instrument_yields everything frames hstmts fits fits', rfl⟩

mutual

-- A step is followed by others, so the contexts it starts and ends in fit the setting because
-- those around it do: the names from before, the choices from after.
theorem Expr.lower_yields (everything : ∀ frames site d, g.emits frames site d) (frames : Scope) :
    ∀ (e : Expr) {e' : Expr} {ctx ctx' : Context}, (Expr.lower g.options e).Yields ctx e' ctx' →
      ctx.Fits g → ctx'.Fits g → Expr.Lowers g frames e e'
  | .function signature body name loc, e', ctx, ctx', h, fits, fits' => by
    simp only [Expr.lower, yields_bind, yields_pure] at h
    obtain ⟨core, mid, hcore, body', _, hbody, rfl, rfl⟩ := h
    have between := fits.between fits' (hcore.extends (Stmt.lowerAll_acts _ _ _))
      (hbody.extends (checkedBody_acts _ _ signature [] body core loc))
    exact ⟨core, body', Stmt.lowerAll_yields everything _ body hcore fits between,
      checkedBody_yields everything frames hbody between fits', rfl⟩
  | .arrow signature body loc, e', ctx, ctx', h, fits, fits' => by
    simp only [Expr.lower, yields_bind, yields_pure] at h
    obtain ⟨core, mid, hcore, body', _, hbody, rfl, rfl⟩ := h
    have between := fits.between fits' (hcore.extends (Expr.lowerBody_acts _ _ _))
      (hbody.extends (checkedArrowBody_acts _ _ signature [] [] core loc))
    exact ⟨core, body', Expr.lowerBody_yields everything _ body hcore fits between,
      checkedArrowBody_yields everything frames hbody between fits', rfl⟩
  | .call callee args, e', ctx, ctx', h, fits, fits' => by
    simp only [Expr.lower, yields_bind, yields_pure] at h
    obtain ⟨callee', mid, hcallee, args', _, hargs, rfl, rfl⟩ := h
    have between := fits.between fits' (hcallee.extends (Expr.lower_acts _ _ _))
      (hargs.extends (Expr.lowerAll_acts _ _ _))
    exact ⟨callee', args', Expr.lower_yields everything frames callee hcallee fits between,
      Expr.lowerAll_yields everything frames args hargs between fits', rfl⟩
  | .raw _, _, _, _, h, _, _ | .ident _, _, _, _, h, _, _ | .this, _, _, _, h, _, _
  | .member _ _, _, _, _, h, _, _ | .string _, _, _, _, h, _, _ | .number _, _, _, _, h, _, _
  | .array _, _, _, _, h, _, _ | .object _, _, _, _, h, _, _ | .spread _, _, _, _, h, _, _
  | .binary _ _ _, _, _, _, h, _, _ | .stray _, _, _, _, h, _, _ => by
    simp only [Expr.lower, yields_pure] at h
    exact h.1.symm
termination_by structural e => e

theorem Expr.lowerBody_yields (everything : ∀ frames site d, g.emits frames site d)
    (frames : Scope) :
    ∀ (body : Body Stmt Expr) {body' : Body Stmt Expr} {ctx ctx' : Context},
      (Expr.lowerBody g.options body).Yields ctx body' ctx' →
      ctx.Fits g → ctx'.Fits g → Expr.BodyLowers g frames body body'
  | .block stmts, body', ctx, ctx', h, fits, fits' => by
    simp only [Expr.lowerBody, yields_bind, yields_pure] at h
    obtain ⟨stmts', _, hstmts, rfl, rfl⟩ := h
    exact ⟨stmts', Stmt.lowerAll_yields everything frames stmts hstmts fits fits', rfl⟩
  | .expression value, body', ctx, ctx', h, fits, fits' => by
    simp only [Expr.lowerBody, yields_bind, yields_pure] at h
    obtain ⟨value', _, hvalue, rfl, rfl⟩ := h
    exact ⟨value', Expr.lower_yields everything frames value hvalue fits fits', rfl⟩
termination_by structural body => body

theorem Expr.lowerAll_yields (everything : ∀ frames site d, g.emits frames site d)
    (frames : Scope) :
    ∀ (es : List Expr) {es' : List Expr} {ctx ctx' : Context},
      (Expr.lowerAll g.options es).Yields ctx es' ctx' →
      ctx.Fits g → ctx'.Fits g → Expr.AllLower g frames es es'
  | [], es', ctx, ctx', h, _, _ => by
    simp only [Expr.lowerAll, yields_pure] at h
    exact h.1.symm
  | e :: es, es', ctx, ctx', h, fits, fits' => by
    simp only [Expr.lowerAll, yields_bind, yields_pure] at h
    obtain ⟨e', mid, he, rest, _, hrest, rfl, rfl⟩ := h
    have between := fits.between fits' (he.extends (Expr.lower_acts _ _ _))
      (hrest.extends (Expr.lowerAll_acts _ _ _))
    exact ⟨e', rest, Expr.lower_yields everything frames e he fits between,
      Expr.lowerAll_yields everything frames es hrest between fits', rfl⟩
termination_by structural es => es

theorem Stmt.lower_yields (everything : ∀ frames site d, g.emits frames site d) (frames : Scope)
    (topLevel : Bool) :
    ∀ (s : Stmt) {s' : Stmt} {ctx ctx' : Context},
      (Stmt.lower g.options topLevel s).Yields ctx s' ctx' →
      ctx.Fits g → ctx'.Fits g → Stmt.Lowers g frames s s'
  | .typeAlias decl, s', ctx, ctx', h, fits, fits' =>
    validatorOf_yields everything frames (.typeAlias decl) rfl (yields_positioned.1 h) fits fits'
  | .interface decl, s', ctx, ctx', h, fits, fits' =>
    validatorOf_yields everything frames (.interface decl) rfl (yields_positioned.1 h) fits fits'
  | .function name signature body loc, s', ctx, ctx', h, fits, fits' => by
    simp only [Stmt.lower, yields_bind, yields_pure] at h
    obtain ⟨core, mid, hcore, body', _, hbody, rfl, rfl⟩ := h
    have between := fits.between fits' (hcore.extends (Stmt.lowerAll_acts _ _ _))
      (hbody.extends (checkedBody_acts _ _ signature [] body core loc))
    exact ⟨core, body', Stmt.lowerAll_yields everything _ body hcore fits between,
      checkedBody_yields everything frames hbody between fits', rfl⟩
  | .imports decl, s', ctx, ctx', h, _, _ => by
    simp only [Stmt.lower_imports, yields_bind, yields_pure] at h
    obtain ⟨_, _, _, rfl, rfl⟩ := h
    rfl
  | .var kind target none loc, s', ctx, ctx', h, _, _ => by
    simp only [Stmt.lower_var_none, yields_bind, yields_pure] at h
    obtain ⟨_, _, _, rfl, rfl⟩ := h
    rfl
  | .var kind target (some init) loc, s', ctx, ctx', h, fits, fits' => by
    simp only [Stmt.lower_var_some, yields_bind, yields_pure] at h
    obtain ⟨_, mid, hoffer, init', _, hinit, rfl, rfl⟩ := h
    have between := fits.between fits' (hoffer.extends (Stmt.offer_acts _ _ _))
      (hinit.extends (Expr.lower_acts _ _ _))
    exact ⟨init', Expr.lower_yields everything frames init hinit between fits', rfl⟩
  | .exports declaration loc, s', ctx, ctx', h, fits, fits' => by
    simp only [Stmt.lower, yields_bind, yields_pure] at h
    obtain ⟨declaration', _, hdeclaration, rfl, rfl⟩ := h
    exact ⟨declaration',
      Stmt.lower_yields everything frames topLevel declaration hdeclaration fits fits', rfl⟩
  | .ret (some argument), s', ctx, ctx', h, fits, fits' => by
    simp only [Stmt.lower, yields_bind, yields_pure] at h
    obtain ⟨argument', _, hargument, rfl, rfl⟩ := h
    exact ⟨argument', Expr.lower_yields everything frames argument hargument fits fits', rfl⟩
  | .expr expression, s', ctx, ctx', h, fits, fits' => by
    simp only [Stmt.lower, yields_bind, yields_pure] at h
    obtain ⟨expression', _, hexpression, rfl, rfl⟩ := h
    exact ⟨expression', Expr.lower_yields everything frames expression hexpression fits fits', rfl⟩
  | .block body, s', ctx, ctx', h, fits, fits' => by
    simp only [Stmt.lower, yields_bind, yields_pure] at h
    obtain ⟨body', _, hbody, rfl, rfl⟩ := h
    exact ⟨body', Stmt.lowerAll_yields everything frames body hbody fits fits', rfl⟩
  | .ret none, _, _, _, h, _, _ | .raw _, _, _, _, h, _, _ | .stray _, _, _, _, h, _, _ => by
    simp only [Stmt.lower, yields_pure] at h
    exact h.1.symm
termination_by structural s => s

theorem Stmt.lowerAll_yields (everything : ∀ frames site d, g.emits frames site d)
    (frames : Scope) :
    ∀ (ss : List Stmt) {ss' : List Stmt} {ctx ctx' : Context},
      (Stmt.lowerAll g.options ss).Yields ctx ss' ctx' →
      ctx.Fits g → ctx'.Fits g → Stmt.AllLower g frames ss ss'
  | [], ss', ctx, ctx', h, _, _ => by
    simp only [Stmt.lowerAll, yields_pure] at h
    exact h.1.symm
  | s :: ss, ss', ctx, ctx', h, fits, fits' => by
    simp only [Stmt.lowerAll, yields_bind, yields_pure] at h
    obtain ⟨s', mid, hs, rest, _, hrest, rfl, rfl⟩ := h
    have between := fits.between fits' (hs.extends (Stmt.lower_acts _ _ _ _))
      (hrest.extends (Stmt.lowerAll_acts _ _ _))
    exact ⟨s', rest, Stmt.lower_yields everything frames false s hs fits between,
      Stmt.lowerAll_yields everything frames ss hrest between fits', rfl⟩
termination_by structural ss => ss

end

theorem Stmt.lowerTop_yields (everything : ∀ frames site d, g.emits frames site d)
    {ss ss' : List Stmt} (h : (Stmt.lowerTop g.options ss).Yields ctx ss' ctx')
    (fits : ctx.Fits g) (fits' : ctx'.Fits g) : Stmt.AllLower g [] ss ss' := by
  induction ss generalizing ctx ss' with
  | nil =>
    simp only [Stmt.lowerTop, yields_pure] at h
    exact h.1.symm
  | cons s ss ih =>
    simp only [Stmt.lowerTop, yields_bind, yields_pure] at h
    obtain ⟨s', mid, hs, rest, _, hrest, rfl, rfl⟩ := h
    have between := fits.between fits' (hs.extends (Stmt.lower_acts _ _ _ _))
      (hrest.extends (Stmt.lowerTop_acts _ _ _))
    exact ⟨s', rest, Stmt.lower_yields everything [] true s hs fits between,
      ih hrest between, rfl⟩

theorem withHelper_yields {body stmts : List Stmt}
    (h : (withHelper g.options body).Yields ctx stmts ctx') (fits' : ctx'.Fits g) :
    if g.options.injectHelper then
      ∃ text, Script.assertHelper g.helper g.library = .ok text ∧ stmts = .raw text :: body
    else stmts = body := by
  unfold withHelper at h
  split at h
  next injected =>
    simp only [Lowering.library, Lowering.helperName, yields_bind, yields_modifyGet] at h
    obtain ⟨helper, mid, hhelper, library, last, hlibrary, hend⟩ := h
    rw [if_pos injected]
    split at hend
    next text printed =>
      simp only [yields_pure] at hend
      obtain ⟨rfl, rfl⟩ := hend
      have kept := Context.Extends.library mid
      rw [hlibrary] at kept
      obtain ⟨b, hb, rfl⟩ := Context.library_settles hlibrary
      have same := fits'.helper _ (kept.assertName _ (Context.helperName_settles hhelper))
      rw [← same, ← fits'.library b hb]
      exact ⟨text, printed, rfl⟩
    · simp at hend
  next left =>
    simp only [yields_pure] at h
    rw [if_neg left]
    exact h.1.symm

end

theorem Context.prepare_fits (g : Setting) (program : Program)
    (reserved : g.reserved = program.declaredNames) : (Context.prepare program {}).Fits g where
  scope := rfl
  reserved := by
    rw [reserved]
    exact List.subset_append_right _ _
  helper _ h := by simp [Context.prepare, Context.reset, Context.reserve] at h
  library _ h := by simp [Context.prepare, Context.reset, Context.reserve] at h

/-- A lowering has the shape for every setting that agrees with the helper and the library reference
that it ends with. -/
theorem Program.lowers_of_yields {g : Setting} (everything : ∀ frames site d, g.emits frames site d)
    {program lowered : Program} (reserved : g.reserved = program.declaredNames) {body : List Stmt}
    {mid last : Context} (file : lowered.file = program.file)
    (hbody : (Stmt.lowerTop g.options program.body).Yields (Context.prepare program {}) body mid)
    (hhelper : (withHelper g.options body).Yields mid lowered.body last)
    (helper : ∀ name, last.assertName = some name → name = g.helper)
    (library : ∀ b, last.binding = some b → b.expression = g.library) :
    program.Lowers g lowered := by
  have fits := Context.prepare_fits g program reserved
  have settled := hbody.extends (Stmt.lowerTop_acts _ _ _)
  have helped := (withHelper_settles _ hhelper).1
  have fitsLast : last.Fits g := fits.later (settled.trans helped) helper library
  have fitsMid := fits.between fitsLast settled helped
  exact ⟨file, body, Stmt.lowerTop_yields everything hbody fits fitsMid,
    withHelper_yields hhelper fitsLast⟩

/-- Every lowering that succeeds has the shape, for one helper and one library reference. -/
theorem Program.lowers_of_lower {options : Options} {program lowered : Program}
    (h : (program.lower options).1 = .ok lowered) :
    ∃ helper library, program.Lowers
      { options, helper, library, reserved := program.declaredNames } lowered := by
  obtain ⟨body, mid, last, hbody, hhelper, file⟩ := (Program.lower_eq_ok_iff options).1 h
  refine ⟨last.assertName.getD "", (last.binding.map (·.expression)).getD (.ident ""), ?_⟩
  exact Program.lowers_of_yields (fun _ _ _ => trivial) rfl file hbody hhelper
    (fun name hn => by simp [hn]) (fun b hb => by simp [hb])

end TypeGuard
