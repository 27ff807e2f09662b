import TypeGuard.Proofs.Lowering.Fresh
import TypeGuard.Proofs.Lowering.Occurrences
import TypeGuard.Session

/-!
# Runs of operations

Any sequence of operations on the context of one file, statements that fail midway included. What an
operation may do to a context is said once, in `Operation.performs`; that it holds along every run
follows by induction over the operations.

## Main definitions

* `Operation`: what is done with a context between two resets.
* `Operation.run`: the context after a sequence of operations.
* `Operation.allocated`: the names of the whole file that a run has given out.
* `Operation.Coherent`: what is promised of all runs from a context on.
-/

namespace TypeGuard

/-- What can be done with a context while its file is worked on. -/
inductive Operation where
  | register (stmt : Stmt)
  | library
  | enter (names : List String)
  | leave
  | reserve (names : List String)
  | freshName (base : String)
  | freshLocal (base : String) (avoid : List String)
  | assertName
  | statement (stmt : Stmt)

/-- The results of statements of a module that are lowered one after the other. One that fails does
not keep those behind it from being lowered. -/
def Stmt.results (options : Options) : List Stmt → Context → List (Except Diagnostic Stmt)
  | [], _ => []
  | stmt :: stmts, ctx =>
    let (result, ctx) := (Stmt.lower options true stmt).outcome ctx
    result :: Stmt.results options stmts ctx

namespace Operation

section
variable (options : Options)

/-- The context that an operation leaves. A statement that fails leaves what it has settled so far,
and there is nothing to leave where no frame is open. -/
def perform (ctx : Context) : Operation → Context
  | .register stmt => (ctx.register stmt).2
  | .library => ctx.library.2
  | .enter names => ctx.enter names
  | .leave => ctx.leave?.getD ctx
  | .reserve names => ctx.reserve names
  | .freshName base => (ctx.freshName base).2
  | .freshLocal _ _ => ctx
  | .assertName => ctx.helperName.2
  | .statement stmt => ((Stmt.lower options true stmt).outcome ctx).2

/-- The context after operations. -/
def run (ctx : Context) (ops : List Operation) : Context := ops.foldl (perform options) ctx

/-- The names that an operation reserves. -/
def reserved : Operation → List String
  | .reserve names => names
  | _ => []

/-- The name for the whole file that an operation gives out: one that is asked for, or that of the
helper where it is first needed. -/
def allocates? (ctx : Context) : Operation → Option String
  | .freshName base => some (ctx.freshName base).1
  | op => if ctx.assertName.isNone then (op.perform options ctx).assertName else none

/-- The names for the whole file that operations give out, in order. -/
def allocated (ctx : Context) : List Operation → List String
  | [] => []
  | op :: ops => (op.allocates? options ctx).toList ++ allocated (op.perform options ctx) ops

/-! ## One operation -/

/-- What an operation does to a context: nothing that is settled changes, the names that it reserves
or gives out are taken, and no others, and the name that it gives out is new. -/
structure Performs (ctx : Context) (op : Operation) (ctx' : Context) (name? : Option String) :
    Prop where
  binding : ∀ b, ctx.binding = some b → ctx'.binding = some b
  assertName : ∀ name, ctx.assertName = some name → ctx'.assertName = some name
  taken : ctx'.taken = ctx.taken ++ op.reserved ++ name?.toList
  fresh : ∀ name, name? = some name → name ∉ ctx.taken

/-- An operation that, apart from the open frames, does what steps of lowering may do. -/
theorem performs_of_extends {ctx : Context} {op : Operation}
    (first : op.allocates? options ctx =
      if ctx.assertName.isNone then (op.perform options ctx).assertName else none)
    (reserves : op.reserved = [])
    (h : ctx.Extends { op.perform options ctx with scope := ctx.scope }) :
    Performs ctx op (op.perform options ctx) (op.allocates? options ctx) := by
  rcases h.names with ⟨sameName, sameTaken⟩ | ⟨unnamed, named, taken⟩
  · have nothing : op.allocates? options ctx = none := by
      rw [first, show (op.perform options ctx).assertName = ctx.assertName from sameName]
      cases ctx.assertName <;> rfl
    refine ⟨h.binding, h.assertName, ?_, ?_⟩
    · rw [show (op.perform options ctx).taken = ctx.taken from sameTaken, reserves, nothing]
      simp
    · simp [nothing]
  · have helper : op.allocates? options ctx = some (ctx.freshName "assert").1 := by
      rw [first, unnamed]
      exact named
    refine ⟨h.binding, h.assertName, ?_, ?_⟩
    · rw [reserves, helper]
      simpa [Context.freshName, Context.reserve] using taken
    · intro name given
      rw [helper] at given
      cases given
      exact ctx.freshName_not_mem "assert"

theorem performs (ctx : Context) (op : Operation) :
    Performs ctx op (op.perform options ctx) (op.allocates? options ctx) := by
  -- The frames are all that entering and leaving change.
  have framed {ctx' : Context} (h : ctx.Extends ctx') :
      ctx.Extends { ctx' with scope := ctx.scope } :=
    ⟨h.file, rfl, h.taken, h.binding, h.assertName, h.names⟩
  cases op with
  | register stmt => exact performs_of_extends options rfl rfl (framed (.register stmt ctx))
  | library => exact performs_of_extends options rfl rfl (framed (.library ctx))
  | enter names => exact performs_of_extends options rfl rfl (.refl ctx)
  | leave =>
    have unframed : { ctx.leave?.getD ctx with scope := ctx.scope } = ctx := by
      unfold Context.leave?
      split <;> rfl
    have kept : ctx.Extends { perform options ctx .leave with scope := ctx.scope } := by
      rw [perform, unframed]
      exact .refl ctx
    exact performs_of_extends options rfl rfl kept
  | reserve names =>
    have nothing : allocates? options ctx (.reserve names) = none := by
      unfold allocates? perform Context.reserve
      cases ctx.assertName <;> rfl
    refine ⟨fun _ h => h, fun _ h => h, ?_, by simp [nothing]⟩
    rw [nothing]
    simp [perform, reserved, Context.reserve]
  | freshName base =>
    refine ⟨fun _ h => h, fun _ h => h, ?_, ?_⟩
    · simp [perform, reserved, allocates?, Context.freshName, Context.reserve]
    · intro name given
      cases given
      exact ctx.freshName_not_mem base
  | freshLocal base avoid => exact performs_of_extends options rfl rfl (.refl ctx)
  | assertName => exact performs_of_extends options rfl rfl (framed (.helperName ctx))
  | statement stmt =>
    exact performs_of_extends options rfl rfl
      (framed (Stmt.lower_acts _ options true stmt ctx rfl).settled)

/-! ## Runs -/

theorem run_append (ctx : Context) (before after : List Operation) :
    run options ctx (before ++ after) = run options (run options ctx before) after :=
  List.foldl_append

theorem binding_run {ctx : Context} {b : LibraryBinding} (ops : List Operation)
    (h : ctx.binding = some b) : (run options ctx ops).binding = some b := by
  induction ops generalizing ctx with
  | nil => exact h
  | cons op ops ih => exact ih ((performs options ctx op).binding b h)

theorem assertName_run {ctx : Context} {name : String} (ops : List Operation)
    (h : ctx.assertName = some name) : (run options ctx ops).assertName = some name := by
  induction ops generalizing ctx with
  | nil => exact h
  | cons op ops ih => exact ih ((performs options ctx op).assertName name h)

/-- After a run, those names are taken that were taken before or that the run has reserved or given
out. -/
theorem mem_taken_run {ctx : Context} {ops : List Operation} {name : String} :
    name ∈ (run options ctx ops).taken ↔
      name ∈ ctx.taken ∨ name ∈ ops.flatMap reserved ∨ name ∈ allocated options ctx ops := by
  induction ops generalizing ctx with
  | nil => simp [run, allocated]
  | cons op ops ih =>
    have taken := (performs options ctx op).taken
    change name ∈ (run options (op.perform options ctx) ops).taken ↔ _
    rw [ih, taken, List.flatMap_cons, allocated]
    simp only [List.mem_append]
    grind

theorem nodup_allocated (ctx : Context) (ops : List Operation) :
    (allocated options ctx ops).Nodup ∧ ∀ name ∈ allocated options ctx ops, name ∉ ctx.taken := by
  induction ops generalizing ctx with
  | nil => simp [allocated]
  | cons op ops ih =>
    obtain ⟨distinct, unused⟩ := ih (op.perform options ctx)
    have step := performs options ctx op
    rw [step.taken] at unused
    rw [allocated]
    cases given : op.allocates? options ctx with
    | none =>
      rw [given] at unused
      refine ⟨distinct, fun name member => ?_⟩
      have := unused name member
      simp_all
    | some first =>
      rw [given] at unused
      have new := step.fresh first given
      refine ⟨?_, ?_⟩
      · refine List.nodup_cons.2 ⟨fun again => ?_, distinct⟩
        have := unused first again
        simp at this
      · intro name member
        rcases List.mem_cons.1 member with rfl | later
        · exact new
        · have := unused name later
          simp_all

theorem scope_statement (ctx : Context) (stmt : Stmt) :
    (perform options ctx (.statement stmt)).scope = ctx.scope :=
  (Stmt.lower_acts _ options true stmt ctx rfl).settled.scope

theorem assertName_helperName (ctx : Context) :
    ctx.helperName.2.assertName = some ctx.helperName.1 := by
  unfold Context.helperName
  split
  next named => exact named
  next => rfl

theorem helperName_of_assertName {ctx : Context} {name : String} (h : ctx.assertName = some name) :
    ctx.helperName.1 = name := by
  unfold Context.helperName
  rw [h]

/-- What holds of all runs from a context on. -/
structure Coherent (start : Context) : Prop where
  /-- A reference to the library that is settled stays as it is. -/
  binding (before after : List Operation) (b : LibraryBinding) :
    (run options start before).binding = some b →
      (run options start (before ++ after)).binding = some b
  /-- The name of the helper that is settled, by a statement or because it was asked for, stays. -/
  settled (before after : List Operation) (name : String) :
    (run options start before).assertName = some name →
      (run options start (before ++ after)).assertName = some name
  /-- The helper has the same name whenever it is asked for. -/
  helper (before between : List Operation) :
    (run options start (before ++ .assertName :: between)).helperName.1
      = (run options start before).helperName.1
  /-- No name is given out twice for the whole file. -/
  distinct (ops : List Operation) : (allocated options start ops).Nodup
  /-- A name that is given out for the whole file has not been reserved before. -/
  unreserved (before : List Operation) (op : Operation) (name : String) :
    op.allocates? options (run options start before) = some name →
      name ∉ start.taken ++ before.flatMap reserved
  /-- A name for one function is neither reserved nor given out so far. -/
  locals (before : List Operation) (base : String) (avoid : List String) :
    (run options start before).freshLocal base avoid ∉
      start.taken ++ before.flatMap reserved ++ allocated options start before
  /-- A statement leaves the open frames as they are, also if it fails. -/
  frames (before : List Operation) (stmt : Stmt) :
    (run options start (before ++ [.statement stmt])).scope = (run options start before).scope
  /-- After a run the statements of a program are lowered as in a new context. -/
  prepared (ops : List Operation) (program : Program) (file : String) :
    Stmt.results options program.body (Context.prepare program (run options start ops))
      = Stmt.results options program.body (Context.prepare program { file })

theorem coherent (start : Context) : Coherent options start where
  binding before after b settled := by
    rw [run_append]
    exact binding_run options after settled
  settled before after name named := by
    rw [run_append]
    exact assertName_run options after named
  helper before between := by
    rw [run_append]
    have named := assertName_helperName (run options start before)
    exact helperName_of_assertName (assertName_run options between named)
  distinct ops := (nodup_allocated options start ops).1
  unreserved before op name given := by
    have unused := (performs options (run options start before) op).fresh name given
    rw [mem_taken_run] at unused
    rw [List.mem_append]
    tauto
  locals before base avoid := by
    have unused := (run options start before).freshLocal_not_mem base avoid
    rw [List.mem_append, mem_taken_run] at unused
    rw [List.mem_append, List.mem_append]
    tauto
  frames before stmt := by
    rw [run_append]
    exact scope_statement options _ stmt
  prepared _ _ _ := rfl

end

end Operation

/-! ## Sessions -/

/-- The operation that a request asks for, where the file has the given name. -/
def Request.operation? (file : String) : Request → Option Operation
  | .register stmt => (stmt.stmt file).toOption.map .register
  | .statement stmt => (stmt.stmt file).toOption.map .statement
  | .library => some .library
  | .enter names => some (.enter names)
  | .exit => some .leave
  | .reserve names => some (.reserve names)
  | .freshName base => some (.freshName base)
  | .freshLocal base avoid => some (.freshLocal base avoid)
  | .assertName => some .assertName
  | _ => none

/-- A statement that an operation is asked for with has been read. -/
theorem Given.stmt_of_operation {given : Given} {file : String} {f : Stmt → Operation}
    {op : Operation} (h : (given.stmt file).toOption.map f = some op) :
    ∃ stmt, given.stmt file = .ok stmt ∧ f stmt = op := by
  cases parsed : given.stmt file with
  | error e => simp [parsed, Except.toOption] at h
  | ok stmt => exact ⟨stmt, rfl, by simpa [parsed, Except.toOption] using h⟩

open Lowering (outcome)

/-- Whatever a step is followed by, the context stays as the step leaves it if that changes none. -/
theorem Lowering.snd_outcome_bind {ε α β : Type} {x : Lowering ε α} {f : α → Lowering ε β}
    (quiet : ∀ a ctx, (outcome (f a) ctx).2 = ctx) (ctx : Context) :
    (outcome (x >>= f) ctx).2 = (outcome x ctx).2 := by
  rw [Lowering.outcome_bind]
  rcases outcome x ctx with ⟨_ | a, mid⟩
  · rfl
  · exact quiet a mid

theorem SessionStep.outcome_given_bind {α β : Type} {f : String → Except RequestError α}
    {g : α → SessionStep β} {a : α} {ctx : Context} (h : f ctx.file = .ok a) :
    outcome (given f >>= g) ctx = outcome (g a) ctx := by
  have given : outcome (given f) ctx = (.ok a, ctx) := by
    change (f ctx.file, ctx) = _
    rw [h]
  rw [Lowering.outcome_bind, given]

theorem SessionStep.snd_outcome_printed {α : Type} (r : Except PrintError String)
    (f : String → α) (ctx : Context) :
    (outcome (do return f (← printed r)) ctx).2 = ctx :=
  Lowering.snd_outcome_bind (x := printed r) (fun _ _ => rfl) ctx

/-- A session does to its context what the operations do that its requests ask for. To leave a
frame, one must have been entered by request. -/
theorem Session.context_handle {s : Session} {request : Request} {op : Operation}
    (asked : request.operation? s.context.file = some op)
    (entered : request = .exit → 0 < s.entered) :
    (s.handle request).2.context = op.perform s.options s.context := by
  have handled : (s.handle request).2.context
      = (outcome (SessionStep.answer s.options request) s.context).2 := by
    unfold Session.handle
    split
    next none =>
      have := entered rfl
      omega
    next => rfl
  rw [handled]
  cases request with
  | statement given =>
    obtain ⟨stmt, found, rfl⟩ := Given.stmt_of_operation asked
    rw [SessionStep.answer, SessionStep.outcome_given_bind found]
    exact Lowering.snd_outcome_bind (fun _ ctx => SessionStep.snd_outcome_printed _ _ ctx) _
  | register given =>
    obtain ⟨stmt, found, rfl⟩ := Given.stmt_of_operation asked
    rw [SessionStep.answer, SessionStep.outcome_given_bind found]
    rfl
  | library =>
    cases asked
    exact Lowering.snd_outcome_bind (fun _ ctx => SessionStep.snd_outcome_printed _ _ ctx) _
  | exit =>
    cases asked
    have read : outcome (get : SessionStep Context) s.context = (.ok s.context, s.context) := rfl
    rw [SessionStep.answer, Lowering.outcome_bind, read, Operation.perform]
    dsimp only
    cases s.context.leave? <;> rfl
  | enter names => cases asked; rfl
  | reserve names => cases asked; rfl
  | freshName base => cases asked; rfl
  | freshLocal base avoid => cases asked; rfl
  | assertName => cases asked; rfl
  | _ => cases asked

end TypeGuard
