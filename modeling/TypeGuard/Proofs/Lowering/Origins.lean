import TypeGuard.Proofs.Lowering.Fresh
import TypeGuard.Proofs.Lowering.Nodes

/-!
# Where the functions of a lowered program come from

A function in a lowered program is a function of the program with its checks, or one that lowering
adds itself and that checks nothing, or it stands in a default value and is what it was.
`Program.arises_of_lowers` says so for every function, together with the names that are bound around
it.
-/

namespace TypeGuard

/-- What a setting that lowering settles on has in common with all others: the helper has a new name,
and the library is not a function. -/
structure Setting.Apt (g : Setting) : Prop where
  asserts : g.options.skipAsserts = false
  helper : ∃ ctx avoid, g.helper = Context.freshLocal "assert" avoid ctx
  unreserved : g.helper ∉ g.reserved
  library : ∀ reach b, g.library.nodes reach b = []

namespace Setting

variable (g : Setting)

/-- Between the given frame of the module and the place, nothing binds the name of the helper. -/
def Clear (module : List String) (b : Binders) : Prop :=
  ∃ inner, b = inner ++ [module] ∧ ∀ frame ∈ inner, g.helper ∉ frame

/-- A function with its checks: `core` is what was in it before, and all names in and around it are
settled. -/
structure Checked (module : List String) (outer : Binders) (own : List String)
    (signature : Signature Pattern Expr) (core body : List Stmt) : Prop where
  outside : g.Clear module outer
  own : own ⊆ g.reserved
  params : signature.boundNames ⊆ g.reserved
  locals : Stmt.allLocalNames core ⊆ g.reserved
  quiet : ∀ e, Stmt.expr e ∉ core
  guards : ∃ frames arrow, g.Guards frames signature arrow core body

/-- Where a function of a lowered program comes from, if those in default values are `left`. -/
inductive Arises (module : List String) (left : Node → Prop) : Node → Prop where
  | checked {outer : Binders} {own : List String} {signature : Signature Pattern Expr}
      {core body : List Stmt} : g.Checked module outer own signature core body →
      Arises module left (.function outer own signature body)
  | plain {n : Node} : n.Plain → Arises module left n
  | left {n : Node} : left n.bare → Arises module left n

variable {g} {module : List String} {left : Node → Prop} {reach : Reach}

theorem Clear.cons {b : Binders} {frame : List String} (h : g.Clear module b)
    (free : g.helper ∉ frame) : g.Clear module (frame :: b) := by
  obtain ⟨inner, rfl, clear⟩ := h
  exact ⟨frame :: inner, rfl, List.forall_mem_cons.2 ⟨free, clear⟩⟩

theorem Apt.helper_not_mem (apt : g.Apt) {names : List String} (h : names ⊆ g.reserved) :
    g.helper ∉ names := fun member => apt.unreserved (h member)

theorem Arises.of_bare {ns ms : List Node} (same : ns.map Node.bare = ms.map Node.bare)
    (h : ∀ n ∈ ns, left n.bare) : ∀ n ∈ ms, g.Arises module left n := by
  intro n member
  have bare : n.bare ∈ ns.map Node.bare := same ▸ List.mem_map_of_mem member
  obtain ⟨m, found, same⟩ := List.mem_map.1 bare
  exact .left (same ▸ h m found)

theorem nodes_check (apt : g.Apt) {value : Expr} {d : Descriptor} (label : String) {b : Binders}
    (subject : value.nodes reach b = []) (dotted : d.Dotted) :
    ∀ n ∈ (g.check value d label).nodes reach b, n.Plain := by
  have inType := Descriptor.plain_lower (apt.library reach b) d dotted
  simpa [check, Stmt.nodes, Expr.nodes, Expr.allNodes, subject] using inType

section
variable {frames : Scope} {signature : Signature Pattern Expr} {arrow : Bool}
  {checks core tail body : List Stmt}

theorem ArgumentChecks.nodes_plain (apt : g.Apt) {own : List String} {index : Nat}
    {params : List (Param Pattern Expr)}
    (h : g.ArgumentChecks frames own arrow index params checks) (surface : Param.AllSurface params)
    (b : Binders) : ∀ n ∈ Stmt.allNodes reach b checks, n.Plain := by
  induction h with
  | nil => simp [Stmt.allNodes]
  | unchecked _ _ ih => exact ih surface.2
  | checked _ mapped _ _ ih =>
    refine List.forall_mem_append.2 ⟨nodes_check apt _ ?_ (Site.encode_dotted mapped), ih surface.2⟩
    exact Instrument.nodes_subject surface.1 _ arrow

theorem ArgumentChecks.allLocalNames_eq_nil {own : List String} {index : Nat}
    {params : List (Param Pattern Expr)}
    (h : g.ArgumentChecks frames own arrow index params checks) :
    Stmt.allLocalNames checks = [] := by
  induction h with
  | nil => rfl
  | unchecked _ _ ih => exact ih
  | checked _ _ _ _ ih => exact ih

/-- The name of a result is new to its function, to the whole file and to the helper. -/
theorem Apt.freshLocal_ne_helper (apt : g.Apt) (avoid : List String) (ctx : Context) :
    ctx.freshLocal "ret" avoid ≠ g.helper := by
  obtain ⟨ctx', avoid', same⟩ := apt.helper
  rw [same]
  exact Context.freshLocal_ret_ne_assert _ _ _ _

theorem Returns.helper_not_mem (apt : g.Apt) (h : g.Returns frames signature core tail)
    (locals : Stmt.allLocalNames core ⊆ g.reserved) : g.helper ∉ Stmt.allLocalNames tail := by
  unfold Returns at h
  split at h
  · rw [h]
    exact apt.helper_not_mem locals
  · obtain ⟨ctx, _, -, -, -, rfl⟩ := h
    have differs := apt.freshLocal_ne_helper signature.boundNames ctx
    simpa [checkedReturn, check, Stmt.allLocalNames, Stmt.localNames, Pattern.boundNames]
      using differs.symm

theorem Returns.arises (apt : g.Apt) (h : g.Returns frames signature core tail)
    (surface : Param.AllSurface signature.params) (params : signature.boundNames ⊆ g.reserved)
    (locals : Stmt.allLocalNames core ⊆ g.reserved) (quiet : ∀ e, Stmt.expr e ∉ core)
    (defaults : ∀ n ∈ Param.allNodes reach [] signature.params, left n.bare)
    (inside : ∀ b, g.Clear module b → ∀ n ∈ Stmt.allNodes reach b core, g.Arises module left n)
    {b : Binders} (clear : g.Clear module b) :
    ∀ n ∈ Stmt.allNodes reach b tail, g.Arises module left n := by
  unfold Returns at h
  split at h
  · rw [h]
    exact inside b clear
  · obtain ⟨ctx, d, -, mapped, -, rfl⟩ := h
    have bound : Signature.boundNames { params := Instrument.innerParams signature.params }
        = signature.boundNames := Instrument.boundNames_innerParams _
    have clear' : g.Clear module (signature.boundNames :: [] :: b) :=
      (clear.cons (by simp)).cons (apt.helper_not_mem params)
    have inner : ∀ n ∈ (Expr.function { params := Instrument.innerParams signature.params } core
        none .unknown).nodes reach b, g.Arises module left n := by
      refine List.forall_mem_cons.2 ⟨.plain ⟨?_, rfl, quiet⟩, List.forall_mem_append.2 ⟨?_, ?_⟩⟩
      · simp [Signature.annotated, Instrument.innerParams, List.countP_map, Function.comp_def]
      · intro n member
        exact .of_bare (Param.bare_allNodes reach _ [] _) defaults n
          (Instrument.allNodes_innerParams_subset _ member)
      · rw [bound]
        exact inside _ (clear'.cons (apt.helper_not_mem locals))
    have check : ∀ n ∈ (g.check (.ident (ctx.freshLocal "ret" signature.boundNames)) d
        returnLabel).nodes reach b, g.Arises module left n :=
      fun n member => .plain (nodes_check apt _ rfl (Site.encode_dotted mapped) n member)
    simp only [checkedReturn, Stmt.allNodes, Stmt.nodes, Pattern.nodes, Expr.nodes, Expr.allNodes,
      Instrument.allNodes_forwarded surface, List.nil_append, List.append_nil]
    exact List.forall_mem_append.2 ⟨inner, check⟩

/-- Nothing in or around a function with its checks binds the name of the helper. -/
theorem Checked.clear (apt : g.Apt) {outer : Binders} {own : List String}
    (h : g.Checked module outer own signature core body) :
    g.Clear module (Stmt.allLocalNames body :: signature.boundNames :: own :: outer) := by
  obtain ⟨frames, arrow, checks, tail, checked, returned, rfl⟩ := h.guards
  refine Clear.cons (Clear.cons (h.outside.cons ?_) ?_) ?_
  · exact apt.helper_not_mem h.own
  · exact apt.helper_not_mem h.params
  · rw [Stmt.allLocalNames_append, checked.allLocalNames_eq_nil, List.nil_append]
    exact returned.helper_not_mem apt h.locals

/-- The functions in a function with its checks, itself included. -/
theorem Checked.arises (apt : g.Apt) {outer : Binders} {own : List String}
    (h : g.Checked module outer own signature core body)
    (surface : Param.AllSurface signature.params)
    (defaults : ∀ n ∈ Param.allNodes reach [] signature.params, left n.bare)
    (inside : ∀ b, g.Clear module b → ∀ n ∈ Stmt.allNodes reach b core, g.Arises module left n) :
    ∀ n ∈ Node.function outer own signature body ::
        (Param.allNodes reach (signature.boundNames :: own :: outer) signature.params ++
          Stmt.allNodes reach (Stmt.allLocalNames body :: signature.boundNames :: own :: outer)
            body),
      g.Arises module left n := by
  refine List.forall_mem_cons.2 ⟨.checked h, ?_⟩
  refine List.forall_mem_append.2 ⟨.of_bare (Param.bare_allNodes reach _ [] _) defaults, ?_⟩
  have clear := h.clear apt
  obtain ⟨frames, arrow, checks, tail, checked, returned, rfl⟩ := h.guards
  rw [Stmt.allNodes_append]
  refine List.forall_mem_append.2 ⟨fun n member => ?_, ?_⟩
  · exact .plain (checked.nodes_plain apt surface _ n member)
  · exact returned.arises apt surface h.params h.locals h.quiet defaults inside clear

end

end Setting

section
variable {g : Setting} {module : List String} {left : Node → Prop} {reach : Reach}

theorem Setting.Apt.guards (apt : g.Apt) {frames : Scope} {signature : Signature Pattern Expr}
    {core body : List Stmt} (h : g.Bodies frames signature core body) :
    ∃ frames arrow, g.Guards frames signature arrow core body := by
  rw [Setting.Bodies, apt.asserts, if_neg Bool.false_ne_true] at h
  exact ⟨frames, false, h⟩

theorem Setting.Apt.arrowGuards (apt : g.Apt) {frames : Scope} {signature : Signature Pattern Expr}
    {core body : Body Stmt Expr} (h : g.ArrowBodies frames signature core body) :
    ∃ stmts, body = .block stmts ∧
      ∃ frames arrow, g.Guards frames signature arrow (Instrument.statements core) stmts := by
  rw [Setting.ArrowBodies, apt.asserts, if_neg Bool.false_ne_true] at h
  obtain ⟨stmts, guards, rfl⟩ := h
  exact ⟨stmts, rfl, frames, true, guards⟩

theorem Setting.Checked.of_allLower {frames : Scope} {outer : Binders} {own : List String}
    {signature : Signature Pattern Expr} {source core body : List Stmt}
    (outside : g.Clear module outer) (named : own ⊆ g.reserved)
    (bound : signature.boundNames ⊆ g.reserved) (lowered : Stmt.AllLower g frames source core)
    (surface : Stmt.AllSurface source) (declared : Stmt.allDeclaredNames source ⊆ g.reserved)
    (guards : ∃ frames arrow, g.Guards frames signature arrow core body) :
    g.Checked module outer own signature core body where
  outside := outside
  own := named
  params := bound
  locals := by
    rw [Stmt.allLocalNames_of_allLower source lowered]
    exact List.Subset.trans (Stmt.allLocalNames_subset source) declared
  quiet e := Stmt.expr_not_mem_of_allLower e source lowered surface
  guards := guards

open List (forall_mem_append)

mutual

-- By recursion on the source, since a lowered function has two bodies: its own, and that of the
-- inner function it may call.
theorem Expr.arises_of_lowers (apt : g.Apt) : ∀ (e : Expr) {e' : Expr} {frames : Scope}
    {b : Binders}, Expr.Lowers g frames e e' → e.Surface → e.declaredNames ⊆ g.reserved →
      (∀ n ∈ e.defaultNodes reach, left n.bare) → g.Clear module b →
      ∀ n ∈ e'.nodes reach b, g.Arises module left n
  | .function ⟨params, _, _⟩ body _ _, _, _, _, ⟨_, _, lowered, bodies, h⟩, surface, declared,
      defaults, clear => by
    obtain ⟨inHeader, inBody⟩ := List.append_subset.1 declared
    obtain ⟨named, bound⟩ := List.append_subset.1 inHeader
    obtain ⟨now, later⟩ := forall_mem_append.1 defaults
    have checked := Setting.Checked.of_allLower clear named bound lowered surface.2 inBody
      (apt.guards bodies)
    rw [h]
    exact checked.arises apt surface.1 now fun _ clear =>
      Stmt.arises_of_allLower apt body lowered surface.2 inBody later clear
  | .arrow ⟨params, _, _⟩ (.block stmts) _, _, _, _, ⟨_, _, ⟨_, lowered, same⟩, bodies, h⟩, surface,
      declared, defaults, clear => by
    obtain ⟨_, rfl, guards⟩ := apt.arrowGuards bodies
    obtain ⟨bound, inBody⟩ := List.append_subset.1 declared
    obtain ⟨now, later⟩ := forall_mem_append.1 defaults
    rw [same] at guards
    have checked := Setting.Checked.of_allLower clear (List.nil_subset _) bound lowered surface.2
      inBody guards
    rw [h]
    exact checked.arises apt surface.1 now fun _ clear =>
      Stmt.arises_of_allLower apt stmts lowered surface.2 inBody later clear
  | .arrow ⟨params, _, _⟩ (.expression value) _, _, _, _, ⟨_, _, ⟨value', lowered, same⟩, bodies, h⟩,
      surface, declared, defaults, clear => by
    obtain ⟨_, rfl, guards⟩ := apt.arrowGuards bodies
    obtain ⟨bound, inValue⟩ := List.append_subset.1 declared
    obtain ⟨now, later⟩ := forall_mem_append.1 defaults
    rw [same] at guards
    have returned : Stmt.AllLower g _ [.ret (some value)] [.ret (some value')] :=
      ⟨_, [], ⟨value', lowered, rfl⟩, rfl, rfl⟩
    have checked := Setting.Checked.of_allLower clear (List.nil_subset _) bound returned
      ⟨surface.2, trivial⟩ (by simpa [Stmt.allDeclaredNames, Stmt.declaredNames] using inValue) guards
    rw [h]
    refine checked.arises apt surface.1 now fun _ clear => ?_
    simpa [Stmt.allNodes, Stmt.nodes] using
      Expr.arises_of_lowers apt value lowered surface.2 inValue later clear
  | .call _ _, _, _, _, ⟨_, _, callee, args, h⟩, ⟨_, surface⟩, _, _, _ => by
    cases surface
    obtain rfl := callee
    obtain ⟨_, _, rfl, rfl, rfl⟩ := args
    rw [h]
    simp [Expr.nodes, Expr.allNodes]
  | .raw _, _, _, _, h, _, _, _, _ | .ident _, _, _, _, h, _, _, _, _
  | .number _, _, _, _, h, _, _, _, _ => by
    rw [h]
    simp [Expr.nodes]
  | .this, _, _, _, _, surface, _, _, _ | .member _ _, _, _, _, _, surface, _, _, _
  | .string _, _, _, _, _, surface, _, _, _ | .array _, _, _, _, _, surface, _, _, _
  | .object _, _, _, _, _, surface, _, _, _ | .spread _, _, _, _, _, surface, _, _, _
  | .binary _ _ _, _, _, _, _, surface, _, _, _ | .stray _, _, _, _, _, surface, _, _, _ =>
    surface.elim
termination_by structural e => e

theorem Stmt.arises_of_lowers (apt : g.Apt) : ∀ (s : Stmt) {s' : Stmt} {frames : Scope}
    {b : Binders}, Stmt.Lowers g frames s s' → s.Surface → s.declaredNames ⊆ g.reserved →
      (∀ n ∈ s.defaultNodes reach, left n.bare) → g.Clear module b →
      ∀ n ∈ s'.nodes reach b, g.Arises module left n
  | .typeAlias _, _, _, _, ⟨_, mapped, _, h⟩, _, _, _, _
  | .interface _, _, _, _, ⟨_, mapped, _, h⟩, _, _, _, _ => by
    rw [h]
    intro n member
    exact .plain (Descriptor.plain_lower (apt.library reach _) _ (Site.encode_dotted mapped) n member)
  | .function _ ⟨params, _, _⟩ body _, _, _, _, ⟨_, _, lowered, bodies, h⟩, surface, declared,
      defaults, clear => by
    obtain ⟨bound, inBody⟩ := List.append_subset.1 (List.cons_subset.1 declared).2
    obtain ⟨now, later⟩ := forall_mem_append.1 defaults
    have checked := Setting.Checked.of_allLower clear (List.nil_subset _) bound lowered surface.2
      inBody (apt.guards bodies)
    rw [h]
    exact checked.arises apt surface.1 now fun _ clear =>
      Stmt.arises_of_allLower apt body lowered surface.2 inBody later clear
  | .var _ target none _, _, _, _, h, _, _, defaults, _ => by
    rw [h]
    exact .of_bare (Pattern.bare_nodes reach target [] _) defaults
  | .var _ target (some init) _, _, _, _, ⟨_, lowered, h⟩, surface, declared, defaults, clear => by
    obtain ⟨now, later⟩ := forall_mem_append.1 defaults
    rw [h]
    exact forall_mem_append.2 ⟨.of_bare (Pattern.bare_nodes reach target [] _) now,
      Expr.arises_of_lowers apt init lowered surface.2 (List.append_subset.1 declared).2 later clear⟩
  | .exports declaration _, _, _, _, ⟨_, lowered, h⟩, surface, declared, defaults, clear => by
    rw [h, Stmt.nodes]
    exact Stmt.arises_of_lowers apt declaration lowered surface declared defaults clear
  | .ret (some argument), _, _, _, ⟨_, lowered, h⟩, surface, declared, defaults, clear => by
    rw [h]
    exact Expr.arises_of_lowers apt argument lowered surface declared defaults clear
  | .ret none, _, _, _, h, _, _, _, _ | .raw _, _, _, _, h, _, _, _, _
  | .imports _, _, _, _, h, _, _, _, _ => by
    rw [h]
    simp [Stmt.nodes]
  | .block _, _, _, _, _, surface, _, _, _ | .expr _, _, _, _, _, surface, _, _, _
  | .stray _, _, _, _, _, surface, _, _, _ => surface.elim
termination_by structural s => s

theorem Stmt.arises_of_allLower (apt : g.Apt) : ∀ (ss : List Stmt) {ss' : List Stmt}
    {frames : Scope} {b : Binders}, Stmt.AllLower g frames ss ss' → Stmt.AllSurface ss →
      Stmt.allDeclaredNames ss ⊆ g.reserved →
      (∀ n ∈ Stmt.allDefaultNodes reach ss, left n.bare) → g.Clear module b →
      ∀ n ∈ Stmt.allNodes reach b ss', g.Arises module left n
  | [], ss', _, _, h, _, _, _, _ => by
    cases h
    simp [Stmt.allNodes]
  | s :: ss, ss', _, b, ⟨_, _, first, others, h⟩, surface, declared, defaults, clear => by
    obtain ⟨inFirst, inOthers⟩ := List.append_subset.1 declared
    obtain ⟨now, later⟩ := forall_mem_append.1 defaults
    rw [h]
    exact forall_mem_append.2
      ⟨Stmt.arises_of_lowers apt s first surface.1 inFirst now clear,
        Stmt.arises_of_allLower apt ss others surface.2 inOthers later clear⟩
termination_by structural ss => ss

end

/-- Where every function of a lowered program comes from. -/
theorem Program.arises_of_lowers (apt : g.Apt) {program lowered : Program}
    (h : program.Lowers g lowered) (surface : Stmt.AllSurface program.body)
    (reserved : program.declaredNames ⊆ g.reserved)
    (defaults : ∀ n ∈ Stmt.allDefaultNodes reach program.body, left n.bare) :
    ∀ n ∈ Stmt.allNodes reach [module] lowered.body, g.Arises module left n := by
  obtain ⟨-, body, statements, helper⟩ := h
  have clear : g.Clear module [module] := ⟨[], rfl, by simp⟩
  have origins := Stmt.arises_of_allLower apt program.body statements surface reserved defaults clear
  split at helper
  · obtain ⟨text, -, same⟩ := helper
    rw [same]
    exact origins
  · rw [helper]
    exact origins

end

/-! ## The setting of a program -/

/-- What the lowering of a program settles on. -/
def Program.setting (options : Options) (program : Program) : Setting where
  options := options
  helper := (Context.prepare program {}).freshLocal "assert" []
  library := program.libraryReference options
  reserved := program.declaredNames

theorem Program.lowers_setting {options : Options} {program lowered : Program}
    (h : (program.lower options).1 = .ok lowered) :
    program.Lowers (program.setting options) lowered := by
  obtain ⟨body, mid, last, hbody, hhelper, file⟩ := (Program.lower_eq_ok_iff options).1 h
  have grown := (hbody.extends (Stmt.lowerTop_acts _ _ _)).trans
    (withHelper_settles options hhelper).1
  refine Program.lowers_of_yields (fun _ _ _ => trivial) rfl file hbody hhelper ?_
    fun b hb => Program.library_of_yields hbody hhelper hb
  intro name named
  obtain ⟨unnamed, -⟩ | ⟨-, chosen, -⟩ := grown.names
  · rw [unnamed] at named
    cases named
  · rw [chosen] at named
    exact (Option.some.inj named).symm

theorem Program.setting_apt {options : Options} (asserts : options.skipAsserts = false)
    (program : Program) : (program.setting options).Apt where
  asserts := asserts
  helper := ⟨_, _, rfl⟩
  unreserved := by
    have fresh := Context.freshLocal_not_mem "assert" [] (Context.prepare program {})
    rw [List.append_nil] at fresh
    exact fresh
  library _ _ := program.nodes_libraryReference options

/-- A source text as a program and its lowering, if it has both. -/
def lowerSource? (options : Options) (file source : String) : Option (Program × Program) :=
  (Program.parse file source).toOption.bind fun program =>
    (program.lower options).1.toOption.map fun lowered => (program, lowered)

theorem exists_of_lowerSource? {options : Options} {file source : String} {α : Type}
    {f : Program × Program → α} {a : α} (h : (lowerSource? options file source).map f = some a) :
    ∃ program lowered, Program.parse file source = .ok program ∧
      (program.lower options).1 = .ok lowered ∧ f (program, lowered) = a := by
  unfold lowerSource? at h
  cases parsed : Program.parse file source with
  | error e => simp [parsed, Except.toOption] at h
  | ok program =>
    cases lowers : (program.lower options).1 with
    | error d => simp [parsed, lowers, Except.toOption] at h
    | ok lowered =>
      exact ⟨program, lowered, rfl, lowers, by simpa [parsed, lowers, Except.toOption] using h⟩

end TypeGuard
