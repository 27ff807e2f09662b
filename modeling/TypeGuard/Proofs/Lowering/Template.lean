import TypeGuard.Proofs.Lowering.Hygiene

/-!
# Lowered programs as templates

Lowering inserts the reference to the library into a program at many places, and what it inserts
looks like any other name. A template is a lowered program with holes at these places.
`Program.exists_template` says that every lowered program is a template whose holes are filled with
the reference, so the references that lowering inserts are the holes of the template, and those in
the text of the helper.
-/

namespace TypeGuard

/-- A place for the reference to the library. No tree that is read has one. -/
def Expr.hole : Expr := .stray .nothing

section
variable (library : Expr)

mutual

/-- The expression with its holes filled. Default values have none. -/
def Expr.fill : Expr → Expr
  | .stray _ => library
  | .member object prop => .member (Expr.fill object) prop
  | .call callee args => .call (Expr.fill callee) (Expr.fillAll args)
  | .array elements => .array (Expr.fillAll elements)
  | .object entries => .object (Expr.fillEntries entries)
  | .spread argument => .spread (Expr.fill argument)
  | .binary op left right => .binary op (Expr.fill left) (Expr.fill right)
  | .function signature body name loc => .function signature (Stmt.fillAll body) name loc
  | .arrow signature body loc => .arrow signature (Expr.fillBody body) loc
  | e => e
termination_by structural e => e

def Expr.fillAll : List Expr → List Expr
  | [] => []
  | e :: es => Expr.fill e :: Expr.fillAll es
termination_by structural es => es

def Expr.fillEntries : List (Entry Expr) → List (Entry Expr)
  | [] => []
  | .pair key value :: entries => .pair key (Expr.fill value) :: Expr.fillEntries entries
  | .spread argument :: entries => .spread (Expr.fill argument) :: Expr.fillEntries entries
termination_by structural entries => entries

def Expr.fillBody : Body Stmt Expr → Body Stmt Expr
  | .block stmts => .block (Stmt.fillAll stmts)
  | .expression value => .expression (Expr.fill value)
termination_by structural body => body

/-- The statement with its holes filled. -/
def Stmt.fill : Stmt → Stmt
  | .block body => .block (Stmt.fillAll body)
  | .ret (some argument) => .ret (some (Expr.fill argument))
  | .expr expression => .expr (Expr.fill expression)
  | .var kind target (some init) loc => .var kind target (some (Expr.fill init)) loc
  | .function name signature body loc => .function name signature (Stmt.fillAll body) loc
  | .exports declaration loc => .exports (Stmt.fill declaration) loc
  | s => s
termination_by structural s => s

def Stmt.fillAll : List Stmt → List Stmt
  | [] => []
  | s :: ss => Stmt.fill s :: Stmt.fillAll ss
termination_by structural ss => ss

end

end

mutual

/-- The holes of an expression, each as the frames of the functions around it. -/
def Expr.holes : Binders → Expr → List Binders
  | b, .stray _ => [b]
  | b, .member object _ => Expr.holes b object
  | b, .call callee args => Expr.holes b callee ++ Expr.allHoles b args
  | b, .array elements => Expr.allHoles b elements
  | b, .object entries => Expr.entryHoles b entries
  | b, .spread argument => Expr.holes b argument
  | b, .binary _ left right => Expr.holes b left ++ Expr.holes b right
  | b, .function signature body name _ =>
    Stmt.allHoles (bodyBinders b (ownFrame name) signature body) body
  | b, .arrow signature body _ =>
    Expr.bodyHoles (bodyBinders b [] signature (Instrument.statements body)) body
  | _, _ => []
termination_by structural _ e => e

def Expr.allHoles : Binders → List Expr → List Binders
  | _, [] => []
  | b, e :: es => Expr.holes b e ++ Expr.allHoles b es
termination_by structural _ es => es

def Expr.entryHoles : Binders → List (Entry Expr) → List Binders
  | _, [] => []
  | b, .pair _ value :: entries => Expr.holes b value ++ Expr.entryHoles b entries
  | b, .spread argument :: entries => Expr.holes b argument ++ Expr.entryHoles b entries
termination_by structural _ entries => entries

def Expr.bodyHoles : Binders → Body Stmt Expr → List Binders
  | b, .block stmts => Stmt.allHoles b stmts
  | b, .expression value => Expr.holes b value
termination_by structural _ body => body

/-- The holes of a statement, each as the frames of the functions around it. -/
def Stmt.holes : Binders → Stmt → List Binders
  | b, .block body => Stmt.allHoles b body
  | b, .ret (some argument) => Expr.holes b argument
  | b, .expr expression => Expr.holes b expression
  | b, .var _ _ (some init) _ => Expr.holes b init
  | b, .function _ signature body _ => Stmt.allHoles (bodyBinders b [] signature body) body
  | b, .exports declaration _ => Stmt.holes b declaration
  | _, _ => []
termination_by structural _ s => s

def Stmt.allHoles : Binders → List Stmt → List Binders
  | _, [] => []
  | b, s :: ss => Stmt.holes b s ++ Stmt.allHoles b ss
termination_by structural _ ss => ss

end

/-! ## Trees without holes -/

/-- The expression has no holes. -/
def Expr.Whole (e : Expr) : Prop := (∀ library, Expr.fill library e = e) ∧ ∀ b, e.holes b = []

section
variable {reach : Reach} {b : Binders}

mutual

/-- An expression without functions and strays has no holes. -/
theorem Expr.whole_of_nodes : ∀ e : Expr, e.nodes reach b = [] → e.Whole
  | .raw _, _ | .ident _, _ | .this, _ | .string _, _ | .number _, _ =>
    ⟨fun _ => rfl, fun _ => rfl⟩
  | .member base prop, h => by
    have inBase := Expr.whole_of_nodes base h
    exact ⟨fun library => congrArg (Expr.member · prop) (inBase.1 library), inBase.2⟩
  | .call callee args, h => by
    obtain ⟨inCallee, inArgs⟩ := List.append_eq_nil_iff.1 h
    have first := Expr.whole_of_nodes callee inCallee
    have others := Expr.allWhole_of_nodes args inArgs
    refine ⟨fun library => ?_, fun b => ?_⟩
    · rw [Expr.fill, first.1, others.1]
    · rw [Expr.holes, first.2, others.2, List.append_nil]
  | .array elements, h => by
    have inside := Expr.allWhole_of_nodes elements h
    exact ⟨fun library => congrArg Expr.array (inside.1 library), inside.2⟩
  | .object entries, h => by
    have inside := Expr.entriesWhole_of_nodes entries h
    exact ⟨fun library => congrArg Expr.object (inside.1 library), inside.2⟩
  | .spread argument, h => by
    have inside := Expr.whole_of_nodes argument h
    exact ⟨fun library => congrArg Expr.spread (inside.1 library), inside.2⟩
  | .binary op left right, h => by
    obtain ⟨inLeft, inRight⟩ := List.append_eq_nil_iff.1 h
    have first := Expr.whole_of_nodes left inLeft
    have second := Expr.whole_of_nodes right inRight
    refine ⟨fun library => ?_, fun b => ?_⟩
    · rw [Expr.fill, first.1, second.1]
    · rw [Expr.holes, first.2, second.2, List.append_nil]
  | .function ⟨_, _, _⟩ _ _ _, h | .arrow ⟨_, _, _⟩ _ _, h | .stray _, h => nomatch h
termination_by structural e => e

theorem Expr.allWhole_of_nodes : ∀ es : List Expr, Expr.allNodes reach b es = [] →
    (∀ library, Expr.fillAll library es = es) ∧ ∀ b, Expr.allHoles b es = []
  | [], _ => ⟨fun _ => rfl, fun _ => rfl⟩
  | e :: es, h => by
    obtain ⟨inFirst, inOthers⟩ := List.append_eq_nil_iff.1 h
    have first := Expr.whole_of_nodes e inFirst
    have others := Expr.allWhole_of_nodes es inOthers
    refine ⟨fun library => ?_, fun b => ?_⟩
    · rw [Expr.fillAll, first.1, others.1]
    · rw [Expr.allHoles, first.2, others.2, List.append_nil]
termination_by structural es => es

theorem Expr.entriesWhole_of_nodes : ∀ entries : List (Entry Expr),
    Expr.entryNodes reach b entries = [] →
    (∀ library, Expr.fillEntries library entries = entries) ∧ ∀ b, Expr.entryHoles b entries = []
  | [], _ => ⟨fun _ => rfl, fun _ => rfl⟩
  | .pair _ value :: entries, h | .spread value :: entries, h => by
    obtain ⟨inFirst, inOthers⟩ := List.append_eq_nil_iff.1 h
    have first := Expr.whole_of_nodes value inFirst
    have others := Expr.entriesWhole_of_nodes entries inOthers
    refine ⟨fun library => ?_, fun b => ?_⟩
    · rw [Expr.fillEntries, first.1, others.1]
    · rw [Expr.entryHoles, first.2, others.2, List.append_nil]
termination_by structural entries => entries

end

end

theorem Expr.fillAll_append (library : Expr) (es es' : List Expr) :
    Expr.fillAll library (es ++ es') = Expr.fillAll library es ++ Expr.fillAll library es' := by
  induction es with
  | nil => rfl
  | cons e es ih => rw [List.cons_append, Expr.fillAll, ih, Expr.fillAll, List.cons_append]

theorem Expr.allHoles_append (b : Binders) (es es' : List Expr) :
    Expr.allHoles b (es ++ es') = Expr.allHoles b es ++ Expr.allHoles b es' := by
  induction es with
  | nil => rfl
  | cons e es ih =>
    rw [List.cons_append, Expr.allHoles, ih, Expr.allHoles, List.append_assoc]

theorem Stmt.fillAll_append (library : Expr) (ss ss' : List Stmt) :
    Stmt.fillAll library (ss ++ ss') = Stmt.fillAll library ss ++ Stmt.fillAll library ss' := by
  induction ss with
  | nil => rfl
  | cons s ss ih => rw [List.cons_append, Stmt.fillAll, ih, Stmt.fillAll, List.cons_append]

theorem Stmt.allHoles_append (b : Binders) (ss ss' : List Stmt) :
    Stmt.allHoles b (ss ++ ss') = Stmt.allHoles b ss ++ Stmt.allHoles b ss' := by
  induction ss with
  | nil => rfl
  | cons s ss ih =>
    rw [List.cons_append, Stmt.allHoles, ih, Stmt.allHoles, List.append_assoc]

/-! ## Types with holes -/

theorem Expr.fill_path (library : Expr) (path : List String) (e : Expr) :
    Expr.fill library (path.foldl .member e) = path.foldl .member (Expr.fill library e) := by
  induction path generalizing e with
  | nil => rfl
  | cons prop path ih => exact ih (.member e prop)

theorem Expr.holes_path (b : Binders) (path : List String) (e : Expr) :
    (path.foldl .member e).holes b = e.holes b := by
  induction path generalizing e with
  | nil => rfl
  | cons prop path ih => exact ih (.member e prop)

theorem Expr.whole_ofName (q : QualifiedName) : (Expr.ofName q).Whole :=
  Expr.whole_of_nodes _ (Expr.nodes_ofName q : Expr.nodes .all [] _ = [])

theorem Expr.allWhole_strings (values : List String) :
    (∀ library, Expr.fillAll library (values.map .string) = values.map .string) ∧
      ∀ b, Expr.allHoles b (values.map .string) = [] :=
  Expr.allWhole_of_nodes _ (Expr.allNodes_strings values : Expr.allNodes .all [] _ = [])

namespace Descriptor

/-- The descriptor's validator is built with the library: it is not just a name of the program. -/
def usesLibrary : Descriptor → Bool
  | .reference _ => false
  | _ => true

section
variable (library : Expr) (b : Binders) (path : List String) (args : List Expr)
  (name : Option String)

theorem fill_combine : Expr.fill library (combine .hole path args name)
    = combine library path (Expr.fillAll library args) name := by
  rw [combine, Expr.fill, Expr.fill_path, Expr.fillAll_append, (Expr.allWhole_strings _).1]
  rfl

theorem holes_combine :
    (combine .hole path args name).holes b = b :: Expr.allHoles b args := by
  rw [combine, Expr.holes, Expr.holes_path, Expr.allHoles_append, (Expr.allWhole_strings _).2,
    List.append_nil]
  rfl

end

mutual

theorem fill_lower (library : Expr) : ∀ d : Descriptor, d.Dotted →
    Expr.fill library (d.lower .hole) = d.lower library
  | .reference expr, dotted => by
    obtain ⟨q, rfl⟩ := dotted expr (List.mem_singleton_self expr)
    exact (Expr.whole_ofName q).1 library
  | .primitive _, _ => rfl
  | .list element _, dotted | .maybe element _, dotted => by
    rw [lower, lower, fill_combine, Expr.fillAll, fill_lower library element dotted, Expr.fillAll]
  | .tuple members _, dotted | .union members _, dotted | .intersection members _, dotted => by
    rw [lower, lower, fill_combine, Expr.fillAll, Expr.fill, fill_lowerAll library members dotted,
      Expr.fillAll]
  | .enums values _, _ => by
    rw [lower, lower, fill_combine, Expr.fillAll, Expr.fill, (Expr.allWhole_strings values).1,
      Expr.fillAll]
  | .dict domain codomain _, dotted => by
    have inDomain := fill_lower library domain fun e he => dotted e (List.mem_append_left _ he)
    have inCodomain := fill_lower library codomain fun e he => dotted e (List.mem_append_right _ he)
    rw [lower, lower, fill_combine, Expr.fillAll, Expr.fillAll, Expr.fillAll, inDomain, inCodomain]
  | .refinement base predicate _, dotted => by
    obtain ⟨q, rfl⟩ := dotted predicate (List.mem_append_right _ (List.mem_singleton_self _))
    have inBase := fill_lower library base fun e he => dotted e (List.mem_append_left _ he)
    rw [lower, lower, fill_combine, Expr.fillAll, Expr.fillAll, Expr.fillAll, inBase,
      (Expr.whole_ofName q).1]
  | .interface props _, dotted => by
    rw [lower, lower, fill_combine, Expr.fillAll, Expr.fill, fill_lowerProps library props dotted,
      Expr.fillAll]
  | .extend mixins props _, dotted => by
    have inMixins := fill_lowerAll library mixins fun e he => dotted e (List.mem_append_left _ he)
    have inProps := fill_lower library props fun e he => dotted e (List.mem_append_right _ he)
    rw [lower, lower, fill_combine, Expr.fillAll, Expr.fill, Expr.fillAll_append, inMixins,
      Expr.fillAll, Expr.fillAll, inProps, Expr.fillAll]
  | .literal _ _, _ => by
    rw [lower, lower, fill_combine]
    rfl
termination_by structural d => d

theorem fill_lowerAll (library : Expr) : ∀ ds : List Descriptor,
    (∀ e ∈ allExpressions ds, ∃ q, e = .ofName q) →
    Expr.fillAll library (lowerAll .hole ds) = lowerAll library ds
  | [], _ => rfl
  | d :: ds, dotted => by
    have first := fill_lower library d fun e he => dotted e (List.mem_append_left _ he)
    have others := fill_lowerAll library ds fun e he => dotted e (List.mem_append_right _ he)
    rw [lowerAll, lowerAll, Expr.fillAll, first, others]
termination_by structural ds => ds

theorem fill_lowerProps (library : Expr) : ∀ props : List (String × Descriptor),
    (∀ e ∈ propExpressions props, ∃ q, e = .ofName q) →
    Expr.fillEntries library (lowerProps .hole props) = lowerProps library props
  | [], _ => rfl
  | (_, d) :: props, dotted => by
    have first := fill_lower library d fun e he => dotted e (List.mem_append_left _ he)
    have others := fill_lowerProps library props fun e he => dotted e (List.mem_append_right _ he)
    rw [lowerProps, lowerProps, Expr.fillEntries, first, others]
termination_by structural props => props

end

section
variable {b : Binders}

mutual

/-- All holes of a type stand where the type does: the functions in it have none. -/
theorem eq_of_mem_holes_lower : ∀ d : Descriptor, d.Dotted →
    ∀ c ∈ (d.lower .hole).holes b, c = b
  | .reference expr, dotted => by
    obtain ⟨q, rfl⟩ := dotted expr (List.mem_singleton_self expr)
    rw [lower, (Expr.whole_ofName q).2]
    simp
  | .primitive _, _ => by simp [lower, Expr.holes, Expr.hole]
  | .list element _, dotted | .maybe element _, dotted => by
    simpa [lower, holes_combine, Expr.allHoles] using eq_of_mem_holes_lower element dotted
  | .tuple members _, dotted | .union members _, dotted | .intersection members _, dotted => by
    simpa [lower, holes_combine, Expr.allHoles, Expr.holes]
      using eq_of_mem_holes_lowerAll members dotted
  | .enums values _, _ => by
    simp [lower, holes_combine, Expr.allHoles, Expr.holes, (Expr.allWhole_strings values).2]
  | .dict domain codomain _, dotted => by
    have inDomain := eq_of_mem_holes_lower domain fun e he => dotted e (List.mem_append_left _ he)
    have inCodomain :=
      eq_of_mem_holes_lower codomain fun e he => dotted e (List.mem_append_right _ he)
    simpa [lower, holes_combine, Expr.allHoles, or_imp, forall_and] using ⟨inDomain, inCodomain⟩
  | .refinement base predicate _, dotted => by
    obtain ⟨q, rfl⟩ := dotted predicate (List.mem_append_right _ (List.mem_singleton_self _))
    have inBase := eq_of_mem_holes_lower base fun e he => dotted e (List.mem_append_left _ he)
    simpa [lower, holes_combine, Expr.allHoles, (Expr.whole_ofName q).2] using inBase
  | .interface props _, dotted => by
    simpa [lower, holes_combine, Expr.allHoles, Expr.holes]
      using eq_of_mem_holes_lowerProps props dotted
  | .extend mixins props _, dotted => by
    have inMixins :=
      eq_of_mem_holes_lowerAll mixins fun e he => dotted e (List.mem_append_left _ he)
    have inProps := eq_of_mem_holes_lower props fun e he => dotted e (List.mem_append_right _ he)
    simpa [lower, holes_combine, Expr.allHoles, Expr.holes, Expr.allHoles_append, or_imp,
      forall_and] using ⟨inMixins, inProps⟩
  | .literal _ _, _ => by
    rw [lower, holes_combine]
    simp [Expr.allHoles, Expr.holes, Expr.hole, equalsPredicate, Stmt.allHoles, Stmt.holes]
termination_by structural d => d

theorem eq_of_mem_holes_lowerAll : ∀ ds : List Descriptor,
    (∀ e ∈ allExpressions ds, ∃ q, e = .ofName q) →
    ∀ c ∈ Expr.allHoles b (lowerAll .hole ds), c = b
  | [], _ => by simp [lowerAll, Expr.allHoles]
  | d :: ds, dotted => List.forall_mem_append.2
    ⟨eq_of_mem_holes_lower d fun e he => dotted e (List.mem_append_left _ he),
      eq_of_mem_holes_lowerAll ds fun e he => dotted e (List.mem_append_right _ he)⟩
termination_by structural ds => ds

theorem eq_of_mem_holes_lowerProps : ∀ props : List (String × Descriptor),
    (∀ e ∈ propExpressions props, ∃ q, e = .ofName q) →
    ∀ c ∈ Expr.entryHoles b (lowerProps .hole props), c = b
  | [], _ => by simp [lowerProps, Expr.entryHoles]
  | (_, d) :: props, dotted => List.forall_mem_append.2
    ⟨eq_of_mem_holes_lower d fun e he => dotted e (List.mem_append_left _ he),
      eq_of_mem_holes_lowerProps props fun e he => dotted e (List.mem_append_right _ he)⟩
termination_by structural props => props

end

theorem mem_holes_lower_self {d : Descriptor} (uses : d.usesLibrary = true) :
    b ∈ (d.lower .hole).holes b := by
  cases d with
  | reference => cases uses
  | primitive => exact List.mem_singleton_self b
  | list | maybe | tuple | union | enums | dict | refinement | intersection | interface | extend
  | literal =>
    rw [lower, holes_combine]
    exact List.mem_cons_self

/-- A type has holes exactly if it uses the library. -/
theorem mem_holes_lower_iff {d : Descriptor} (dotted : d.Dotted) {c : Binders} :
    c ∈ (d.lower .hole).holes b ↔ d.usesLibrary = true ∧ c = b := by
  constructor
  · intro member
    refine ⟨?_, eq_of_mem_holes_lower d dotted c member⟩
    cases d with
    | reference expr =>
      obtain ⟨q, rfl⟩ := dotted expr (List.mem_singleton_self expr)
      rw [lower, (Expr.whole_ofName q).2] at member
      cases member
    | primitive | list | maybe | tuple | union | enums | dict | refinement | intersection
    | interface | extend | literal => rfl
  · rintro ⟨uses, rfl⟩
    exact mem_holes_lower_self uses

end

end Descriptor

/-! ## Lowered programs -/

namespace Setting

/-- The setting with a hole for the library. -/
def holed (g : Setting) : Setting := { g with library := .hole }

theorem options_holed (g : Setting) : g.holed.options = g.options := rfl

variable {g : Setting} {frames : Scope} {signature : Signature Pattern Expr} {arrow : Bool}
  {checks core tail body : List Stmt}

theorem fill_check {value : Expr} {d : Descriptor} (label : String) (subject : value.Whole)
    (dotted : d.Dotted) :
    Stmt.fill g.library (g.holed.check value d label) = g.check value d label := by
  have inType := d.fill_lower g.library dotted
  simp only [check, holed, Stmt.fill, Expr.fill, Expr.fillAll, subject.1, inType]

theorem ArgumentChecks.exists_template {own : List String} {index : Nat}
    {params : List (Param Pattern Expr)}
    (h : g.ArgumentChecks frames own arrow index params checks)
    (surface : Param.AllSurface params) :
    ∃ template, g.holed.ArgumentChecks frames own arrow index params template ∧
      Stmt.fillAll g.library template = checks := by
  induction h with
  | nil index => exact ⟨[], .nil index, rfl⟩
  | unchecked untyped _ ih =>
    obtain ⟨template, checked, rfl⟩ := ih surface.2
    exact ⟨template, .unchecked untyped checked, rfl⟩
  | @checked index _ _ _ _ d typed mapped emitted _ ih =>
    obtain ⟨template, checked, rfl⟩ := ih surface.2
    have subject := Expr.whole_of_nodes _
      (Instrument.nodes_subject surface.1 index arrow : Expr.nodes .all [] _ = [])
    refine ⟨_, .checked typed mapped emitted checked, ?_⟩
    rw [Stmt.fillAll, fill_check _ subject (Site.encode_dotted mapped)]

theorem Returns.exists_template {template : List Stmt}
    (h : g.Returns frames signature (Stmt.fillAll g.library template) tail)
    (surface : Param.AllSurface signature.params) :
    ∃ template', g.holed.Returns frames signature template template' ∧
      Stmt.fillAll g.library template' = tail := by
  unfold Returns at h ⊢
  split at h
  · exact ⟨template, rfl, h.symm⟩
  · obtain ⟨ctx, d, taken, mapped, emitted, rfl⟩ := h
    -- The template has the same name for the result, which does not depend on the library.
    refine ⟨_, ⟨ctx, d, taken, mapped, emitted, rfl⟩, ?_⟩
    have forwarded := Expr.allWhole_of_nodes _
      (Instrument.allNodes_forwarded surface : Expr.allNodes .all [] _ = [])
    have inCheck := fill_check (g := g) (d := d) returnLabel
      (Expr.whole_of_nodes (.ident (ctx.freshLocal "ret" signature.boundNames))
        (rfl : Expr.nodes .all [] _ = [])) (Site.encode_dotted mapped)
    simp only [checkedReturn, Stmt.fillAll, Stmt.fill, Expr.fill, Expr.fillAll, forwarded.1,
      inCheck]

theorem Guards.exists_template {template : List Stmt}
    (h : g.Guards frames signature arrow (Stmt.fillAll g.library template) body)
    (surface : Param.AllSurface signature.params) :
    ∃ template', g.holed.Guards frames signature arrow template template' ∧
      Stmt.fillAll g.library template' = body := by
  obtain ⟨checks, tail, checked, returned, rfl⟩ := h
  obtain ⟨checks', checked', rfl⟩ := checked.exists_template surface
  obtain ⟨tail', returned', rfl⟩ := returned.exists_template surface
  exact ⟨_, ⟨checks', tail', checked', returned', rfl⟩, Stmt.fillAll_append _ _ _⟩

theorem Bodies.exists_template {template : List Stmt}
    (h : g.Bodies frames signature (Stmt.fillAll g.library template) body)
    (surface : Param.AllSurface signature.params) :
    ∃ template', g.holed.Bodies frames signature template template' ∧
      Stmt.fillAll g.library template' = body := by
  unfold Bodies at h ⊢
  rw [options_holed]
  by_cases skipped : g.options.skipAsserts = true
  · simp only [if_pos skipped] at h ⊢
    exact ⟨template, rfl, h.symm⟩
  · simp only [if_neg skipped] at h ⊢
    exact h.exists_template surface

theorem ArrowBodies.exists_template {template body : Body Stmt Expr}
    (h : g.ArrowBodies frames signature (Expr.fillBody g.library template) body)
    (surface : Param.AllSurface signature.params) :
    ∃ template', g.holed.ArrowBodies frames signature template template' ∧
      Expr.fillBody g.library template' = body := by
  unfold ArrowBodies at h ⊢
  rw [options_holed]
  by_cases skipped : g.options.skipAsserts = true
  · simp only [if_pos skipped] at h ⊢
    exact ⟨template, rfl, h.symm⟩
  · simp only [if_neg skipped] at h ⊢
    obtain ⟨stmts, guards, rfl⟩ := h
    have statements : Instrument.statements (Expr.fillBody g.library template)
        = Stmt.fillAll g.library (Instrument.statements template) := by
      cases template <;> rfl
    rw [statements] at guards
    obtain ⟨stmts', guards', rfl⟩ := guards.exists_template surface
    exact ⟨.block stmts', ⟨stmts', guards', rfl⟩, rfl⟩

theorem Defines.exists_template {site : Site} {name : String} {loc : Location} {s : Stmt}
    (h : g.Defines frames site name loc s) :
    ∃ template, g.holed.Defines frames site name loc template ∧
      Stmt.fill g.library template = s := by
  obtain ⟨d, mapped, emitted, rfl⟩ := h
  refine ⟨_, ⟨d, mapped, emitted, rfl⟩, ?_⟩
  rw [Stmt.fill]
  exact congrArg (fun init => Stmt.var .const (.ident name) (some init) loc)
    (d.fill_lower g.library (Site.encode_dotted mapped))

end Setting

section
variable {g : Setting}

mutual

theorem Expr.exists_template : ∀ (e : Expr) {e' : Expr} {frames : Scope},
    Expr.Lowers g frames e e' → e.Surface →
      ∃ template, Expr.Lowers g.holed frames e template ∧ Expr.fill g.library template = e'
  | .function ⟨params, _, _⟩ body _ _, _, _, ⟨_, _, lowered, bodies, h⟩, surface => by
    obtain ⟨core, lowered', rfl⟩ := Stmt.exists_templates body lowered surface.2
    obtain ⟨body', bodies', rfl⟩ := bodies.exists_template surface.1
    exact ⟨_, ⟨core, body', lowered', bodies', rfl⟩, h.symm⟩
  | .arrow ⟨params, _, _⟩ body _, _, _, ⟨_, _, lowered, bodies, h⟩, surface => by
    obtain ⟨core, lowered', rfl⟩ := Expr.exists_bodyTemplate body lowered surface.2
    obtain ⟨body', bodies', rfl⟩ := bodies.exists_template surface.1
    exact ⟨_, ⟨core, body', lowered', bodies', rfl⟩, h.symm⟩
  | .call _ _, _, _, ⟨_, _, callee, args, h⟩, ⟨_, surface⟩ => by
    cases surface
    obtain rfl := callee
    obtain ⟨_, _, rfl, rfl, rfl⟩ := args
    exact ⟨_, ⟨_, _, rfl, ⟨_, _, rfl, rfl, rfl⟩, rfl⟩, h.symm⟩
  | .raw _, _, _, h, _ | .ident _, _, _, h, _ | .number _, _, _, h, _ => ⟨_, rfl, h.symm⟩
  | .this, _, _, _, surface | .member _ _, _, _, _, surface | .string _, _, _, _, surface
  | .array _, _, _, _, surface | .object _, _, _, _, surface | .spread _, _, _, _, surface
  | .binary _ _ _, _, _, _, surface | .stray _, _, _, _, surface => surface.elim
termination_by structural e => e

theorem Expr.exists_bodyTemplate : ∀ (body : Body Stmt Expr) {body' : Body Stmt Expr}
    {frames : Scope}, Expr.BodyLowers g frames body body' → Expr.BodySurface body →
      ∃ template, Expr.BodyLowers g.holed frames body template ∧
        Expr.fillBody g.library template = body'
  | .block stmts, _, _, ⟨_, lowered, h⟩, surface => by
    obtain ⟨template, lowered', rfl⟩ := Stmt.exists_templates stmts lowered surface
    exact ⟨_, ⟨template, lowered', rfl⟩, h.symm⟩
  | .expression value, _, _, ⟨_, lowered, h⟩, surface => by
    obtain ⟨template, lowered', rfl⟩ := Expr.exists_template value lowered surface
    exact ⟨_, ⟨template, lowered', rfl⟩, h.symm⟩
termination_by structural body => body

theorem Stmt.exists_template : ∀ (s : Stmt) {s' : Stmt} {frames : Scope},
    Stmt.Lowers g frames s s' → s.Surface →
      ∃ template, Stmt.Lowers g.holed frames s template ∧ Stmt.fill g.library template = s'
  | .typeAlias _, _, _, h, _ | .interface _, _, _, h, _ => Setting.Defines.exists_template h
  | .function _ ⟨params, _, _⟩ body _, _, _, ⟨_, _, lowered, bodies, h⟩, surface => by
    obtain ⟨core, lowered', rfl⟩ := Stmt.exists_templates body lowered surface.2
    obtain ⟨body', bodies', rfl⟩ := bodies.exists_template surface.1
    exact ⟨_, ⟨core, body', lowered', bodies', rfl⟩, h.symm⟩
  | .var _ _ (some init) _, _, _, ⟨_, lowered, h⟩, surface => by
    obtain ⟨template, lowered', rfl⟩ := Expr.exists_template init lowered surface.2
    exact ⟨_, ⟨template, lowered', rfl⟩, h.symm⟩
  | .exports declaration _, _, _, ⟨_, lowered, h⟩, surface => by
    obtain ⟨template, lowered', rfl⟩ := Stmt.exists_template declaration lowered surface
    exact ⟨_, ⟨template, lowered', rfl⟩, h.symm⟩
  | .ret (some argument), _, _, ⟨_, lowered, h⟩, surface => by
    obtain ⟨template, lowered', rfl⟩ := Expr.exists_template argument lowered surface
    exact ⟨_, ⟨template, lowered', rfl⟩, h.symm⟩
  | .var _ _ none _, _, _, h, _ | .ret none, _, _, h, _ | .raw _, _, _, h, _
  | .imports _, _, _, h, _ => ⟨_, rfl, h.symm⟩
  | .block _, _, _, _, surface | .expr _, _, _, _, surface | .stray _, _, _, _, surface =>
    surface.elim
termination_by structural s => s

theorem Stmt.exists_templates : ∀ (ss : List Stmt) {ss' : List Stmt} {frames : Scope},
    Stmt.AllLower g frames ss ss' → Stmt.AllSurface ss →
      ∃ template, Stmt.AllLower g.holed frames ss template ∧
        Stmt.fillAll g.library template = ss'
  | [], _, _, h, _ => ⟨[], rfl, h.symm⟩
  | s :: ss, _, _, ⟨_, _, first, others, h⟩, surface => by
    obtain ⟨template, first', rfl⟩ := Stmt.exists_template s first surface.1
    obtain ⟨templates, others', rfl⟩ := Stmt.exists_templates ss others surface.2
    exact ⟨_, ⟨template, templates, first', others', rfl⟩, h.symm⟩
termination_by structural ss => ss

end

end

/-- `template` is the lowered program with holes, without the helper in front. -/
structure Setting.Template (g : Setting) (program lowered : Program) (template : List Stmt) :
    Prop where
  lowers : Stmt.AllLower g.holed [] program.body template
  filled :
    if g.options.injectHelper then
      ∃ text, Script.assertHelper g.helper g.library = .ok text ∧
        lowered.body = .raw text :: Stmt.fillAll g.library template
    else lowered.body = Stmt.fillAll g.library template

/-- Every lowered program is a template whose holes are filled. -/
theorem Program.exists_template {g : Setting} {program lowered : Program}
    (h : program.Lowers g lowered) (surface : Stmt.AllSurface program.body) :
    ∃ template, g.Template program lowered template := by
  obtain ⟨-, body, statements, helper⟩ := h
  obtain ⟨template, lowers, rfl⟩ := Stmt.exists_templates program.body statements surface
  exact ⟨template, lowers, helper⟩

end TypeGuard
