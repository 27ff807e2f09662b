import TypeGuard.Proofs.Lowering.Failures
import TypeGuard.Proofs.Lowering.Template

/-!
# What inserted references denote

Lowering refers to the library by a name of the module, if a statement of the module designates it,
and inserts this name wherever a type is checked or defined. It does not look at what the name means
there. `Program.uncaptured_iff` says when all inserted references denote the library: exactly if no
function of the program around such a place binds the name and, where the helper is injected, none
of the helper's parameters has it. The names that lowering adds capture nothing.
-/

namespace TypeGuard

/-- The name is bound in one of the frames. -/
def Binders.binds (b : Binders) (name : String) : Bool := b.any (·.contains name)

theorem Binders.binds_cons (frame : List String) (b : Binders) (name : String) :
    Binders.binds (frame :: b) name = (frame.contains name || b.binds name) := rfl

/-- The type at a site is built with the library. -/
def Site.usesLibrary (site : Site) : Bool :=
  match site.encode [] with
  | .ok d => d.usesLibrary
  | .error _ => false

/-- The types of a program, each with the names that functions of the program bind around the place
where it is emitted. -/
def Program.placements (options : Options) (program : Program) : List (Binders × Site) :=
  (program.occurrences options).map fun o => (o.binders, o.site)

/-- A reference to the library that is placed there denotes what a function of the program binds. -/
def Site.captured (name : String) (placed : Binders × Site) : Bool :=
  placed.2.usesLibrary && placed.1.binds name

/-! ## Holes and types -/

/-- A reference to the library in the type is captured in the part that is looked at, or by what
stands around that. -/
def Occurrence.captured (name : String) (around : Binders) (o : Occurrence) : Bool :=
  Site.captured name (o.binders ++ around, o.site)

theorem Occurrence.captured_within (name : String) (around : Binders) (own : List String)
    (signature : Signature Pattern Expr) (body : List Stmt) (o : Occurrence) :
    (o.within own signature body).captured name around
      = o.captured name (bodyBinders around own signature body) := by
  rw [Occurrence.within, Occurrence.captured, List.append_assoc]
  rfl

/-- Wherever the frames agree on the name, a hole captures it exactly if a type does. The frames in
a program and in what it is lowered to differ otherwise. -/
def CaptureAlike (name : String) (holes : Binders → List Binders)
    (occurrences : List Occurrence) : Prop :=
  ∀ b b' : Binders, b'.binds name = b.binds name →
    (holes b').any (·.binds name) = occurrences.any (Occurrence.captured name b)

/-- What is captured in a function that stays as it is. -/
theorem CaptureAlike.unchecked {options : Options} (skipped : options.skipAsserts = true)
    {name : String} {holes : Binders → List Binders} {occurrences : List Occurrence}
    (h : CaptureAlike name holes occurrences) (own : List String)
    (signature : Signature Pattern Expr) (loc : Location) {source core : List Stmt}
    (locals : Stmt.allLocalNames core = Stmt.allLocalNames source) :
    CaptureAlike name (fun b => holes (bodyBinders b own signature core))
      (signature.occurrences options loc own source occurrences) := by
  intro b b' same
  have around : (bodyBinders b' own signature core).binds name
      = (bodyBinders b own signature source).binds name := by
    simp only [bodyBinders, Binders.binds_cons, locals, same]
  rw [h _ _ around, Signature.occurrences, Signature.checkOccurrences, if_pos skipped,
    List.append_nil, List.any_map]
  simp only [Function.comp_def, Occurrence.captured_within]

section
variable {g : Setting} {name : String} {frames : Scope} {b : Binders}

theorem Site.usesLibrary_of_encode {site : Site} {d : Descriptor} (h : site.encode [] = .ok d) :
    site.usesLibrary = d.usesLibrary := by
  rw [Site.usesLibrary, h]

theorem Descriptor.any_holes_lower {d : Descriptor} (dotted : d.Dotted) (p : Binders → Bool) :
    ((d.lower .hole).holes b).any p = (d.usesLibrary && p b) := by
  rw [Bool.eq_iff_iff, List.any_eq_true, Bool.and_eq_true]
  constructor
  · rintro ⟨c, member, holds⟩
    obtain ⟨uses, rfl⟩ := (mem_holes_lower_iff dotted).1 member
    exact ⟨uses, holds⟩
  · rintro ⟨uses, holds⟩
    exact ⟨b, mem_holes_lower_self uses, holds⟩

/-- The value of an arrow function is returned where it is checked. -/
theorem Expr.allHoles_statements (b : Binders) (body : Body Stmt Expr) :
    Stmt.allHoles b (Instrument.statements body) = Expr.bodyHoles b body := by
  cases body with
  | block => rfl
  | expression value => exact List.append_nil _

namespace Setting

variable {signature : Signature Pattern Expr} {arrow : Bool} {checks core tail body : List Stmt}

/-- What is captured in a check is captured in its type. -/
theorem any_holes_check {site : Site} {d : Descriptor} {value : Expr} (label : String)
    (subject : value.Whole) (mapped : site.encode [] = .ok d) (p : Binders → Bool) :
    ((g.holed.check value d label).holes b).any p = (site.usesLibrary && p b) := by
  have inType := d.any_holes_lower (Site.encode_dotted mapped) (b := b) p
  rw [Site.usesLibrary_of_encode mapped, ← inType]
  simp [check, holed, Stmt.holes, Expr.holes, Expr.allHoles, subject.2]

theorem ArgumentChecks.any_holes {own : List String} {index : Nat}
    {params : List (Param Pattern Expr)}
    (h : g.holed.ArgumentChecks frames own arrow index params checks)
    (surface : Param.AllSurface params) (p : Binders → Bool) :
    (Stmt.allHoles b checks).any p
      = (params.filterMap (Param.site? own)).any fun site => site.usesLibrary && p b := by
  induction h with
  | nil => rfl
  | unchecked untyped _ ih =>
    rw [List.filterMap_cons, Param.site?, untyped]
    exact ih surface.2
  | @checked index _ _ _ _ d typed mapped _ _ ih =>
    have subject := Expr.whole_of_nodes _
      (Instrument.nodes_subject surface.1 index arrow : Expr.nodes .all [] _ = [])
    rw [Stmt.allHoles, List.any_append, any_holes_check _ subject mapped, ih surface.2,
      List.filterMap_cons, Param.site?, typed]
    rfl

/-- What is captured in a body with a checked result: that in the body itself, in its inner
function, and in the check. -/
theorem any_holes_checkedReturn {site : Site} {d : Descriptor}
    (surface : Param.AllSurface signature.params) (mapped : site.encode [] = .ok d)
    (result : String) (p : Binders → Bool) :
    (Stmt.allHoles b (g.holed.checkedReturn signature result d core)).any p
      = ((Stmt.allHoles (bodyBinders b []
            { params := Instrument.innerParams signature.params } core) core).any p
          || (site.usesLibrary && p b)) := by
  have forwarded := Expr.allWhole_of_nodes _
    (Instrument.allNodes_forwarded surface : Expr.allNodes .all [] _ = [])
  have inCheck := any_holes_check (g := g) (b := b) returnLabel
    (Expr.whole_of_nodes (.ident result) (rfl : Expr.nodes .all [] _ = [])) mapped p
  rw [← inCheck]
  simp [checkedReturn, Stmt.allHoles, Stmt.holes, Expr.holes, Expr.allHoles, forwarded.2, ownFrame]

section
variable {source : List Stmt} {occurrences : List Occurrence} (own : List String)

/-- What lowering adds to the names of a body is not one of the names that are reserved. -/
theorem Returns.contains_allLocalNames (h : g.holed.Returns frames signature core tail)
    (reserved : name ∈ g.reserved)
    (locals : Stmt.allLocalNames core = Stmt.allLocalNames source) :
    (Stmt.allLocalNames tail).contains name
      = (if signature.returnType.isSome then [] else Stmt.allLocalNames source).contains name := by
  unfold Returns at h
  split at h
  next unannotated => simp [h, locals, unannotated]
  next type annotated =>
    obtain ⟨ctx, d, taken, -, -, rfl⟩ := h
    have fresh := ctx.freshLocal_not_mem "ret" signature.boundNames
    rw [List.mem_append, not_or] at fresh
    have other : name ≠ ctx.freshLocal "ret" signature.boundNames := by
      rintro rfl
      exact fresh.1 (taken reserved)
    simpa [annotated, checkedReturn, check, Stmt.allLocalNames, Stmt.localNames,
      Pattern.boundNames] using other

theorem Returns.any_holes {c : Binders} (h : g.holed.Returns frames signature core tail)
    (surface : Param.AllSurface signature.params)
    (locals : Stmt.allLocalNames core = Stmt.allLocalNames source)
    (inside : CaptureAlike name (Stmt.allHoles · core) occurrences)
    (around : c.binds name = (signature.checkBinders b own source).binds name) :
    (Stmt.allHoles c tail).any (·.binds name)
      = (occurrences.any (Occurrence.captured name (bodyBinders b own signature source)) ||
          (signature.returnType.map (Site.result signature.typeParams)).toList.any
            fun site => site.usesLibrary && (signature.checkBinders b own source).binds name) := by
  unfold Returns at h
  split at h
  next unannotated =>
    have same : signature.checkBinders b own source = bodyBinders b own signature source := by
      simp [Signature.checkBinders, unannotated, bodyBinders]
    rw [h, inside _ _ (around.trans (congrArg (Binders.binds · name) same)), unannotated]
    simp
  next type annotated =>
    obtain ⟨ctx, d, taken, mapped, -, rfl⟩ := h
    have bound : Signature.boundNames { params := Instrument.innerParams signature.params }
        = signature.boundNames := Instrument.boundNames_innerParams _
    have inner : (bodyBinders c [] { params := Instrument.innerParams signature.params } core).binds
        name = (bodyBinders b own signature source).binds name := by
      simp only [bodyBinders, bound, locals, Binders.binds_cons, around, Signature.checkBinders,
        annotated]
      -- The inner function binds the parameters a second time.
      cases signature.boundNames.contains name <;> simp
    rw [any_holes_checkedReturn surface mapped, inside _ _ inner, annotated, around]
    simp

/-- What is captured in a function with its checks: that in its body, and in the checks. -/
theorem Guards.captureAlike (h : g.holed.Guards frames signature arrow core body)
    (asserted : ¬ g.options.skipAsserts = true) (surface : Param.AllSurface signature.params)
    (reserved : name ∈ g.reserved)
    (locals : Stmt.allLocalNames core = Stmt.allLocalNames source)
    (inside : CaptureAlike name (Stmt.allHoles · core) occurrences) (loc : Location) :
    CaptureAlike name (fun b => Stmt.allHoles (bodyBinders b own signature body) body)
      (signature.occurrences g.options loc own source occurrences) := by
  intro b b' same
  obtain ⟨checks, tail, checked, returned, rfl⟩ := h
  have around : (bodyBinders b' own signature (checks ++ tail)).binds name
      = (signature.checkBinders b own source).binds name := by
    have names := returned.contains_allLocalNames reserved locals
    simp only [bodyBinders, Signature.checkBinders, Binders.binds_cons, Stmt.allLocalNames_append,
      checked.allLocalNames_eq_nil, List.nil_append, names, same]
  have inChecks : (signature.checkOccurrences g.options loc own source).any
        (Occurrence.captured name b)
      = signature.encoded.any fun site =>
          site.usesLibrary && (signature.checkBinders b own source).binds name := by
    rw [Signature.checkOccurrences, if_neg asserted, List.any_map]
    rfl
  dsimp only
  rw [Stmt.allHoles_append, List.any_append, checked.any_holes surface,
    returned.any_holes own surface locals inside around, around, Bool.or_comm, Bool.or_assoc,
    Signature.occurrences, List.any_append, List.any_map, inChecks, Signature.encoded,
    List.any_append]
  simp only [Function.comp_def, Occurrence.captured_within]

theorem Bodies.captureAlike (h : g.holed.Bodies frames signature core body)
    (surface : Param.AllSurface signature.params) (reserved : name ∈ g.reserved)
    (locals : Stmt.allLocalNames core = Stmt.allLocalNames source)
    (inside : CaptureAlike name (Stmt.allHoles · core) occurrences) (loc : Location) :
    CaptureAlike name (fun b => Stmt.allHoles (bodyBinders b own signature body) body)
      (signature.occurrences g.options loc own source occurrences) := by
  unfold Bodies at h
  rw [options_holed] at h
  split at h
  next skipped =>
    rw [h]
    exact inside.unchecked skipped own signature loc locals
  next asserted => exact Guards.captureAlike own h asserted surface reserved locals inside loc

theorem ArrowBodies.captureAlike {source core body : Body Stmt Expr}
    (h : g.holed.ArrowBodies frames signature core body)
    (surface : Param.AllSurface signature.params) (reserved : name ∈ g.reserved)
    (locals : Stmt.allLocalNames (Instrument.statements core)
      = Stmt.allLocalNames (Instrument.statements source))
    (inside : CaptureAlike name (Expr.bodyHoles · core) occurrences) (loc : Location) :
    CaptureAlike name
      (fun b => Expr.bodyHoles (bodyBinders b own signature (Instrument.statements body)) body)
      (signature.occurrences g.options loc own (Instrument.statements source) occurrences) := by
  unfold ArrowBodies at h
  rw [options_holed] at h
  split at h
  next skipped =>
    rw [h]
    exact inside.unchecked skipped own signature loc locals
  next asserted =>
    obtain ⟨stmts, guards, rfl⟩ := h
    have returned :
        CaptureAlike name (Stmt.allHoles · (Instrument.statements core)) occurrences := by
      simpa only [Expr.allHoles_statements] using inside
    exact guards.captureAlike own asserted surface reserved locals returned loc

end

/-- What is captured in the validator of a declaration. -/
theorem Defines.captureAlike {site : Site} {declared : String} {loc : Location} {s : Stmt}
    (h : g.holed.Defines frames site declared loc s) :
    CaptureAlike name (Stmt.holes · s) [{ loc, site }] := by
  intro b b' same
  obtain ⟨d, mapped, -, rfl⟩ := h
  have inType := d.any_holes_lower (Site.encode_dotted mapped) (b := b') (·.binds name)
  rw [← Site.usesLibrary_of_encode mapped, same] at inType
  rw [List.any_cons, List.any_nil, Bool.or_false]
  exact inType

end Setting

end

theorem Expr.allLocalNames_of_bodyLowers {g : Setting} {frames : Scope} :
    ∀ (body : Body Stmt Expr) {body' : Body Stmt Expr}, Expr.BodyLowers g frames body body' →
      Stmt.allLocalNames (Instrument.statements body')
        = Stmt.allLocalNames (Instrument.statements body)
  | .block stmts, _, ⟨_, lowered, h⟩ => by
    rw [h]
    exact Stmt.allLocalNames_of_allLower stmts lowered
  | .expression _, _, ⟨_, _, h⟩ => by
    rw [h]
    rfl

section
variable {g : Setting} {name : String}

mutual

theorem Expr.captureAlike (reserved : name ∈ g.reserved) : ∀ (e : Expr) {template : Expr}
    {frames : Scope}, Expr.Lowers g.holed frames e template → e.Surface →
      CaptureAlike name (Expr.holes · template) (e.occurrences g.options)
  | .function ⟨params, _, _⟩ body _ _, _, _, ⟨_, _, lowered, bodies, h⟩, surface => by
    rw [h]
    exact bodies.captureAlike _ surface.1 reserved (Stmt.allLocalNames_of_allLower body lowered)
      (Stmt.allCaptureAlike reserved body lowered surface.2) _
  | .arrow ⟨params, _, _⟩ body _, _, _, ⟨_, _, lowered, bodies, h⟩, surface => by
    rw [h]
    exact bodies.captureAlike _ surface.1 reserved (Expr.allLocalNames_of_bodyLowers body lowered)
      (Expr.bodyCaptureAlike reserved body lowered surface.2) _
  | .call _ _, _, _, ⟨_, _, callee, args, h⟩, ⟨_, surface⟩ => by
    cases surface
    obtain rfl := callee
    obtain ⟨_, _, rfl, rfl, rfl⟩ := args
    rw [h]
    exact fun _ _ _ => rfl
  | .raw _, _, _, h, _ | .ident _, _, _, h, _ | .number _, _, _, h, _ => by
    rw [h]
    exact fun _ _ _ => rfl
  | .this, _, _, _, surface | .member _ _, _, _, _, surface | .string _, _, _, _, surface
  | .array _, _, _, _, surface | .object _, _, _, _, surface | .spread _, _, _, _, surface
  | .binary _ _ _, _, _, _, surface | .stray _, _, _, _, surface => surface.elim
termination_by structural e => e

theorem Expr.bodyCaptureAlike (reserved : name ∈ g.reserved) : ∀ (body : Body Stmt Expr)
    {template : Body Stmt Expr} {frames : Scope}, Expr.BodyLowers g.holed frames body template →
      Expr.BodySurface body →
      CaptureAlike name (Expr.bodyHoles · template) (Expr.bodyOccurrences g.options body)
  | .block stmts, _, _, ⟨_, lowered, h⟩, surface => by
    rw [h]
    exact Stmt.allCaptureAlike reserved stmts lowered surface
  | .expression value, _, _, ⟨_, lowered, h⟩, surface => by
    rw [h]
    exact Expr.captureAlike reserved value lowered surface
termination_by structural body => body

theorem Stmt.captureAlike (reserved : name ∈ g.reserved) : ∀ (s : Stmt) {template : Stmt}
    {frames : Scope}, Stmt.Lowers g.holed frames s template → s.Surface →
      CaptureAlike name (Stmt.holes · template) (s.occurrences g.options)
  | .typeAlias _, _, _, h, _ | .interface _, _, _, h, _ => Setting.Defines.captureAlike h
  | .function _ ⟨params, _, _⟩ body _, _, _, ⟨_, _, lowered, bodies, h⟩, surface => by
    rw [h]
    exact bodies.captureAlike _ surface.1 reserved (Stmt.allLocalNames_of_allLower body lowered)
      (Stmt.allCaptureAlike reserved body lowered surface.2) _
  | .var _ _ (some init) _, _, _, ⟨_, lowered, h⟩, surface => by
    rw [h]
    exact Expr.captureAlike reserved init lowered surface.2
  | .exports declaration _, _, _, ⟨_, lowered, h⟩, surface => by
    have inside := Stmt.captureAlike reserved declaration lowered surface
    rw [h]
    exact inside
  | .ret (some argument), _, _, ⟨_, lowered, h⟩, surface => by
    rw [h]
    exact Expr.captureAlike reserved argument lowered surface
  | .var _ _ none _, _, _, h, _ | .ret none, _, _, h, _ | .raw _, _, _, h, _
  | .imports _, _, _, h, _ => by
    rw [h]
    exact fun _ _ _ => rfl
  | .block _, _, _, _, surface | .expr _, _, _, _, surface | .stray _, _, _, _, surface =>
    surface.elim
termination_by structural s => s

theorem Stmt.allCaptureAlike (reserved : name ∈ g.reserved) : ∀ (ss : List Stmt)
    {template : List Stmt} {frames : Scope}, Stmt.AllLower g.holed frames ss template →
      Stmt.AllSurface ss →
      CaptureAlike name (Stmt.allHoles · template) (Stmt.allOccurrences g.options ss)
  | [], _, _, h, _ => by
    rw [h]
    exact fun _ _ _ => rfl
  | s :: ss, _, _, ⟨_, _, first, others, h⟩, surface => by
    intro b b' same
    dsimp only
    rw [h, Stmt.allHoles, Stmt.allOccurrences, List.any_append, List.any_append,
      Stmt.captureAlike reserved s first surface.1 b b' same,
      Stmt.allCaptureAlike reserved ss others surface.2 b b' same]
termination_by structural ss => ss

end

end

/-! ## The name of the library -/

/-- The name that a reference starts with. -/
def Expr.root? : Expr → Option String
  | .ident name => some name
  | .member base _ => Expr.root? base
  | _ => none

theorem exportBinding?_mem {name : String} {fields : List (PatternField Pattern)}
    (h : exportBinding? fields = some name) : name ∈ Pattern.fieldNames fields := by
  fun_induction exportBinding? fields with
  | case1 => cases h
  | case2 name' fields =>
    cases h
    exact List.mem_append_left _ (List.mem_singleton_self name)
  | case3 _ _ _ _ ih => exact List.mem_append_right _ (ih h)
  | case4 _ name' =>
    cases h
    exact List.mem_append_left _ (List.mem_singleton_self name)
  | case5 _ _ _ _ _ ih => exact List.mem_append_right _ (ih h)
  | case6 _ _ _ _ ih => exact List.mem_append_right _ (ih h)

/-- A statement that designates the library binds the name of the reference. -/
theorem Stmt.root_library? {s : Stmt} {found : LibraryBinding} (h : s.library? = some found) :
    ∃ name ∈ s.localNames, found.expression.root? = some name := by
  unfold Stmt.library? at h
  split at h
  next decl =>
    unfold ImportDecl.library? at h
    split at h
    · obtain ⟨specifier, chosen, rfl⟩ := Option.map_eq_some_iff.1 h
      exact ⟨_, List.mem_map_of_mem (List.mem_of_find?_eq_some chosen), rfl⟩
    · cases h
  next target _ _ =>
    split at h
    · split at h
      · unfold Pattern.library? at h
        split at h
        next name =>
          cases h
          refine ⟨name, List.mem_singleton_self name, ?_⟩
          dsimp only
          split <;> rfl
        · obtain ⟨name, exported, rfl⟩ := Option.map_eq_some_iff.1 h
          exact ⟨name, List.mem_append_left _ (exportBinding?_mem exported), rfl⟩
        · cases h
      · cases h
    · cases h
  · cases h

theorem Stmt.root_settles {options : Options} {name : String} : ∀ (s : Stmt)
    {found : LibraryBinding}, s.settles options true = some found →
      found.expression.root? = some name → name ∈ s.localNames
  | .exports declaration _, _, h, named => Stmt.root_settles declaration h named
  | .typeAlias _, _, h, named | .interface _, _, h, named | .function _ _ _ _, _, h, named
  | .imports _, _, h, named | .var _ _ _ _, _, h, named | .ret _, _, h, named
  | .expr _, _, h, named | .block _, _, h, named | .raw _, _, h, named | .stray _, _, h, named => by
    obtain designated | ⟨-, needed⟩ := Option.or_eq_some_iff.1 h
    · rw [if_pos rfl] at designated
      obtain ⟨name', member, named'⟩ := Stmt.root_library? designated
      obtain rfl : name' = name := Option.some.inj (named'.symm.trans named)
      exact member
    · rw [LibraryBinding.eq_standard_of_neededFor needed] at named
      cases named

theorem Stmt.localNames_subset_allLocalNames {s : Stmt} : ∀ {ss : List Stmt}, s ∈ ss →
    s.localNames ⊆ Stmt.allLocalNames ss
  | _ :: _, member => by
    obtain rfl | member := List.mem_cons.1 member
    · exact List.subset_append_left _ _
    · exact fun _ inside =>
        List.mem_append_right _ (Stmt.localNames_subset_allLocalNames member inside)

/-- A reference that starts with a name starts with a name of the module. -/
theorem Program.root_libraryReference {options : Options} {program : Program} {name : String}
    (named : (program.libraryReference options).root? = some name) :
    name ∈ Stmt.allLocalNames program.body := by
  unfold Program.libraryReference at named
  cases found : program.body.findSome? (Stmt.settles options true) with
  | none =>
    rw [found] at named
    cases named
  | some binding =>
    rw [found] at named
    obtain ⟨s, member, settled⟩ := List.exists_of_findSome?_eq_some found
    exact Stmt.localNames_subset_allLocalNames member (Stmt.root_settles s settled named)

/-! ## The helper -/

namespace Script

/-- The parameters of the assertion helper. -/
def helperParams : List String := ["x", "type", "name"]

/-- The first line of the assertion helper. -/
def helperHeader (name : String) : String :=
  "function " ++ name ++ "(" ++ ", ".intercalate helperParams ++ ") " ++ openBrace

theorem exists_helperText (name reference : String) :
    ∃ body, helperText name reference
      = (Layout.wrap (helperHeader name) closeBrace body {}).text := by
  have params : "(" ++ ", ".intercalate helperParams ++ ") " = "(x, type, name)" ++ " " := by decide
  have grouped (front inner : String) : front ++ "(" ++ inner ++ ") " ++ openBrace
      = front ++ ("(" ++ inner ++ ") ") ++ openBrace := by
    simp only [String.append_assoc]
  have header : helperHeader name = "function " ++ name ++ "(x, type, name)" ++ " " ++ openBrace :=
    calc helperHeader name
      _ = "function " ++ name ++ ("(" ++ ", ".intercalate helperParams ++ ") ") ++ openBrace :=
        grouped _ _
      _ = "function " ++ name ++ ("(x, type, name)" ++ " ") ++ openBrace := by rw [params]
      _ = _ := by rw [← String.append_assoc]
  rw [header]
  exact ⟨_, rfl⟩

end Script

/-! ## Programs -/

/-- The inserted references, each as the frames of the functions around it: those in the text of the
helper, and the holes of the template. -/
def Setting.references (g : Setting) (template : List Stmt) : List Binders :=
  (if g.options.injectHelper then [[Script.helperParams]] else []) ++ Stmt.allHoles [] template

/-- All inserted references pass the functions around them and denote what the module binds. -/
def Setting.Uncaptured (g : Setting) (module : List String) (name : String)
    (template : List Stmt) : Prop :=
  ∀ b ∈ g.references template, Binders.resolve (b ++ [module]) name = some b.length

theorem Binders.resolve_append_iff {b : Binders} {module : List String} {name : String}
    (bound : name ∈ module) :
    Binders.resolve (b ++ [module]) name = some b.length ↔ b.binds name = false := by
  have captured : (b.findIdx? (·.contains name)).isSome = b.binds name := List.findIdx?_isSome
  rw [← captured, Binders.resolve, List.findIdx?_append]
  cases found : b.findIdx? (·.contains name) with
  | none => simp [List.findIdx?_cons, bound]
  | some i =>
    have inside : i < b.length := (List.findIdx?_eq_some_iff_getElem.1 found).1
    simpa using Nat.ne_of_lt inside

theorem Binders.binds_eq_false_iff {b : Binders} {name : String} :
    b.binds name = false ↔ ∀ frame ∈ b, name ∉ frame := by
  simp [Binders.binds, List.any_eq_false]

theorem Setting.forall_references_iff {g : Setting} {template : List Stmt} {name : String} :
    (∀ b ∈ g.references template, b.binds name = false) ↔
      (g.options.injectHelper = true → name ∉ Script.helperParams) ∧
        (Stmt.allHoles [] template).any (·.binds name) = false := by
  rw [List.any_eq_false]
  simp only [Bool.not_eq_true, Setting.references, List.forall_mem_append]
  refine and_congr_left' ?_
  split <;> simp_all [Binders.binds]

theorem Site.forall_captured_iff {placements : List (Binders × Site)} {name : String} :
    placements.any (Site.captured name) = false ↔
      ∀ p ∈ placements, p.2.usesLibrary = true → ∀ frame ∈ p.1, name ∉ frame := by
  rw [List.any_eq_false]
  refine forall₂_congr fun p _ => ?_
  rw [Site.captured, Bool.and_eq_true, not_and, Bool.not_eq_true, Binders.binds_eq_false_iff]

theorem Setting.Template.header {g : Setting} {program lowered : Program} {template : List Stmt}
    (h : g.Template program lowered template) (injected : g.options.injectHelper = true) :
    ∃ body, lowered.body.head? = some (.raw
      (Script.Layout.wrap (Script.helperHeader g.helper) Script.closeBrace body {}).text) := by
  have filled := h.filled
  rw [if_pos injected] at filled
  obtain ⟨text, printed, same⟩ := filled
  unfold Script.assertHelper at printed
  obtain ⟨reference, -, written⟩ := bind_eq_ok_iff.1 printed
  obtain rfl := pure_eq_ok_iff.1 written
  obtain ⟨body, helper⟩ := Script.exists_helperText g.helper reference
  rw [same, helper]
  exact ⟨body, rfl⟩

section
variable {options : Options} {file source name : String} {program lowered : Program}

theorem Program.mem_moduleNames (parsed : Program.parse file source = .ok program)
    (h : (program.lower options).1 = .ok lowered)
    (named : (program.libraryReference options).root? = some name) :
    name ∈ (program.setting options).moduleNames lowered := by
  have lowers := Program.lowers_setting h
  refine List.mem_append_right _ ?_
  rw [(Program.body_of_lowers lowers (Program.parse_surface parsed)).1]
  exact Program.root_libraryReference named

theorem Setting.Template.uncaptured_iff_any {template : List Stmt}
    (h : (program.setting options).Template program lowered template)
    (parsed : Program.parse file source = .ok program)
    (named : (program.libraryReference options).root? = some name) {module : List String}
    (bound : name ∈ module) :
    (program.setting options).Uncaptured module name template ↔
      (options.injectHelper = true → name ∉ Script.helperParams) ∧
        (program.placements options).any (Site.captured name) = false := by
  have reserved : name ∈ (program.setting options).reserved :=
    Stmt.allLocalNames_subset program.body (Program.root_libraryReference named)
  have same := Stmt.allCaptureAlike reserved program.body h.lowers (Program.parse_surface parsed)
    [] [] rfl
  have placed : (program.placements options).any (Site.captured name)
      = (program.occurrences options).any (Occurrence.captured name []) := by
    have alone (o : Occurrence) :
        o.captured name [] = Site.captured name (o.binders, o.site) := by
      rw [Occurrence.captured, List.append_nil]
    simp only [Program.placements, List.any_map, Function.comp_def, ← alone]
  unfold Setting.Uncaptured
  simp only [Binders.resolve_append_iff bound]
  rw [Setting.forall_references_iff, same, placed]
  exact .rfl

/-- If the reference to the library goes by a name, the module binds that name, and what is inserted
denotes the library exactly if nothing of the program stands in between: no function around a type
that is built with the library binds the name, as its own, as a parameter or as a declaration of its
body, and the helper, if there is one, has no such parameter. The declarations of a body do not
count for the checks of a function whose result is checked, since its body is moved into an inner
function. No name that lowering adds captures a reference. -/
theorem Program.uncaptured_iff (parsed : Program.parse file source = .ok program)
    (h : (program.lower options).1 = .ok lowered)
    (named : (program.libraryReference options).root? = some name) :
    name ∈ (program.setting options).moduleNames lowered ∧
    (options.injectHelper = true → ∃ body, lowered.body.head? = some
      (.raw (Script.Layout.wrap (Script.helperHeader (program.setting options).helper)
        Script.closeBrace body {}).text)) ∧
    (∃ template, (program.setting options).Template program lowered template) ∧
    ∀ template, (program.setting options).Template program lowered template →
      ((program.setting options).Uncaptured ((program.setting options).moduleNames lowered) name
          template ↔
        (options.injectHelper = true → name ∉ Script.helperParams) ∧
        ∀ p ∈ program.placements options, p.2.usesLibrary = true →
          ∀ frame ∈ p.1, name ∉ frame) := by
  have bound := Program.mem_moduleNames parsed h named
  obtain ⟨template, filled⟩ :=
    Program.exists_template (Program.lowers_setting h) (Program.parse_surface parsed)
  refine ⟨bound, filled.header, ⟨template, filled⟩, fun template filled => ?_⟩
  rw [filled.uncaptured_iff_any parsed named bound, Site.forall_captured_iff]

end

/-- A function that checks its argument and its result and declares the name of the library for
itself. -/
def localLibraryName : String :=
  "(program (import \"tcomb\" (default t)) (function f ((param x number)) (returns number)"
    ++ " (body (const t 1) (return x))))"

theorem localLibraryName_uncaptured :
    ∃ program lowered template, Program.parse "m.js" localLibraryName = .ok program ∧
      (program.lower {}).1 = .ok lowered ∧
      (program.setting {}).Template program lowered template ∧
      (program.setting {}).Uncaptured ((program.setting {}).moduleNames lowered) "t" template := by
  have run : (lowerSource? {} "m.js" localLibraryName).map
      (fun (program, _) => ((program.libraryReference {}).root?,
        (program.placements {}).any (Site.captured "t"))) = some (some "t", false) := by
    decide +kernel
  obtain ⟨program, lowered, parsed, h, found⟩ := exists_of_lowerSource? run
  obtain ⟨named, free⟩ := Prod.mk.inj found
  obtain ⟨-, -, ⟨template, filled⟩, captures⟩ := Program.uncaptured_iff parsed h named
  exact ⟨program, lowered, template, parsed, h, filled,
    (captures template filled).2 ⟨fun _ => by decide, Site.forall_captured_iff.1 free⟩⟩

/-- A function with a parameter that has the name of the library. -/
def shadowedLibraryName : String :=
  "(program (import \"tcomb\" (default t)) (function f ((param t number)) (body)))"

theorem shadowedLibraryName_captured :
    (compile { skipHelpers := true } "m.js" shadowedLibraryName).result.toOption
        = some ("import t from \"tcomb\";\nfunction f(t) \x7b\n"
          ++ "    _assert(t, t.Number, \"t\");\n\x7d\n") ∧
    ∃ program lowered template, Program.parse "m.js" shadowedLibraryName = .ok program ∧
      (program.lower { skipHelpers := true }).1 = .ok lowered ∧
      (program.libraryReference { skipHelpers := true }).root? = some "t" ∧
      (program.setting { skipHelpers := true }).Template program lowered template ∧
      ¬ (program.setting { skipHelpers := true }).Uncaptured
          ((program.setting { skipHelpers := true }).moduleNames lowered) "t" template := by
  refine ⟨by decide +kernel, ?_⟩
  have run : (lowerSource? { skipHelpers := true } "m.js" shadowedLibraryName).map
      (fun (program, _) => ((program.libraryReference { skipHelpers := true }).root?,
        (program.placements { skipHelpers := true }).any (Site.captured "t")))
        = some (some "t", true) := by
    decide +kernel
  obtain ⟨program, lowered, parsed, h, found⟩ := exists_of_lowerSource? run
  obtain ⟨named, captured⟩ := Prod.mk.inj found
  obtain ⟨template, filled⟩ :=
    Program.exists_template (Program.lowers_setting h) (Program.parse_surface parsed)
  refine ⟨program, lowered, template, parsed, h, named, filled, fun uncaptured => ?_⟩
  have bound := Program.mem_moduleNames parsed h named
  have free := ((filled.uncaptured_iff_any parsed named bound).1 uncaptured).2
  rw [captured] at free
  cases free

end TypeGuard
