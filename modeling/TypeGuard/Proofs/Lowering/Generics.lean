import TypeGuard.Proofs.Descriptor.Scope
import TypeGuard.Proofs.Lowering.Shape

/-!
# Type parameters in lowered programs

The type parameters of a function are visible in its body, so a type inside it may be expected to be
checked as if each of them were written `any`. Lowering does this for the parameters of the
declaration that the type belongs to, but not for those of the functions around it: bodies are
lowered before the scope of their function opens. So it does what is expected exactly for those
programs in which no type mentions a parameter of an outer function only.
-/

namespace TypeGuard

/-! ## The types of a site under the frames around it -/

theorem Ty.shape_eraseParams (scope : Scope) (type : Ty) :
    (type.eraseParams scope).shape.properties = Ty.eraseParamsProps scope type.shape.properties ∧
      (type.eraseParams scope).shape.indexers.isEmpty = type.shape.indexers.isEmpty := by
  cases type with
  | object shape =>
    obtain ⟨properties, indexers, loc⟩ := shape
    unfold Ty.eraseParams
    split <;> exact ⟨rfl, rfl⟩
  | named ref =>
    obtain ⟨id, args, loc⟩ := ref
    unfold Ty.eraseParams
    repeat' split
    all_goals exact ⟨rfl, rfl⟩
  | _ => exact ⟨rfl, rfl⟩

namespace Site

/-- The type parameters of the declaration that the site belongs to. -/
def own : Site → List String
  | .param own _ _ => own
  | .result own _ => own
  | .typeAlias decl => decl.typeParams
  | .interface decl => decl.typeParams

/-- The names that are looked up when the type at the site is encoded. The supertypes of an
interface stand for themselves. -/
def names : Site → List QualifiedName
  | .param _ type _ => type.names
  | .result _ type => type.names
  | .typeAlias decl => decl.right.names
  | .interface decl =>
    if decl.supertypes.isEmpty then decl.body.names
    else Ty.propNames decl.body.shape.properties

/-- The site with `any` in the place of each of the given type parameters. -/
def eraseParams (params : Scope) : Site → Site
  | .param _ type optional => .param [] (type.eraseParams params) optional
  | .result _ type => .result [] (type.eraseParams params)
  | .typeAlias decl =>
    .typeAlias { decl with right := decl.right.eraseParams params, typeParams := [] }
  | .interface decl =>
    .interface { decl with body := decl.body.eraseParams params, typeParams := [] }

theorem encode_eraseParams (frames : Scope) (site : Site) :
    (site.eraseParams (site.own :: frames)).encode [] = site.encode frames := by
  cases site with
  | param own type optional =>
    simp only [eraseParams, encode, Site.own, Instrument.paramDescriptor, Ty.descriptor_eraseParams]
  | result own type => exact Ty.descriptor_eraseParams _ _ _
  | typeAlias decl =>
    simp only [eraseParams, encode, Site.own, TypeAlias.descriptor, TypeAlias.descriptorIn,
      Ty.descriptor_eraseParams]
  | interface decl =>
    obtain ⟨properties, indexers⟩ := Ty.shape_eraseParams (decl.typeParams :: frames) decl.body
    simp only [eraseParams, encode, Site.own, InterfaceDecl.descriptor, InterfaceDecl.descriptorIn,
      properties, indexers, Ty.descriptor_eraseParams, Ty.props_eraseParamsProps]

theorem encode_congr {frames frames' : Scope} {site : Site}
    (h : ∀ id ∈ site.names,
      id.boundIn (site.own :: frames) = id.boundIn (site.own :: frames')) :
    site.encode frames = site.encode frames' := by
  cases site with
  | param own type optional =>
    have same : type.descriptor (own :: frames) none = type.descriptor (own :: frames') none :=
      Ty.descriptor_congr h none
    simp only [encode, Instrument.paramDescriptor, same]
  | result own type => exact Ty.descriptor_congr h none
  | typeAlias decl =>
    have same : decl.right.descriptor (decl.typeParams :: frames) (some decl.name)
        = decl.right.descriptor (decl.typeParams :: frames') (some decl.name) :=
      Ty.descriptor_congr h _
    simp only [encode, TypeAlias.descriptor, TypeAlias.descriptorIn, same]
  | interface decl =>
    simp only [encode, InterfaceDecl.descriptor, InterfaceDecl.descriptorIn]
    simp only [names] at h
    split
    · rfl
    split at h
    next none =>
      rw [if_pos none, if_pos none]
      exact Ty.descriptor_congr h _
    next some =>
      have same : Ty.props (decl.typeParams :: frames) decl.body.shape.properties
          = Ty.props (decl.typeParams :: frames') decl.body.shape.properties :=
        Ty.props_congr _ h
      rw [if_neg some, if_neg some, same]

/-- The names that the type at a site takes over as they stand. -/
def verbatim : Site → Nat
  | .interface decl => decl.supertypes.length
  | _ => 0

theorem length_supertypes {refs : List (TypeRef Ty)} {os : List Operand}
    (h : List.Forall₂ (fun ref o => ref.supertype = .ok o) refs os) :
    (Descriptor.allExpressions (Operand.types os)).length + (Operand.predicates os).length
      = refs.length := by
  induction h with
  | nil => rfl
  | @cons ref o _ _ first _ ih =>
    obtain ⟨-, _, _, -, rfl⟩ | ⟨-, rfl⟩ := TypeRef.supertype_eq_ok first
    · simp [Operand.types, Operand.predicates] at ih ⊢
      omega
    · simp [Operand.types, Operand.predicates, Descriptor.allExpressions, Descriptor.expressions]
        at ih ⊢
      omega

theorem length_expressions {frames : Scope} {site : Site} {d : Descriptor}
    (h : site.encode frames = .ok d) :
    d.expressions.length = site.verbatim + Ty.free (site.own :: frames) site.names := by
  cases site with
  | param own type optional =>
    simp only [encode, Instrument.paramDescriptor, bind_eq_ok_iff, pure_eq_ok_iff] at h
    obtain ⟨inner, mapped, rfl⟩ := h
    have count : inner.expressions.length = Ty.free (own :: frames) type.names :=
      Ty.descriptor_induction (Ty.free_rules _) mapped
    split <;> simpa [verbatim, names, Site.own, Descriptor.expressions] using count
  | result own type =>
    have count : d.expressions.length = Ty.free (own :: frames) type.names :=
      Ty.descriptor_induction (Ty.free_rules _) h
    simpa [verbatim, names, Site.own] using count
  | typeAlias decl =>
    have count : d.expressions.length = Ty.free (decl.typeParams :: frames) decl.right.names :=
      Ty.descriptor_induction (Ty.free_rules _) (TypeAlias.descriptor_eq_ok h)
    simpa [verbatim, names, Site.own] using count
  | interface decl =>
    obtain ⟨none, body⟩ | ⟨some, supertypes, props, each, hprops, rfl⟩ :=
      InterfaceDecl.descriptor_eq_ok h
    · have count : d.expressions.length = Ty.free (decl.typeParams :: frames) decl.body.names :=
        Ty.descriptor_induction (Ty.free_rules _) body
      simpa [verbatim, names, Site.own, none] using count
    · obtain ⟨ds, own, rfl⟩ := Ty.props_induction (Ty.free_rules _) _ hprops
      have taken := length_supertypes each
      have count := Ty.length_propExpressions own
      simp only [Descriptor.expressions, Descriptor.expressions_refine, List.length_append,
        verbatim, names, Site.own, List.isEmpty_iff, some, if_false]
      omega

/-- At a site the frames around its declaration can be left out exactly if each of their parameters
that is looked up is also a parameter of the declaration itself. -/
theorem encode_eq_ok_iff {frames : Scope} {site : Site} {d : Descriptor}
    (h : site.encode [] = .ok d) :
    site.encode frames = .ok d ↔
      ∀ id ∈ site.names, id.boundIn frames → id.boundIn [site.own] := by
  constructor
  · intro h'
    have lengths := (length_expressions h').symm.trans (length_expressions h)
    -- The names that are free under all frames are some of those that are free under none.
    have sub : List.Sublist (site.names.filter fun id => !id.boundIn (site.own :: frames))
        (site.names.filter fun id => !id.boundIn [site.own]) := by
      refine List.monotone_filter_right _ fun id free => ?_
      rw [QualifiedName.boundIn_cons] at free
      simp_all
    have same := sub.eq_of_length (by
      simpa [Ty.free, List.countP_eq_length_filter] using lengths)
    intro id member bound
    by_contra unbound
    have kept : id ∈ site.names.filter fun id => !id.boundIn [site.own] := by
      simpa [member] using unbound
    rw [← same, List.mem_filter, QualifiedName.boundIn_cons, bound] at kept
    simp at kept
  · intro covered
    rw [← h]
    refine encode_congr fun id member => ?_
    rw [QualifiedName.boundIn_cons]
    cases bound : id.boundIn frames with
    | false => simp
    | true => simp [covered id member bound]

/-- The site's type is emitted as if every type parameter of its declaration, and of those around
it, were written `any`. -/
def ErasesParams (frames : Scope) (site : Site) (d : Descriptor) : Prop :=
  (site.eraseParams (site.own :: frames)).encode [] = .ok d

end Site

/-! ## The sites of a program -/

/-- The sites of a program, each with the frames around its declaration. -/
def Program.sites (options : Options) (program : Program) : List (Scope × Site) :=
  (program.occurrences options).map fun o => (o.frames, o.site)

/-! ## Conditions on the emitted types -/

theorem exists_image_iff {α β : Type} {P Q : α → Prop} {E : Prop} {f : α → β} {b : β}
    (h : ∀ a, P a ↔ Q a ∧ E) : (∃ a, P a ∧ b = f a) ↔ (∃ a, Q a ∧ b = f a) ∧ E := by
  constructor
  · rintro ⟨a, holds, rfl⟩
    exact ⟨⟨a, ((h a).1 holds).1, rfl⟩, ((h a).1 holds).2⟩
  · rintro ⟨⟨a, holds, rfl⟩, emits⟩
    exact ⟨a, (h a).2 ⟨holds, emits⟩, rfl⟩

theorem exists_image₂_iff {α β γ : Type} {P Q : α → Prop} {R S : α → β → Prop} {E F : Prop}
    {f : α → β → γ} {c : γ} (h : ∀ a, P a ↔ Q a ∧ E) (h' : ∀ a b, R a b ↔ S a b ∧ F) :
    (∃ a b, P a ∧ R a b ∧ c = f a b) ↔ (∃ a b, Q a ∧ S a b ∧ c = f a b) ∧ E ∧ F := by
  constructor
  · rintro ⟨a, b, first, second, rfl⟩
    obtain ⟨first, emits⟩ := (h a).1 first
    obtain ⟨second, emits'⟩ := (h' a b).1 second
    exact ⟨⟨a, b, first, second, rfl⟩, emits, emits'⟩
  · rintro ⟨⟨a, b, first, second, rfl⟩, emits, emits'⟩
    exact ⟨a, b, (h a).2 ⟨first, emits⟩, (h' a b).2 ⟨second, emits'⟩, rfl⟩

namespace Setting

/-- The setting without a condition on the emitted types. -/
def bare (g : Setting) : Setting := { g with emits := fun _ _ _ => True }

/-- The site has a type, and it is as the setting asks. -/
def Emits (g : Setting) (frames : Scope) (site : Site) : Prop :=
  ∃ d, site.encode [] = .ok d ∧ g.emits frames site d

/-- All types in a part of a program are as the setting asks, below the given frames. -/
def EmitsAll (g : Setting) (frames : Scope) (occurrences : List Occurrence) : Prop :=
  ∀ o ∈ occurrences, g.Emits (o.frames ++ frames) o.site

variable {g : Setting} {frames : Scope} {signature : Signature Pattern Expr}

theorem emitsAll_append {first second : List Occurrence} :
    g.EmitsAll frames (first ++ second) ↔ g.EmitsAll frames first ∧ g.EmitsAll frames second :=
  List.forall_mem_append

section
variable {loc : Location} {own : List String} {source : List Stmt}

theorem emitsAll_occurrences {inBody : List Occurrence} :
    g.EmitsAll frames (signature.occurrences g.options loc own source inBody) ↔
      g.EmitsAll (signature.typeParams :: frames) inBody ∧
        g.EmitsAll frames (signature.checkOccurrences g.options loc own source) := by
  rw [Signature.occurrences, emitsAll_append]
  refine and_congr_left' (List.forall_mem_map.trans (forall₂_congr fun o _ => ?_))
  rw [Occurrence.within, List.append_assoc]
  rfl

theorem emitsAll_checkOccurrences (asserted : ¬ g.options.skipAsserts = true) :
    g.EmitsAll frames (signature.checkOccurrences g.options loc own source) ↔
      ∀ site ∈ signature.encoded, g.Emits frames site := by
  rw [Signature.checkOccurrences, if_neg asserted]
  exact List.forall_mem_map

theorem emitsAll_checkOccurrences_of_skipAsserts (skipped : g.options.skipAsserts = true) :
    g.EmitsAll frames (signature.checkOccurrences g.options loc own source) := by
  rw [Signature.checkOccurrences, if_pos skipped]
  exact List.forall_mem_nil _

end

theorem argumentChecks_iff {own : List String} {arrow : Bool} {index : Nat}
    {params : List (Param Pattern Expr)} {checks : List Stmt} :
    g.ArgumentChecks frames own arrow index params checks ↔
      g.bare.ArgumentChecks frames own arrow index params checks ∧
        ∀ site ∈ params.filterMap (Param.site? own), g.Emits frames site := by
  constructor
  · intro h
    induction h with
    | nil index => exact ⟨.nil index, by simp⟩
    | unchecked untyped _ ih =>
      rw [List.filterMap_cons_none (Param.site?_eq_none untyped)]
      exact ⟨.unchecked untyped ih.1, ih.2⟩
    | checked typed mapped emitted _ ih =>
      rw [List.filterMap_cons_some (Param.site?_eq_some typed)]
      exact ⟨.checked typed mapped trivial ih.1,
        List.forall_mem_cons.2 ⟨⟨_, mapped, emitted⟩, ih.2⟩⟩
  · rintro ⟨h, emits⟩
    induction h with
    | nil index => exact .nil index
    | unchecked untyped _ ih =>
      rw [List.filterMap_cons_none (Param.site?_eq_none untyped)] at emits
      exact .unchecked untyped (ih emits)
    | checked typed mapped _ _ ih =>
      rw [List.filterMap_cons_some (Param.site?_eq_some typed)] at emits
      obtain ⟨⟨d, mapped', emitted⟩, others⟩ := List.forall_mem_cons.1 emits
      cases mapped.symm.trans mapped'
      exact .checked typed mapped emitted (ih others)

theorem returns_iff {core tail : List Stmt} :
    g.Returns frames signature core tail ↔ g.bare.Returns frames signature core tail ∧
      ∀ site ∈ (signature.returnType.map (Site.result signature.typeParams)).toList,
        g.Emits frames site := by
  unfold Returns
  cases signature.returnType with
  | none => simp
  | some type =>
    constructor
    · rintro ⟨ctx, d, reserved, mapped, emitted, rfl⟩
      exact ⟨⟨ctx, d, reserved, mapped, trivial, rfl⟩,
        List.forall_mem_singleton.2 ⟨d, mapped, emitted⟩⟩
    · rintro ⟨⟨ctx, d, reserved, mapped, -, rfl⟩, emits⟩
      obtain ⟨d', mapped', emitted⟩ := List.forall_mem_singleton.1 emits
      cases mapped.symm.trans mapped'
      exact ⟨ctx, d, reserved, mapped, emitted, rfl⟩

theorem guards_iff {arrow : Bool} {core body : List Stmt} :
    g.Guards frames signature arrow core body ↔ g.bare.Guards frames signature arrow core body ∧
      ∀ site ∈ signature.encoded, g.Emits frames site := by
  rw [Signature.encoded, List.forall_mem_append]
  constructor
  · rintro ⟨checks, tail, checked, returned, rfl⟩
    obtain ⟨checked, emits⟩ := argumentChecks_iff.1 checked
    obtain ⟨returned, emits'⟩ := returns_iff.1 returned
    exact ⟨⟨checks, tail, checked, returned, rfl⟩, emits', emits⟩
  · rintro ⟨⟨checks, tail, checked, returned, rfl⟩, emits', emits⟩
    exact ⟨checks, tail, argumentChecks_iff.2 ⟨checked, emits⟩, returns_iff.2 ⟨returned, emits'⟩,
      rfl⟩

section
variable (loc : Location) (own : List String)

theorem bodies_iff (source : List Stmt) {core body : List Stmt} :
    g.Bodies frames signature core body ↔ g.bare.Bodies frames signature core body ∧
      g.EmitsAll frames (signature.checkOccurrences g.options loc own source) := by
  by_cases skipped : g.options.skipAsserts = true
  · simp [Bodies, bare, skipped, emitsAll_checkOccurrences_of_skipAsserts skipped]
  · have asserted : ¬ g.bare.options.skipAsserts = true := skipped
    rw [Bodies, Bodies, if_neg skipped, if_neg asserted, guards_iff,
      emitsAll_checkOccurrences skipped]

theorem arrowBodies_iff (source : List Stmt) {core body : Body Stmt Expr} :
    g.ArrowBodies frames signature core body ↔ g.bare.ArrowBodies frames signature core body ∧
      g.EmitsAll frames (signature.checkOccurrences g.options loc own source) := by
  by_cases skipped : g.options.skipAsserts = true
  · simp [ArrowBodies, bare, skipped, emitsAll_checkOccurrences_of_skipAsserts skipped]
  · have asserted : ¬ g.bare.options.skipAsserts = true := skipped
    rw [ArrowBodies, ArrowBodies, if_neg skipped, if_neg asserted,
      emitsAll_checkOccurrences skipped]
    exact exists_image_iff fun _ => guards_iff

theorem defines_iff {site : Site} {name : String} {loc' : Location} {s : Stmt} :
    g.Defines frames site name loc' s ↔
      g.bare.Defines frames site name loc' s ∧ g.EmitsAll frames [{ loc, site }] := by
  constructor
  · rintro ⟨d, mapped, emitted, rfl⟩
    exact ⟨⟨d, mapped, trivial, rfl⟩, List.forall_mem_singleton.2 ⟨d, mapped, emitted⟩⟩
  · rintro ⟨⟨d, mapped, -, rfl⟩, emits⟩
    obtain ⟨d', mapped', emitted⟩ := List.forall_mem_singleton.1 emits
    cases mapped.symm.trans mapped'
    exact ⟨d, mapped, emitted, rfl⟩

end

end Setting

section
variable {g : Setting}

open Setting

mutual

theorem Expr.lowers_iff (frames : Scope) :
    ∀ e e' : Expr, Expr.Lowers g frames e e' ↔
      Expr.Lowers g.bare frames e e' ∧ g.EmitsAll frames (e.occurrences g.options)
  | .function signature body name loc, e' => by
    rw [Expr.occurrences, emitsAll_occurrences]
    exact exists_image₂_iff (Stmt.allLower_iff _ body) fun _ _ => bodies_iff loc _ body
  | .arrow signature body loc, e' => by
    rw [Expr.occurrences, emitsAll_occurrences]
    exact exists_image₂_iff (Expr.bodyLowers_iff _ body) fun _ _ => arrowBodies_iff loc _ _
  | .call callee args, e' => by
    rw [Expr.occurrences, emitsAll_append]
    exact exists_image₂_iff (Expr.lowers_iff _ callee) fun _ => Expr.allLower_iff _ args
  | .raw _, _ | .ident _, _ | .this, _ | .member _ _, _ | .string _, _ | .number _, _
  | .array _, _ | .object _, _ | .spread _, _ | .binary _ _ _, _ | .stray _, _ => by
    simp [Expr.Lowers, Expr.occurrences, EmitsAll]
termination_by structural e => e

theorem Expr.bodyLowers_iff (frames : Scope) :
    ∀ body body' : Body Stmt Expr, Expr.BodyLowers g frames body body' ↔
      Expr.BodyLowers g.bare frames body body' ∧
        g.EmitsAll frames (Expr.bodyOccurrences g.options body)
  | .block stmts, _ => exists_image_iff (Stmt.allLower_iff frames stmts)
  | .expression value, _ => exists_image_iff (Expr.lowers_iff frames value)
termination_by structural body => body

theorem Expr.allLower_iff (frames : Scope) :
    ∀ es es' : List Expr, Expr.AllLower g frames es es' ↔
      Expr.AllLower g.bare frames es es' ∧ g.EmitsAll frames (Expr.allOccurrences g.options es)
  | [], es' => by simp [Expr.AllLower, Expr.allOccurrences, EmitsAll]
  | e :: es, es' => by
    rw [Expr.allOccurrences, emitsAll_append]
    exact exists_image₂_iff (Expr.lowers_iff _ e) fun _ => Expr.allLower_iff _ es
termination_by structural es => es

theorem Stmt.lowers_iff (frames : Scope) :
    ∀ s s' : Stmt, Stmt.Lowers g frames s s' ↔
      Stmt.Lowers g.bare frames s s' ∧ g.EmitsAll frames (s.occurrences g.options)
  | .typeAlias decl, s' => defines_iff decl.loc
  | .interface decl, s' => defines_iff decl.loc
  | .function name signature body loc, s' => by
    rw [Stmt.occurrences, emitsAll_occurrences]
    exact exists_image₂_iff (Stmt.allLower_iff _ body) fun _ _ => bodies_iff loc _ body
  | .var kind target (some init) loc, s' => exists_image_iff (Expr.lowers_iff frames init)
  | .exports declaration loc, s' => exists_image_iff (Stmt.lowers_iff frames declaration)
  | .ret (some argument), s' => exists_image_iff (Expr.lowers_iff frames argument)
  | .expr expression, s' => exists_image_iff (Expr.lowers_iff frames expression)
  | .block body, s' => exists_image_iff (Stmt.allLower_iff frames body)
  | .var _ _ none _, _ | .ret none, _ | .raw _, _ | .imports _, _ | .stray _, _ => by
    simp [Stmt.Lowers, Stmt.occurrences, EmitsAll]
termination_by structural s => s

theorem Stmt.allLower_iff (frames : Scope) :
    ∀ ss ss' : List Stmt, Stmt.AllLower g frames ss ss' ↔
      Stmt.AllLower g.bare frames ss ss' ∧ g.EmitsAll frames (Stmt.allOccurrences g.options ss)
  | [], ss' => by simp [Stmt.AllLower, Stmt.allOccurrences, EmitsAll]
  | s :: ss, ss' => by
    rw [Stmt.allOccurrences, emitsAll_append]
    exact exists_image₂_iff (Stmt.lowers_iff _ s) fun _ => Stmt.allLower_iff _ ss
termination_by structural ss => ss

end

/-- A condition on the emitted types is a condition on the sites of the program. -/
theorem Program.lowers_iff {program lowered : Program} :
    program.Lowers g lowered ↔ program.Lowers g.bare lowered ∧
      ∀ site ∈ program.sites g.options, g.Emits site.1 site.2 := by
  have sites : g.EmitsAll [] (program.occurrences g.options) ↔
      ∀ site ∈ program.sites g.options, g.Emits site.1 site.2 := by
    simp only [EmitsAll, List.append_nil, Program.sites, List.forall_mem_map]
  rw [← sites]
  constructor
  · rintro ⟨file, body, all, front⟩
    obtain ⟨all, emits⟩ := (Stmt.allLower_iff [] program.body body).1 all
    exact ⟨⟨file, body, all, front⟩, emits⟩
  · rintro ⟨⟨file, body, all, front⟩, emits⟩
    exact ⟨file, body, (Stmt.allLower_iff [] program.body body).2 ⟨all, emits⟩, front⟩

end

/-- The types of a lowered program are those of its annotations with every type parameter in view
written `any`, exactly if no annotation looks up a parameter that only a declaration around its own
one has. -/
theorem Program.erases_params_iff {options : Options} {program lowered : Program}
    (h : (program.lower options).1 = .ok lowered) :
    (∃ helper library, program.Lowers
      { options, helper, library, reserved := program.declaredNames, emits := Site.ErasesParams }
      lowered) ↔
    ∀ site ∈ program.sites options,
      ∀ id ∈ site.2.names, id.boundIn site.1 → id.boundIn [site.2.own] := by
  constructor
  · rintro ⟨helper, library, shape⟩ site member
    obtain ⟨d, mapped, erased⟩ := (Program.lowers_iff.1 shape).2 site member
    exact (Site.encode_eq_ok_iff mapped).1 ((Site.encode_eraseParams _ _).symm.trans erased)
  · intro covered
    obtain ⟨helper, library, shape⟩ := Program.lowers_of_lower h
    refine ⟨helper, library, Program.lowers_iff.2 ⟨shape, fun site member => ?_⟩⟩
    obtain ⟨d, mapped, -⟩ := (Program.lowers_iff.1 shape).2 site member
    have emitted := (Site.encode_eq_ok_iff mapped).2 (covered site member)
    exact ⟨d, mapped, (Site.encode_eraseParams _ _).trans emitted⟩

/-- A generic function around another one, whose own type parameters are given and which takes a
value of the outer one's type. -/
def nestedGenerics (inner : List String) : Program where
  body := [.function "f" { typeParams := ["T"] }
    [.function "g"
      { params := [{ binding := .ident "x", type := some (.named { name := ⟨["T"]⟩ }) }]
        typeParams := inner } [] .unknown] .unknown]

theorem nestedGenerics_shadowed_erases_params :
    ∃ lowered, ((nestedGenerics ["T"]).lower { skipHelpers := true }).1 = .ok lowered ∧
    ∃ helper library, (nestedGenerics ["T"]).Lowers
      { options := { skipHelpers := true }, helper, library, reserved := ["f", "g", "x"],
        emits := Site.ErasesParams } lowered :=
  ⟨_, rfl, (Program.erases_params_iff rfl).2 (by decide)⟩

/-- The parameter of an outer function is not erased: the inner check refers to it by its name. -/
theorem nestedGenerics_not_erases_params :
    (compile { skipHelpers := true } "<string>"
      "(program (function f (generics T) () (body (function g ((param x T)) (body)))))"
      ).result.toOption
      = some ("function f() \x7b\n    function g(x) \x7b\n        _assert(x, T, \"x\");\n"
          ++ "    \x7d\n\x7d\n") ∧
    ∃ lowered, ((nestedGenerics []).lower { skipHelpers := true }).1 = .ok lowered ∧
    ¬ ∃ helper library, (nestedGenerics []).Lowers
      { options := { skipHelpers := true }, helper, library, reserved := ["f", "g", "x"],
        emits := Site.ErasesParams } lowered := by
  refine ⟨by decide +kernel, _, rfl, ?_⟩
  rintro ⟨helper, library, shape⟩
  obtain ⟨d, mapped, erased⟩ := (Program.lowers_iff.1 shape).2
    ([["T"]], .param [] (.named { name := ⟨["T"]⟩ }) false) (List.mem_singleton_self _)
  cases mapped
  cases erased

end TypeGuard
