import TypeGuard.Proofs.Descriptor.Encoding

/-!
# Names in descriptors

The expressions of the program that a descriptor refers to, as types and as predicates. In the
descriptor of an annotation all of them are dotted names. The expression of a validator names what
they name, and the library.
-/

namespace TypeGuard

namespace Descriptor

mutual

/-- The types and predicates of the program that a descriptor refers to, from left to right. -/
def expressions : Descriptor → List Expr
  | .reference expr => [expr]
  | .primitive _ | .enums _ _ | .literal _ _ => []
  | .list element _ => expressions element
  | .maybe inner _ => expressions inner
  | .tuple items _ => allExpressions items
  | .union members _ => allExpressions members
  | .dict domain codomain _ => expressions domain ++ expressions codomain
  | .refinement base predicate _ => expressions base ++ [predicate]
  | .intersection members _ => allExpressions members
  | .interface props _ => propExpressions props
  | .extend mixins props _ => allExpressions mixins ++ expressions props

def allExpressions : List Descriptor → List Expr
  | [] => []
  | d :: ds => expressions d ++ allExpressions ds

def propExpressions : List (String × Descriptor) → List Expr
  | [] => []
  | (_, d) :: props => expressions d ++ propExpressions props

end

theorem mem_allExpressions {e : Expr} {ds : List Descriptor} :
    e ∈ allExpressions ds ↔ ∃ d ∈ ds, e ∈ d.expressions := by
  induction ds with
  | nil => simp [allExpressions]
  | cons d ds ih => simp [allExpressions, ih]

theorem mem_propExpressions {e : Expr} {props : List (String × Descriptor)} :
    e ∈ propExpressions props ↔ ∃ p ∈ props, e ∈ p.2.expressions := by
  induction props with
  | nil => simp [propExpressions]
  | cons p props ih => simp [propExpressions, ih]

theorem expressions_refine (base : Descriptor) (predicates : List Expr) (name : Option String) :
    (base.refine predicates name).expressions = base.expressions ++ predicates := by
  unfold refine
  induction predicates generalizing base with
  | nil => simp
  | cons predicate predicates ih => simp [ih, expressions]

/-- Everything that the descriptor refers to is a dotted name. -/
def Dotted (d : Descriptor) : Prop := ∀ e ∈ d.expressions, ∃ q, e = .ofName q

theorem Dotted.refine {base : Descriptor} {predicates : List Expr} {name : Option String}
    (h : base.Dotted) (hp : ∀ e ∈ predicates, ∃ q, e = .ofName q) :
    (base.refine predicates name).Dotted := by
  intro e he
  rw [expressions_refine, List.mem_append] at he
  exact he.elim (h e) (hp e)

end Descriptor

/-! ## Names in validators -/

namespace Expr

mutual

/-- The names that the expression of a validator refers to. A function in it compares its own
parameter with a number. -/
def names : Expr → List String
  | .ident name => [name]
  | .member base _ => names base
  | .call callee args => names callee ++ allNames args
  | .array elements => allNames elements
  | .object entries => entryNames entries
  | _ => []

def allNames : List Expr → List String
  | [] => []
  | e :: es => names e ++ allNames es

def entryNames : List (Entry Expr) → List String
  | [] => []
  | .pair _ e :: entries => names e ++ entryNames entries
  | .spread e :: entries => names e ++ entryNames entries

end

theorem mem_allNames {name : String} {es : List Expr} :
    name ∈ allNames es ↔ ∃ e ∈ es, name ∈ e.names := by
  induction es with
  | nil => simp [allNames]
  | cons e es ih => simp [allNames, ih]

theorem names_foldl_member (path : List String) (e : Expr) :
    (path.foldl .member e).names = e.names := by
  induction path generalizing e with
  | nil => rfl
  | cons part path ih => exact ih (.member e part)

end Expr

namespace Descriptor

section
variable {library : Expr} {p : String → Prop}

theorem names_combine {path : List String} {args : List Expr} {name : Option String}
    (inLibrary : ∀ x ∈ library.names, p x) (inArgs : ∀ x ∈ Expr.allNames args, p x) :
    ∀ x ∈ (combine library path args name).names, p x := by
  intro x member
  rw [combine, Expr.names, Expr.names_foldl_member, List.mem_append, Expr.mem_allNames] at member
  obtain member | ⟨e, argument, member⟩ := member
  · exact inLibrary x member
  obtain argument | label := List.mem_append.1 argument
  · exact inArgs x (Expr.mem_allNames.2 ⟨e, argument, member⟩)
  · obtain ⟨shown, -, rfl⟩ := List.mem_map.1 label
    cases member

mutual

/-- The expression of a validator names nothing but the library and what the descriptor refers to. -/
theorem names_lower (inLibrary : ∀ x ∈ library.names, p x) : ∀ d : Descriptor,
    (∀ e ∈ d.expressions, ∀ x ∈ e.names, p x) → ∀ x ∈ (d.lower library).names, p x
  | .reference expr, h => h expr (List.mem_singleton_self expr)
  | .primitive _, _ => inLibrary
  | .list element _, h => names_combine inLibrary (by
      simpa [Expr.allNames] using names_lower inLibrary element h)
  | .maybe inner _, h => names_combine inLibrary (by
      simpa [Expr.allNames] using names_lower inLibrary inner h)
  | .tuple items _, h => names_combine inLibrary (by
      simpa [Expr.allNames, Expr.names] using names_lowerAll inLibrary items h)
  | .union members _, h => names_combine inLibrary (by
      simpa [Expr.allNames, Expr.names] using names_lowerAll inLibrary members h)
  | .enums values _, _ => names_combine inLibrary (by
      simp [Expr.allNames, Expr.names, Expr.mem_allNames])
  | .dict domain codomain _, h => by
    obtain ⟨first, second⟩ := List.forall_mem_append.1 h
    exact names_combine inLibrary (by
      simpa [Expr.allNames, or_imp, forall_and] using
        ⟨names_lower inLibrary domain first, names_lower inLibrary codomain second⟩)
  | .refinement base predicate _, h => by
    obtain ⟨inBase, inPredicate⟩ := List.forall_mem_append.1 h
    exact names_combine inLibrary (by
      simpa [Expr.allNames, or_imp, forall_and] using
        ⟨names_lower inLibrary base inBase, inPredicate predicate (List.mem_singleton_self _)⟩)
  | .intersection members _, h => names_combine inLibrary (by
      simpa [Expr.allNames, Expr.names] using names_lowerAll inLibrary members h)
  | .interface props _, h => names_combine inLibrary (by
      simpa [Expr.allNames, Expr.names] using names_lowerProps inLibrary props h)
  | .extend mixins props _, h => by
    obtain ⟨inMixins, own⟩ := List.forall_mem_append.1 h
    have each := names_lowerAll inLibrary mixins inMixins
    have last := names_lower inLibrary props own
    refine names_combine inLibrary fun x member => ?_
    simp only [Expr.allNames, Expr.names, List.append_nil, Expr.mem_allNames, List.mem_append,
      List.mem_singleton] at member
    obtain ⟨e, isMixin | rfl, member⟩ := member
    · exact each x (Expr.mem_allNames.2 ⟨e, isMixin, member⟩)
    · exact last x member
  | .literal _ _, _ => names_combine inLibrary (by
      simpa [Expr.allNames, Expr.names, equalsPredicate] using inLibrary)
termination_by structural d => d

theorem names_lowerAll (inLibrary : ∀ x ∈ library.names, p x) : ∀ ds : List Descriptor,
    (∀ e ∈ allExpressions ds, ∀ x ∈ e.names, p x) →
      ∀ x ∈ Expr.allNames (lowerAll library ds), p x
  | [], _ => by simp [lowerAll, Expr.allNames]
  | d :: ds, h => by
    obtain ⟨first, others⟩ := List.forall_mem_append.1 h
    exact List.forall_mem_append.2
      ⟨names_lower inLibrary d first, names_lowerAll inLibrary ds others⟩
termination_by structural ds => ds

theorem names_lowerProps (inLibrary : ∀ x ∈ library.names, p x) :
    ∀ props : List (String × Descriptor), (∀ e ∈ propExpressions props, ∀ x ∈ e.names, p x) →
      ∀ x ∈ Expr.entryNames (lowerProps library props), p x
  | [], _ => by simp [lowerProps, Expr.entryNames]
  | (_, d) :: props, h => by
    obtain ⟨first, others⟩ := List.forall_mem_append.1 h
    exact List.forall_mem_append.2
      ⟨names_lower inLibrary d first, names_lowerProps inLibrary props others⟩
termination_by structural props => props

end

end

end Descriptor

/-! ## Names in annotations -/

/-- Everything that the operand refers to is a dotted name. -/
def Operand.Dotted : Operand → Prop
  | .type d => d.Dotted
  | .refinement predicate _ => ∃ q, predicate = .ofName q

theorem Operand.Dotted.types {os : List Operand} (h : ∀ o ∈ os, o.Dotted) :
    ∀ d ∈ Operand.types os, d.Dotted := by
  intro d hd
  obtain ⟨o, ho, same⟩ := List.mem_filterMap.1 hd
  cases o with
  | type d' =>
    cases same
    exact h _ ho
  | refinement => cases same

theorem Operand.Dotted.predicates {os : List Operand} (h : ∀ o ∈ os, o.Dotted) :
    ∀ e ∈ Operand.predicates os, ∃ q, e = .ofName q := by
  intro e he
  obtain ⟨o, ho, same⟩ := List.mem_filterMap.1 he
  cases o with
  | type => cases same
  | refinement predicate loc =>
    cases same
    exact h _ ho

theorem Descriptor.Dotted.members {ds : List Descriptor} (h : ∀ d ∈ ds, d.Dotted) :
    ∀ e ∈ Descriptor.allExpressions ds, ∃ q, e = .ofName q := by
  intro e he
  obtain ⟨d, hd, he⟩ := Descriptor.mem_allExpressions.1 he
  exact h d hd e he

theorem forall_mem_of_forall₂ {α β : Type} {P : β → Prop} {xs : List α} {ys : List β}
    (h : List.Forall₂ (fun _ y => P y) xs ys) : ∀ y ∈ ys, P y := by
  induction h with
  | nil => simp
  | cons first _ ih => simpa using ⟨first, ih⟩

theorem Descriptor.Dotted.props {properties : List (Property Ty)} {ds : List Descriptor}
    (h : ∀ d ∈ ds, d.Dotted) (name : Option String) :
    (Descriptor.interface (properties.zipWith (fun p d => (p.key, p.descriptor d)) ds)
      name).Dotted := by
  intro e he
  obtain ⟨p, hp, he⟩ := Descriptor.mem_propExpressions.1 he
  rw [← List.map_uncurry_zip_eq_zipWith, List.mem_map] at hp
  obtain ⟨⟨property, d⟩, member, rfl⟩ := hp
  refine h d (List.of_mem_zip member).2 e ?_
  change e ∈ (property.descriptor d).expressions at he
  rw [Property.descriptor] at he
  split at he
  · exact he
  · exact he

namespace Ty

theorem dotted_rules (scope : Scope) : EncodingRules scope fun _ o => o.Dotted where
  arrayOf _ h := h
  parameter _ _ := by simp [Operand.Dotted, Descriptor.Dotted, Descriptor.expressions]
  marker _ := ⟨_, rfl⟩
  reference _ := by simp [Operand.Dotted, Descriptor.Dotted, Descriptor.expressions]
  array h := h
  nullable h := h
  tuple h := Descriptor.Dotted.members (forall_mem_of_forall₂ h)
  enums _ := by simp [Operand.Dotted, Descriptor.Dotted, Descriptor.expressions]
  union _ h := Descriptor.Dotted.members (forall_mem_of_forall₂ h)
  intersection {_ _ os _} h _ := by
    have each := forall_mem_of_forall₂ h
    simp only [Operand.Dotted, Operand.intersect]
    split
    next base single =>
      exact Descriptor.Dotted.refine (Operand.Dotted.types each base (by simp [single]))
        (Operand.Dotted.predicates each)
    · exact Descriptor.Dotted.refine (Descriptor.Dotted.members (Operand.Dotted.types each))
        (Operand.Dotted.predicates each)
  interface h := Descriptor.Dotted.props (forall_mem_of_forall₂ h) _
  dict {_ _ _ domain codomain _} hd hc := by
    intro e he
    exact (List.mem_append.1 he).elim (hd e) (hc e)
  function := by simp [Operand.Dotted, Descriptor.Dotted, Descriptor.expressions]
  primitive := by simp [Operand.Dotted, Descriptor.Dotted, Descriptor.expressions]
  string := by simp [Operand.Dotted, Descriptor.Dotted, Descriptor.expressions]
  number := by simp [Operand.Dotted, Descriptor.Dotted, Descriptor.expressions]
  stray := by simp [Operand.Dotted, Descriptor.Dotted, Descriptor.expressions]

end Ty

theorem TypeAlias.descriptor_dotted {scope : Scope} {decl : TypeAlias} {d : Descriptor}
    (h : decl.descriptor scope = .ok d) : d.Dotted :=
  Ty.descriptor_induction (Ty.dotted_rules _) (TypeAlias.descriptor_eq_ok h)

theorem InterfaceDecl.descriptor_dotted {scope : Scope} {decl : InterfaceDecl} {d : Descriptor}
    (h : decl.descriptor scope = .ok d) : d.Dotted := by
  obtain ⟨-, body⟩ | ⟨-, supertypes, props, each, hprops, rfl⟩ := InterfaceDecl.descriptor_eq_ok h
  · exact Ty.descriptor_induction (Ty.dotted_rules _) body
  · have dotted : ∀ o ∈ supertypes, o.Dotted := forall_mem_of_forall₂ (each.imp ?_)
    · obtain ⟨ds, own, rfl⟩ := Ty.props_induction (Ty.dotted_rules _) _ hprops
      intro e he
      refine (List.mem_append.1 he).elim
        (Descriptor.Dotted.members (Operand.Dotted.types dotted) e) ?_
      exact Descriptor.Dotted.refine (Descriptor.Dotted.props (forall_mem_of_forall₂ own) none)
        (Operand.Dotted.predicates dotted) e
    · intro ref o mapped
      obtain ⟨-, argument, loc, -, rfl⟩ | ⟨-, rfl⟩ := TypeRef.supertype_eq_ok mapped
      · exact ⟨_, rfl⟩
      · simp [Operand.Dotted, Descriptor.Dotted, Descriptor.expressions]

end TypeGuard
