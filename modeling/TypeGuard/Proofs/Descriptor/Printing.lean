import TypeGuard.Lowering.Basic
import TypeGuard.Proofs.Descriptor.Names
import TypeGuard.Proofs.Script.Reading

/-!
# Printed validators

The expression of a validator says which descriptor it was built from, and so does its printed text.
-/

namespace TypeGuard

open Script

/-! ## References to the library -/

/-- The forms of the reference to the validation library. -/
inductive LibraryForm where
  /-- The library itself under a name. -/
  | name (binding : String)
  /-- The library as the export of a package under a name. -/
  | exported (binding : String)
  /-- The default package, loaded where it is used. -/
  | required

namespace LibraryForm

def expr : LibraryForm → Expr
  | .name l => .ident l
  | .exported l => .member (.ident l) libraryExport
  | .required => .require defaultPackage

/-- The name that the reference begins with, if it was chosen by the program. -/
def local? : LibraryForm → Option String
  | .name l | .exported l => some l
  | .required => none

/-- The name that the reference begins with is an identifier. -/
def IsPlain (l : LibraryForm) : Prop := ∀ s ∈ l.local?, IsName s

theorem isOperand_expr (l : LibraryForm) : l.expr.isOperand = true := by
  cases l <;> rfl

theorem IsPlain.expr {l : LibraryForm} (h : l.IsPlain) : l.expr.Plain := by
  cases l with
  | name s => exact .ident (h s rfl)
  | exported s => exact .member (.ident (h s rfl)) rfl (by decide)
  | required => exact .call (.ident (by decide)) rfl (by simp [Expr.Plain.string])

/-- A dotted name of identifiers that does not begin like the reference to the library. -/
def Admits (l : LibraryForm) (q : QualifiedName) : Prop :=
  ∃ first others, q.parts = first :: others ∧ (∀ s ∈ first :: others, IsName s) ∧
    l.local? ≠ some first

end LibraryForm

namespace Descriptor

/-! ## What a descriptor is made of -/

/-- What a descriptor takes from the program. -/
inductive Atom where
  | name (expr : Expr)
  | base (base : Irreducible)
  | key (key : String)
  | number (value : Number)

mutual

/-- The names, irreducible types, keys and numbers in a descriptor. -/
def atoms : Descriptor → List Atom
  | .reference expr => [.name expr]
  | .primitive base => [.base base]
  | .list element _ => atoms element
  | .maybe inner _ => atoms inner
  | .tuple items _ => allAtoms items
  | .union members _ => allAtoms members
  | .enums _ _ => []
  | .dict domain codomain _ => atoms domain ++ atoms codomain
  | .refinement base predicate _ => atoms base ++ [.name predicate]
  | .intersection members _ => allAtoms members
  | .interface props _ => propAtoms props
  | .extend mixins props _ => allAtoms mixins ++ atoms props
  | .literal value _ => [.number value]

def allAtoms : List Descriptor → List Atom
  | [] => []
  | d :: ds => atoms d ++ allAtoms ds

def propAtoms : List (String × Descriptor) → List Atom
  | [] => []
  | (key, d) :: props => .key key :: atoms d ++ propAtoms props

end

/-- Names are dotted names of identifiers that do not begin like the reference to the library, keys
have no line feed in them, and numbers are integers. -/
def Atom.Legible (l : LibraryForm) : Atom → Prop
  | .name e => ∃ q, e = .ofName q ∧ l.Admits q
  | .base _ => True
  | .key s => '\n' ∉ s.toList
  | .number value => ∃ n, value = .int n

/-- An irreducible type is one of the library's own. -/
def Atom.Known : Atom → Prop
  | .base irreducible => irreducible ∈ Irreducible.known
  | _ => True

/-- Everything in the descriptor is as the predicate says. -/
def All (p : Atom → Prop) (d : Descriptor) : Prop := ∀ a ∈ d.atoms, p a

section
variable {p : Atom → Prop}

theorem all_allAtoms {ds : List Descriptor} :
    (∀ a ∈ allAtoms ds, p a) ↔ ∀ d ∈ ds, d.All p := by
  induction ds with
  | nil => simp [allAtoms]
  | cons d ds ih => simp [allAtoms, or_imp, forall_and, ih, All]

theorem all_propAtoms {props : List (String × Descriptor)} :
    (∀ a ∈ propAtoms props, p a) ↔ ∀ q ∈ props, p (.key q.1) ∧ q.2.All p := by
  induction props with
  | nil => simp [propAtoms]
  | cons q props ih =>
    simp only [propAtoms, List.cons_append, List.forall_mem_cons, List.forall_mem_append, ih, All]
    exact and_assoc.symm

theorem all_refine {base : Descriptor} {predicates : List Expr} {name : Option String}
    (h : base.All p) (hp : ∀ e ∈ predicates, p (.name e)) :
    (base.refine predicates name).All p := by
  unfold refine
  induction predicates generalizing base with
  | nil => exact h
  | cons predicate predicates ih =>
    obtain ⟨first, others⟩ := List.forall_mem_cons.1 hp
    refine ih (List.forall_mem_append.2 ⟨h, ?_⟩) others
    simpa using first

end

/-! ## Irreducible types of descriptors -/

/-- The descriptor of some annotation or of some interface. -/
def Encoded (d : Descriptor) : Prop :=
  (∃ scope name type, Ty.descriptor scope name type = .ok d) ∨
    ∃ scope decl, InterfaceDecl.descriptor scope decl = .ok d

end Descriptor

/-- The operand has irreducible types of the library only. -/
def Operand.Known : Operand → Prop
  | .type d => d.All Descriptor.Atom.Known
  | .refinement _ _ => True

theorem Operand.Known.types {os : List Operand} (h : ∀ o ∈ os, o.Known) :
    ∀ d ∈ Operand.types os, d.All Descriptor.Atom.Known := by
  intro d hd
  obtain ⟨o, ho, same⟩ := List.mem_filterMap.1 hd
  cases o with
  | type d' =>
    cases same
    exact h _ ho
  | refinement => cases same

namespace Descriptor

theorem known_props {properties : List (Property Ty)} {ds : List Descriptor}
    (h : ∀ d ∈ ds, d.All Atom.Known) (name : Option String) :
    (Descriptor.interface (properties.zipWith (fun p d => (p.key, p.descriptor d)) ds) name).All
      Atom.Known := by
  refine all_propAtoms.2 fun q member => ⟨trivial, ?_⟩
  rw [← List.map_uncurry_zip_eq_zipWith, List.mem_map] at member
  obtain ⟨⟨property, d⟩, member, rfl⟩ := member
  have value := h d (List.of_mem_zip member).2
  change (property.descriptor d).All Atom.Known
  unfold Property.descriptor
  split
  · exact value
  · exact value

end Descriptor

namespace Ty

theorem known_rules (scope : Scope) : EncodingRules scope fun _ o => o.Known where
  arrayOf _ h := h
  parameter _ _ := by simp [Operand.Known, Descriptor.All, Descriptor.atoms, Descriptor.Atom.Known,
    Irreducible.known]
  marker _ := trivial
  reference _ := by simp [Operand.Known, Descriptor.All, Descriptor.atoms, Descriptor.Atom.Known]
  array h := h
  nullable h := h
  tuple h := Descriptor.all_allAtoms.2 (forall_mem_of_forall₂ h)
  enums _ := by simp [Operand.Known, Descriptor.All, Descriptor.atoms]
  union _ h := Descriptor.all_allAtoms.2 (forall_mem_of_forall₂ h)
  intersection {_ _ os _} h _ := by
    have types := Operand.Known.types (forall_mem_of_forall₂ h)
    simp only [Operand.Known, Operand.intersect]
    split
    next base single =>
      exact Descriptor.all_refine (types base (by simp [single])) (by simp [Descriptor.Atom.Known])
    · exact Descriptor.all_refine (Descriptor.all_allAtoms.2 types)
        (by simp [Descriptor.Atom.Known])
  interface h := Descriptor.known_props (forall_mem_of_forall₂ h) _
  dict hd hc := List.forall_mem_append.2 ⟨hd, hc⟩
  function := by simp [Operand.Known, Descriptor.All, Descriptor.atoms, Descriptor.Atom.Known,
    Irreducible.known]
  primitive {value _} := by
    cases value <;> simp [Operand.Known, Descriptor.All, Descriptor.atoms, Descriptor.Atom.Known,
      Irreducible.known, Primitive.irreducible]
  string := by simp [Operand.Known, Descriptor.All, Descriptor.atoms]
  number := by simp [Operand.Known, Descriptor.All, Descriptor.atoms, Descriptor.Atom.Known]
  stray := by simp [Operand.Known, Descriptor.All, Descriptor.atoms, Descriptor.Atom.Known,
    Irreducible.known]

end Ty

/-- Annotations and interfaces are checked with irreducible types of the library only. -/
theorem Descriptor.Encoded.known {d : Descriptor} (h : d.Encoded) : d.All Atom.Known := by
  obtain ⟨scope, name, type, h⟩ | ⟨scope, decl, h⟩ := h
  · exact Ty.descriptor_induction (Ty.known_rules _) h
  · obtain ⟨-, body⟩ | ⟨-, supertypes, props, each, hprops, rfl⟩ := InterfaceDecl.descriptor_eq_ok h
    · exact Ty.descriptor_induction (Ty.known_rules _) body
    · have known : ∀ o ∈ supertypes, o.Known := by
        refine forall_mem_of_forall₂ (each.imp fun ref o mapped => ?_)
        obtain ⟨-, argument, loc, -, rfl⟩ | ⟨-, rfl⟩ := TypeRef.supertype_eq_ok mapped
        · trivial
        · simp [Operand.Known, All, atoms, Atom.Known]
      obtain ⟨ds, own, rfl⟩ := Ty.props_induction (Ty.known_rules _) _ hprops
      refine List.forall_mem_append.2 ⟨all_allAtoms.2 (Operand.Known.types known), ?_⟩
      exact all_refine (known_props (forall_mem_of_forall₂ own) none) (by simp [Atom.Known])

/-! ## The expression of a validator is plain -/

theorem Expr.plain_foldl_member {e : Expr} {path : List String} (h : e.Plain)
    (operand : e.isOperand = true) (names : ∀ s ∈ path, IsName s) :
    (path.foldl .member e).Plain ∧ (path.foldl .member e).isOperand = true := by
  induction path generalizing e with
  | nil => exact ⟨h, operand⟩
  | cons s path ih =>
    obtain ⟨first, others⟩ := List.forall_mem_cons.1 names
    exact ih (.member h operand first) rfl others

theorem LibraryForm.Admits.plain {l : LibraryForm} {q : QualifiedName} (h : l.Admits q) :
    (Expr.ofName q).Plain := by
  obtain ⟨first, others, parts, names, -⟩ := h
  obtain ⟨name, rest⟩ := List.forall_mem_cons.1 names
  rw [Expr.ofName, parts]
  exact (Expr.plain_foldl_member (.ident name) rfl rest).1

namespace Descriptor

section
variable {l : LibraryForm}

theorem plain_combine (library : l.IsPlain) {path : List String} {args : List Expr}
    (names : ∀ s ∈ path, IsName s) (plain : ∀ e ∈ args, e.Plain) (name : Option String) :
    (combine l.expr path args name).Plain := by
  obtain ⟨callee, operand⟩ :=
    Expr.plain_foldl_member library.expr l.isOperand_expr names
  refine .call callee operand fun e member => ?_
  obtain arg | last := List.mem_append.1 member
  · exact plain e arg
  · obtain ⟨s, -, rfl⟩ := List.mem_map.1 last
    exact .string s

theorem plain_primitive (library : l.IsPlain) {base : Irreducible} (h : base ∈ Irreducible.known) :
    (Expr.member l.expr base.name).Plain := by
  have names : ∀ base ∈ Irreducible.known, IsName base.name := by
    decide
  exact .member library.expr l.isOperand_expr (names base h)

theorem lowerProps_eq_map (library : Expr) (props : List (String × Descriptor)) :
    lowerProps library props
      = (props.map fun q => (q.1, q.2.lower library)).map fun q => .pair q.1 q.2 := by
  induction props with
  | nil => rfl
  | cons q props ih => rw [lowerProps, ih, List.map_cons, List.map_cons]

mutual

theorem lower_isPlain (library : l.IsPlain) : ∀ d : Descriptor, d.All Atom.Known →
    d.All (Atom.Legible l) → (d.lower l.expr).Plain
  | .reference e, known, legible => by
    obtain ⟨q, rfl, admitted⟩ := legible (.name e) (by simp [atoms])
    exact admitted.plain
  | .primitive base, known, legible => plain_primitive library (known (.base base) (by simp [atoms]))
  | .list element name, known, legible => by
    refine plain_combine library (by decide) ?_ name
    simpa using lower_isPlain library element known legible
  | .maybe inner name, known, legible => by
    refine plain_combine library (by decide) ?_ name
    simpa using lower_isPlain library inner known legible
  | .tuple items name, known, legible => by
    refine plain_combine library (by decide) ?_ name
    simpa using Expr.Plain.array (lowerAll_isPlain library items known legible)
  | .union members name, known, legible => by
    refine plain_combine library (by decide) ?_ name
    simpa using Expr.Plain.array (lowerAll_isPlain library members known legible)
  | .enums values name, known, legible => by
    refine plain_combine library (by decide) ?_ name
    have strings : ∀ e ∈ values.map Expr.string, e.Plain := by simp [Expr.Plain.string]
    simpa using Expr.Plain.array strings
  | .dict domain codomain name, known, legible => by
    obtain ⟨knownDomain, knownCodomain⟩ := List.forall_mem_append.1 known
    obtain ⟨legibleDomain, legibleCodomain⟩ := List.forall_mem_append.1 legible
    refine plain_combine library (by decide) ?_ name
    simpa using ⟨lower_isPlain library domain knownDomain legibleDomain,
      lower_isPlain library codomain knownCodomain legibleCodomain⟩
  | .refinement base predicate name, known, legible => by
    obtain ⟨knownBase, -⟩ := List.forall_mem_append.1 known
    obtain ⟨legibleBase, legiblePredicate⟩ := List.forall_mem_append.1 legible
    obtain ⟨q, rfl, admitted⟩ := legiblePredicate (.name predicate) (by simp)
    refine plain_combine library (by decide) ?_ name
    simpa using ⟨lower_isPlain library base knownBase legibleBase, admitted.plain⟩
  | .intersection members name, known, legible => by
    refine plain_combine library (by decide) ?_ name
    simpa using Expr.Plain.array (lowerAll_isPlain library members known legible)
  | .interface props name, known, legible => by
    have each := lowerProps_isPlain library props known legible
    refine plain_combine library (by decide) ?_ name
    rw [lowerProps_eq_map, List.forall_mem_singleton]
    exact .object (List.forall_mem_map.2 fun q member => (each q member).1)
      (List.forall_mem_map.2 fun q member => (each q member).2)
  | .extend mixins props name, known, legible => by
    obtain ⟨knownMixins, knownProps⟩ := List.forall_mem_append.1 known
    obtain ⟨legibleMixins, legibleProps⟩ := List.forall_mem_append.1 legible
    refine plain_combine library (by decide) ?_ name
    have own := lower_isPlain library props knownProps legibleProps
    have all : ∀ e ∈ lowerAll l.expr mixins ++ [lower l.expr props], e.Plain :=
      List.forall_mem_append.2
        ⟨lowerAll_isPlain library mixins knownMixins legibleMixins, by simpa using own⟩
    simpa using Expr.Plain.array all
  | .literal value name, known, legible => by
    obtain ⟨n, rfl⟩ := legible (.number value) (by simp [atoms])
    refine plain_combine library (by decide) ?_ name
    simpa using ⟨plain_primitive library (by simp [Irreducible.known]), Expr.Plain.equals n⟩

theorem lowerAll_isPlain (library : l.IsPlain) : ∀ ds : List Descriptor,
    (∀ a ∈ allAtoms ds, a.Known) → (∀ a ∈ allAtoms ds, a.Legible l) → ∀ e ∈ lowerAll l.expr ds, e.Plain
  | [], _, _ => by simp [lowerAll]
  | d :: ds, known, legible => by
    obtain ⟨knownFirst, knownOthers⟩ := List.forall_mem_append.1 known
    obtain ⟨legibleFirst, legibleOthers⟩ := List.forall_mem_append.1 legible
    exact List.forall_mem_cons.2 ⟨lower_isPlain library d knownFirst legibleFirst,
      lowerAll_isPlain library ds knownOthers legibleOthers⟩

theorem lowerProps_isPlain (library : l.IsPlain) : ∀ props : List (String × Descriptor),
    (∀ a ∈ propAtoms props, a.Known) → (∀ a ∈ propAtoms props, a.Legible l) →
    ∀ q ∈ props, '\n' ∉ q.1.toList ∧ (q.2.lower l.expr).Plain
  | [], _, _ => by simp
  | (key, d) :: props, known, legible => by
    obtain ⟨-, known⟩ := List.forall_mem_cons.1 known
    obtain ⟨line, legible⟩ := List.forall_mem_cons.1 legible
    obtain ⟨knownFirst, knownOthers⟩ := List.forall_mem_append.1 known
    obtain ⟨legibleFirst, legibleOthers⟩ := List.forall_mem_append.1 legible
    exact List.forall_mem_cons.2 ⟨⟨line, lower_isPlain library d knownFirst legibleFirst⟩,
      lowerProps_isPlain library props knownOthers legibleOthers⟩

end

end

end Descriptor

/-! ## The expression of a validator says which one it is -/

/-- The name that an access to members begins with. -/
def Expr.head? : Expr → Option String
  | .ident name => some name
  | .member inner _ => head? inner
  | _ => none

theorem Expr.head?_foldl_member (e : Expr) (path : List String) :
    (path.foldl .member e).head? = e.head? := by
  induction path generalizing e with
  | nil => rfl
  | cons s path ih => exact ih (.member e s)

namespace LibraryForm

theorem head?_expr (l : LibraryForm) : l.expr.head? = l.local? := by
  cases l <;> rfl

theorem Admits.head? {l : LibraryForm} {q : QualifiedName} (h : l.Admits q) :
    ∃ first, (Expr.ofName q).head? = some first ∧ l.local? ≠ some first := by
  obtain ⟨first, others, parts, -, other⟩ := h
  refine ⟨first, ?_, other⟩
  have head : (others.foldl Expr.member (.ident first)).head? = some first :=
    Expr.head?_foldl_member (.ident first) others
  simpa only [Expr.ofName, parts] using head

/-- A dotted name is a name or an access. -/
theorem Admits.cases {l : LibraryForm} {q : QualifiedName} (h : l.Admits q) :
    (∃ name, Expr.ofName q = .ident name) ∨
      ∃ object prop, Expr.ofName q = .member object prop := by
  obtain ⟨first, head, -⟩ := h.head?
  cases same : Expr.ofName q with
  | ident name => exact .inl ⟨name, rfl⟩
  | member object prop => exact .inr ⟨object, prop, rfl⟩
  | raw | this | call | string | number | array | object | spread | binary | function | arrow
  | stray => simp [same, Expr.head?] at head

end LibraryForm

namespace Descriptor

/-- The name of a type, as the last argument of its combinator. -/
def nameOf : List Expr → Option String
  | [.string name] => some name
  | _ => none

theorem nameOf_map (name : Option String) : nameOf (name.toList.map .string) = name := by
  cases name <;> rfl

def textOf : Expr → String
  | .string value => value
  | _ => ""

section
variable (l : LibraryForm)

mutual

/-- The descriptor whose validator an expression builds. -/
def ofExpr : Expr → Option Descriptor
  | .call (.member _ "list") (element :: name) => do
    return .list (← ofExpr element) (nameOf name)
  | .call (.member _ "maybe") (inner :: name) => do
    return .maybe (← ofExpr inner) (nameOf name)
  | .call (.member _ "tuple") (.array items :: name) => do
    return .tuple (← ofExprs items) (nameOf name)
  | .call (.member _ "union") (.array members :: name) => do
    return .union (← ofExprs members) (nameOf name)
  | .call (.member _ "of") (.array values :: name) =>
    some (.enums (values.map textOf) (nameOf name))
  | .call (.member _ "dict") (domain :: codomain :: name) => do
    return .dict (← ofExpr domain) (← ofExpr codomain) (nameOf name)
  | .call (.member _ "refinement")
      (_ :: .function _ [.ret (some (.binary _ _ (.number value)))] _ _ :: name) =>
    some (.literal value (nameOf name))
  | .call (.member _ "refinement") (base :: predicate :: name) => do
    return .refinement (← ofExpr base) predicate (nameOf name)
  | .call (.member _ "intersection") (.array members :: name) => do
    return .intersection (← ofExprs members) (nameOf name)
  | .call (.member _ "interface") (.object entries :: name) => do
    return .interface (← ofEntries entries) (nameOf name)
  | .call (.member _ "extend") (.array parts :: name) => do
    let parts ← ofExprs parts
    return .extend parts.dropLast (← parts.getLast?) (nameOf name)
  | .member object prop =>
    if object.head? = l.local? then some (.primitive (.ofName prop))
    else some (.reference (.member object prop))
  | e => some (.reference e)
termination_by structural e => e

def ofExprs : List Expr → Option (List Descriptor)
  | [] => some []
  | e :: es => do return (← ofExpr e) :: (← ofExprs es)
termination_by structural es => es

def ofEntries : List (Entry Expr) → Option (List (String × Descriptor))
  | [] => some []
  | .pair key value :: entries => do return (key, ← ofExpr value) :: (← ofEntries entries)
  | .spread _ :: _ => none
termination_by structural entries => entries

end

end

section
variable {l : LibraryForm}

/-- A name of the program is read as a reference. -/
theorem ofExpr_name {q : QualifiedName} (h : l.Admits q) :
    ofExpr l (.ofName q) = some (.reference (.ofName q)) := by
  obtain ⟨first, head, other⟩ := h.head?
  obtain ⟨name, same⟩ | ⟨object, prop, same⟩ := h.cases
  · rw [same, ofExpr]
    all_goals simp
  · rw [same] at head ⊢
    have distinct : object.head? ≠ l.local? := by
      intro equal
      exact other (equal.symm.trans head)
    rw [ofExpr, if_neg distinct]

/-- A type of the library is read as one. -/
theorem ofExpr_primitive {base : Irreducible} (h : base ∈ Irreducible.known) :
    ofExpr l (.member l.expr base.name) = some (.primitive base) := by
  have known : ∀ base ∈ Irreducible.known, Irreducible.ofName base.name = base := by decide
  rw [ofExpr, if_pos l.head?_expr, known base h]

theorem ofExpr_refinement {e predicate : Expr} {base : Descriptor} {q : QualifiedName}
    (h : ofExpr l e = some base) (same : predicate = .ofName q) (admitted : l.Admits q)
    (name : Option String) :
    ofExpr l (combine l.expr ["refinement"] [e, predicate] name)
      = some (.refinement base predicate name) := by
  obtain ⟨s, form⟩ | ⟨object, prop, form⟩ := admitted.cases
  · rw [form] at same
    subst same
    simp [combine, ofExpr, h, nameOf_map]
  · rw [form] at same
    subst same
    simp [combine, ofExpr, h, nameOf_map]

theorem ofExprs_append {es : List Expr} {ds : List Descriptor} {e : Expr} {d : Descriptor}
    (h : ofExprs l es = some ds) (last : ofExpr l e = some d) :
    ofExprs l (es ++ [e]) = some (ds ++ [d]) := by
  induction es generalizing ds with
  | nil =>
    obtain rfl : [] = ds := by simpa [ofExprs] using h
    simp [ofExprs, last]
  | cons first es ih =>
    simp only [ofExprs, Option.bind_eq_bind, Option.bind_eq_some_iff, Option.pure_def,
      Option.some.injEq] at h
    obtain ⟨c, here, cs, others, rfl⟩ := h
    simp [ofExprs, here, ih others]

theorem map_textOf (values : List String) : (values.map Expr.string).map textOf = values := by
  simp [Function.comp_def, textOf]

mutual

/-- The expression of a validator is read as its descriptor. -/
theorem ofExpr_lower : ∀ d : Descriptor, d.All Atom.Known → d.All (Atom.Legible l) →
    ofExpr l (d.lower l.expr) = some d
  | .reference e, known, legible => by
    obtain ⟨q, rfl, admitted⟩ := legible (.name e) (by simp [atoms])
    exact ofExpr_name admitted
  | .primitive base, known, legible => ofExpr_primitive (known (.base base) (by simp [atoms]))
  | .list element name, known, legible => by
    have inner := ofExpr_lower element known legible
    simp [lower, combine, ofExpr, inner, nameOf_map]
  | .maybe inner name, known, legible => by
    have inner := ofExpr_lower inner known legible
    simp [lower, combine, ofExpr, inner, nameOf_map]
  | .tuple items name, known, legible => by
    have each := ofExprs_lowerAll items known legible
    simp [lower, combine, ofExpr, each, nameOf_map]
  | .union members name, known, legible => by
    have each := ofExprs_lowerAll members known legible
    simp [lower, combine, ofExpr, each, nameOf_map]
  | .enums values name, known, legible => by
    have texts := map_textOf values
    simp only [lower, combine, List.foldl_cons, List.foldl_nil, List.singleton_append, ofExpr, texts,
      nameOf_map]
  | .dict domain codomain name, known, legible => by
    obtain ⟨knownDomain, knownCodomain⟩ := List.forall_mem_append.1 known
    obtain ⟨legibleDomain, legibleCodomain⟩ := List.forall_mem_append.1 legible
    have first := ofExpr_lower domain knownDomain legibleDomain
    have second := ofExpr_lower codomain knownCodomain legibleCodomain
    simp [lower, combine, ofExpr, first, second, nameOf_map]
  | .refinement base predicate name, known, legible => by
    obtain ⟨knownBase, -⟩ := List.forall_mem_append.1 known
    obtain ⟨legibleBase, legiblePredicate⟩ := List.forall_mem_append.1 legible
    obtain ⟨q, same, admitted⟩ := legiblePredicate (.name predicate) (by simp)
    exact ofExpr_refinement (ofExpr_lower base knownBase legibleBase) same admitted name
  | .intersection members name, known, legible => by
    have each := ofExprs_lowerAll members known legible
    simp [lower, combine, ofExpr, each, nameOf_map]
  | .interface props name, known, legible => by
    have each := ofEntries_lowerProps props known legible
    simp [lower, combine, ofExpr, each, nameOf_map]
  | .extend mixins props name, known, legible => by
    obtain ⟨knownMixins, knownProps⟩ := List.forall_mem_append.1 known
    obtain ⟨legibleMixins, legibleProps⟩ := List.forall_mem_append.1 legible
    have each := ofExprs_lowerAll mixins knownMixins legibleMixins
    have own := ofExpr_lower props knownProps legibleProps
    have parts := ofExprs_append each own
    simp [lower, combine, ofExpr, parts, nameOf_map]
  | .literal value name, known, legible => by
    simp [lower, combine, ofExpr, equalsPredicate, nameOf_map]

theorem ofExprs_lowerAll : ∀ ds : List Descriptor, (∀ a ∈ allAtoms ds, a.Known) →
    (∀ a ∈ allAtoms ds, a.Legible l) → ofExprs l (lowerAll l.expr ds) = some ds
  | [], _, _ => rfl
  | d :: ds, known, legible => by
    obtain ⟨knownFirst, knownOthers⟩ := List.forall_mem_append.1 known
    obtain ⟨legibleFirst, legibleOthers⟩ := List.forall_mem_append.1 legible
    have first := ofExpr_lower d knownFirst legibleFirst
    have others := ofExprs_lowerAll ds knownOthers legibleOthers
    simp [lowerAll, ofExprs, first, others]

theorem ofEntries_lowerProps : ∀ props : List (String × Descriptor),
    (∀ a ∈ propAtoms props, a.Known) → (∀ a ∈ propAtoms props, a.Legible l) →
    ofEntries l (lowerProps l.expr props) = some props
  | [], _, _ => rfl
  | (key, d) :: props, known, legible => by
    obtain ⟨-, known⟩ := List.forall_mem_cons.1 known
    obtain ⟨-, legible⟩ := List.forall_mem_cons.1 legible
    obtain ⟨knownFirst, knownOthers⟩ := List.forall_mem_append.1 known
    obtain ⟨legibleFirst, legibleOthers⟩ := List.forall_mem_append.1 legible
    have first := ofExpr_lower d knownFirst legibleFirst
    have others := ofEntries_lowerProps props knownOthers legibleOthers
    simp [lowerProps, ofEntries, first, others]

end

/-- The validators of annotations and interfaces have texts, and different ones different texts. -/
theorem print_lower_eq_iff (library : l.IsPlain) (unit : String) {c d : Descriptor}
    (encoded₁ : c.Encoded) (encoded₂ : d.Encoded) (legible₁ : c.All (Atom.Legible l))
    (legible₂ : d.All (Atom.Legible l)) :
    (∃ text, (c.lower l.expr).print unit = .ok text) ∧
      ((c.lower l.expr).print unit = (d.lower l.expr).print unit ↔ c = d) := by
  have plain₁ := lower_isPlain library c encoded₁.known legible₁
  have plain₂ := lower_isPlain library d encoded₂.known legible₂
  constructor
  · obtain ⟨text, printed, -⟩ := plain₁.readable unit
    exact ⟨text, printed⟩
  · constructor
    · intro same
      have equal := plain₁.eq_of_print_eq unit plain₂ same
      have read := ofExpr_lower c encoded₁.known legible₁
      rw [equal, ofExpr_lower d encoded₂.known legible₂] at read
      exact (Option.some.inj read).symm
    · rintro rfl
      rfl

end

end Descriptor

/-- An object with a reference, an integer, and a property that may hold one of the given texts. -/
def kindType (texts : List String) : Ty :=
  .object ⟨[⟨"kind of", .union (texts.map fun text => .string text .unknown) .unknown, true, .unknown⟩,
    ⟨"owner", .named ⟨⟨["Model", "User"]⟩, none, .unknown⟩, false, .unknown⟩,
    ⟨"version", .number (.int (-2)) .unknown, false, .unknown⟩], [], .unknown⟩

def kindOf (texts : List String) : Descriptor :=
  .interface [("kind of", .maybe (.enums texts none) none),
    ("owner", .reference (.ofName ⟨["Model", "User"]⟩)), ("version", .literal (.int (-2)) none)]
    (some "T")

theorem kindOf_legible (texts : List String) :
    (kindOf texts).All (Descriptor.Atom.Legible (.exported "tf")) := by
  have admitted : (LibraryForm.exported "tf").Admits ⟨["Model", "User"]⟩ :=
    ⟨"Model", ["User"], rfl, by decide, by decide⟩
  simp only [Descriptor.All, kindOf, Descriptor.atoms, Descriptor.propAtoms, List.cons_append,
    List.nil_append, List.forall_mem_cons, Descriptor.Atom.Legible]
  exact ⟨by decide, by decide, ⟨_, rfl, admitted⟩, by decide, ⟨-2, rfl⟩, by simp⟩

/-- A text that looks like two is told apart from them. -/
theorem kindOf_print_ne :
    ((kindOf ["a", "b"]).lower (LibraryForm.exported "tf").expr).print defaultUnit
      ≠ ((kindOf ["a\", \"b"]).lower (LibraryForm.exported "tf").expr).print defaultUnit := by
  have library : (LibraryForm.exported "tf").IsPlain := by
    rintro s ⟨rfl⟩
    decide
  have two : (kindOf ["a", "b"]).Encoded := .inl ⟨[], some "T", kindType ["a", "b"], rfl⟩
  have one : (kindOf ["a\", \"b"]).Encoded := .inl ⟨[], some "T", kindType ["a\", \"b"], rfl⟩
  have differ := (Descriptor.print_lower_eq_iff library defaultUnit two one (kindOf_legible _)
    (kindOf_legible _)).2
  intro same
  simpa [kindOf] using differ.1 same

end TypeGuard
