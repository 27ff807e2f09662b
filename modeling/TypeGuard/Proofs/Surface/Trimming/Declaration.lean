import TypeGuard.Proofs.Surface.Trimming.Function

/-!
# Declarations are read like their trimmed forms

Imports, type aliases and interfaces. An alias and an interface refuse further items, and which of
their items stand for type parameters or supertypes is seen from their tags.
-/

namespace TypeGuard

namespace Form

section
variable {file tag : String} {items : List Form} {position : Position}

/-! ## Object shapes and references -/

/-- An object form that stands for itself. -/
theorem reads_shape (file : String) (form : Form) : Reads (ObjectShape.ofForm file) .type form := by
  by_cases object : form.head? = some "object"
  · obtain ⟨members, position, rfl⟩ := eq_list_of_head? object
    refine reads_each rfl (fun _ => rfl)
      (k := fun parts => pure ⟨parts.1, parts.2, position.inFile file⟩) (fun _ => .refl _)
      (readsItems_each membersOfForms_cons fun member _ => (typeReadings member).member)
  · have refused : ∀ form : Form, form.head? ≠ some "object" →
        ∀ a, ObjectShape.ofForm file form ≠ .ok a := by
      intro form other a
      cases form with
      | list items position =>
        rw [ObjectShape.ofForm, if_neg other]
        exact Position.refuse_ne_ok
      | symbol | text | number | quoted | brackets => exact Form.refuse_ne_ok
    exact ⟨.of_ne (refused _ (by rwa [head?_trim])) (refused form object),
      fun value => absurd value (refused form object _)⟩

theorem reads_reference (file : String) (form : Form) : Reads (TypeRef.ofForm file) .type form := by
  have annotation := reads_ty file form
  refine ⟨.bind annotation.alike fun type => ?_, fun value => ?_⟩
  · cases type with
    | named ref => exact .refl _
    | _ => exact .of_ne (fun a => Form.refuse_ne_ok) fun a => Form.refuse_ne_ok
  · obtain ⟨type, inside, -⟩ := bind_eq_ok_iff.1 value
    exact annotation.exact inside

/-! ## Imports -/

theorem reads_specifier_tagged :
    Reads (ImportSpecifier.ofForm file) .specifier (.list (.symbol tag :: items) position) := by
  have hs : ∀ form ∈ items, Reads asSymbol .atom form := fun form _ => reads_asSymbol .atom form
  have short : ∀ a, ImportSpecifier.ofForm file (.list [.symbol tag] position) ≠ .ok a :=
    fun _ => Position.refuse_ne_ok
  cases kind : ImportKind.ofKeyword tag with
  | default =>
    refine reads_one rfl (fun _ => ?_) (k := fun name => pure ⟨.default, name, none⟩)
      (fun name more => ?_) short hs
    · simp [production, specifierProduction, kind]
    · simp only [ImportSpecifier.ofForm, head?, Option.getD_some, kind]
      exact .refl _
  | everything =>
    refine reads_one rfl (fun _ => ?_) (k := fun name => pure ⟨.everything, name, none⟩)
      (fun name more => ?_) short hs
    · simp [production, specifierProduction, kind]
    · simp only [ImportSpecifier.ofForm, head?, Option.getD_some, kind]
      exact .refl _
  | named =>
    refine reads_optional rfl (fun _ => ?_) (k := fun name => pure ⟨.named, name, some name⟩)
      (m := fun name localName => pure ⟨.named, localName, some name⟩) (fun name => ?_)
      (fun name localName more => ?_) short hs hs
    · simp [production, specifierProduction, kind]
    · simp only [ImportSpecifier.ofForm, head?, Option.getD_some, kind]
      exact .refl _
    · simp only [ImportSpecifier.ofForm, head?, Option.getD_some, kind]
      exact .refl _
  | other keyword =>
    refine reads_of_ne ?_ fun a => ?_
    · simp [trim, trimTagged, Role.each?, production, specifierProduction, kind]
    · cases items with
      | nil => exact short a
      | cons name more => simp [ImportSpecifier.ofForm, head?, kind]

theorem reads_specifier (file : String) (form : Form) :
    Reads (ImportSpecifier.ofForm file) .specifier form := by
  match form with
  | .list (.symbol tag :: items) position => exact reads_specifier_tagged
  | .list [] _ => exact reads_of_ne rfl fun a => Position.refuse_ne_ok
  | .list (.list _ _ :: items) _ | .list (.text _ :: items) _ | .list (.number _ :: items) _
  | .list (.quoted _ :: items) _ | .list (.brackets _ :: items) _ =>
    refine reads_of_ne rfl fun a => ?_
    cases items <;> exact Position.refuse_ne_ok
  | .symbol _ | .text _ | .number _ | .quoted _ | .brackets _ => exact reads_of_exact rfl

theorem readsItems_import (position : Position) (source : Form) :
    ReadsItems (ImportDecl.ofItems file position) [.atom] (.each .specifier) (source :: items) := by
  refine readsItems_cons (fun source items => ?_) (reads_asString .atom source) fun source =>
    (readsItems_mapM fun form _ => reads_specifier file form).bind fun specifiers =>
      pure ⟨source, specifiers, position.inFile file⟩
  exact .swap _ _ _

/-! ## Type aliases -/

/-- Reads the one item that is left. -/
def readSingle {α : Type} (read : Form → Except ParseError α) (refusal : Except ParseError α) :
    List Form → Except ParseError α
  | [form] => read form
  | _ => refusal

theorem readsItems_single {α : Type} {read : Form → Except ParseError α}
    {refusal : Except ParseError α} {r : Role} (refused : ∀ a, refusal ≠ .ok a)
    (h : ∀ form, Reads read r form) : ReadsItems (readSingle read refusal) [r] .refused items := by
  match items with
  | [] => exact readsItems_nil
  | [form] =>
    refine ⟨(h form).alike, fun value => ?_⟩
    simp [trimItems, isExactItems, (h form).exact value]
  | _ :: _ :: _ => exact ⟨.of_ne refused refused, fun value => absurd value (refused _)⟩

/-- Two ways of reading that are alike on lists whose first item has a given tag. -/
theorem ReadsItems.of_tagged {α : Type} {readItems readOthers : List Form → Except ParseError α}
    {r : Role} {roles : List Role} {remainder : Remainder} {form : Form}
    (h : ReadsItems readOthers (r :: roles) remainder (form :: items))
    (same : ∀ other items, other.head? = form.head? →
      Alike (readItems (other :: items)) (readOthers (other :: items))) :
    ReadsItems readItems (r :: roles) remainder (form :: items) :=
  h.of_alike (same form items rfl) (same _ _ (head?_trim r form))

theorem alias_name_ne_ok {name : Form} (h : ∀ symbol, name ≠ .symbol symbol) (a : TypeAlias) :
    TypeAlias.ofItems file position (name :: items) ≠ .ok a := by
  cases items with
  | nil => exact Position.refuse_ne_ok
  | cons first more =>
    cases name with
    | symbol name => exact absurd rfl (h name)
    | list | text | number | quoted | brackets => simp [TypeAlias.ofItems, asSymbol, bind_eq_ok_iff]

theorem alias_ne_ok (few : items.length < (aliasRoles (items.drop 1)).length + 1) (a : TypeAlias) :
    TypeAlias.ofItems file position items ≠ .ok a := by
  match items with
  | [] | [_] => exact Position.refuse_ne_ok
  | name :: first :: more =>
    by_cases generics : first.head? = some "generics"
    · obtain rfl : more = [] := by
        simp only [List.drop_succ_cons, List.drop_zero, aliasRoles, generics, if_true,
          List.length_cons, List.length_nil] at few
        exact List.eq_nil_of_length_eq_zero (by omega)
      simp [TypeAlias.ofItems, generics, bind_eq_ok_iff]
    · simp only [List.drop_succ_cons, List.drop_zero, aliasRoles, generics, if_false,
        List.length_cons, List.length_nil] at few
      omega

/-- The annotation of an alias is its last item. -/
theorem readsItems_alias (name : String) :
    ReadsItems (fun items => TypeAlias.ofItems file position (.symbol name :: items))
      (aliasRoles items) .refused items := by
  let refusal : Except ParseError TypeAlias := position.refuse file (.notOneType name)
  let readRight (typeParams : List String) (form : Form) : Except ParseError TypeAlias := do
    let right ← Ty.ofForm file form
    return ⟨name, right, typeParams, position.inFile file⟩
  have refused : ∀ a, refusal ≠ .ok a := fun a => Position.refuse_ne_ok
  have right : ∀ typeParams items,
      ReadsItems (readSingle (readRight typeParams) refusal) [.type] .refused items :=
    fun _ _ => readsItems_single refused fun form => (reads_ty file form).bind _
  match items with
  | [] => exact readsItems_nil
  | first :: more =>
    by_cases generics : first.head? = some "generics"
    · have roles : aliasRoles (first :: more) = [.generics, .type] := if_pos generics
      rw [roles]
      refine readsItems_tagged (fun other items same => ?_) (reads_generics generics)
        fun typeParams => right typeParams more
      have tag := same.trans generics
      match items with
      | [type] =>
        simp only [TypeAlias.ofItems, asSymbol, tag, if_true]
        exact .swap (typeParamsOfForm (some other)) (Ty.ofForm file type) fun typeParams right =>
          pure (TypeAlias.mk name right typeParams (position.inFile file))
      | [] | _ :: _ :: _ =>
        refine .of_ne (by simp [TypeAlias.ofItems, tag, asSymbol, bind_eq_ok_iff]) ?_
        simp [readSingle, bind_eq_ok_iff, refused]
    · have roles : aliasRoles (first :: more) = [.type] := if_neg generics
      rw [roles]
      refine (right [] (first :: more)).of_tagged fun other items same => ?_
      have tag : other.head? ≠ some "generics" := same ▸ generics
      cases items with
      | nil =>
        simp only [TypeAlias.ofItems, asSymbol, tag, if_false]
        exact .refl _
      | cons second more =>
        exact .of_ne (by simp [TypeAlias.ofItems, tag, asSymbol, bind_eq_ok_iff]) refused

/-! ## Interfaces -/

/-- Reads the supertypes of an interface. -/
def supertypesOfForm (file : String) : Option Form → Except ParseError (List (TypeRef Ty))
  | some (.list (_ :: refs) _) => refs.mapM (TypeRef.ofForm file)
  | _ => .ok []

theorem reads_supertypes {form : Form} (h : form.head? = some "extends") :
    Reads (fun form => supertypesOfForm file (some form)) .supertypes form := by
  obtain ⟨refs, position, rfl⟩ := eq_list_of_head? h
  refine reads_each rfl (fun _ => rfl) (k := pure) (fun refs => ?_)
    (readsItems_mapM fun form _ => reads_reference file form)
  rw [bind_pure]
  exact .refl _

theorem interface_name_ne_ok {name : Form} (h : ∀ symbol, name ≠ .symbol symbol)
    (a : InterfaceDecl) : InterfaceDecl.ofItems file position (name :: items) ≠ .ok a := by
  cases items with
  | nil => exact Position.refuse_ne_ok
  | cons first more =>
    cases name with
    | symbol name => exact absurd rfl (h name)
    | list | text | number | quoted | brackets =>
      simp [InterfaceDecl.ofItems, asSymbol, bind_eq_ok_iff]

/-- Reads the body of an interface, which is the one item that is left. -/
def interfaceShape (file : String) (position : Position) (name : String) (typeParams : List String)
    (supertypes : List (TypeRef Ty)) : List Form → Except ParseError InterfaceDecl :=
  readSingle (fun form => do
      let shape ← ObjectShape.ofForm file form
      return ⟨name, .object shape, supertypes, typeParams, position.inFile file⟩)
    (position.refuse file (.noInterfaceBody name))

/-- Reads the items of an interface behind its name and its type parameters. -/
def interfaceBody (file : String) (position : Position) (name : String) (typeParams : List String) :
    List Form → Except ParseError InterfaceDecl
  | [] => position.refuse file (.noInterfaceBody name)
  | first :: more =>
    if first.head? = some "extends" then do
      let supertypes ← supertypesOfForm file (some first)
      interfaceShape file position name typeParams supertypes more
    else interfaceShape file position name typeParams [] (first :: more)

theorem readsItems_interfaceBody (name : String) (typeParams : List String) :
    ReadsItems (interfaceBody file position name typeParams) (interfaceBodyRoles items) .refused
      items := by
  have shape : ∀ supertypes items, ReadsItems
      (interfaceShape file position name typeParams supertypes) [.type] .refused items :=
    fun _ _ => readsItems_single (fun a => Position.refuse_ne_ok)
      fun form => (reads_shape file form).bind _
  match items with
  | [] => exact readsItems_nil
  | first :: more =>
    by_cases supertypes : first.head? = some "extends"
    · have roles : interfaceBodyRoles (first :: more) = [.supertypes, .type] := if_pos supertypes
      rw [roles]
      refine readsItems_tagged (fun other items same => ?_)
        (@reads_supertypes file first supertypes) fun supertypes => shape supertypes more
      rw [interfaceBody, if_pos (same.trans supertypes)]
      exact .refl _
    · have roles : interfaceBodyRoles (first :: more) = [.type] := if_neg supertypes
      rw [roles]
      refine (shape [] (first :: more)).of_tagged fun other items same => ?_
      rw [interfaceBody, if_neg (same ▸ supertypes)]
      exact .refl _

/-- Reads the items of an interface in the order in which they are reported. -/
def interfaceItems (file : String) (position : Position) (name : String) (generics : Option Form)
    (items : List Form) : Except ParseError InterfaceDecl :=
  let supertypes := items.head?.filter (·.head? == some "extends")
  match if supertypes.isSome then items.drop 1 else items with
  | [body] => do
    let body ← ObjectShape.ofForm file body
    let supertypes ← match supertypes with
      | some (.list (_ :: refs) _) => refs.mapM (TypeRef.ofForm file)
      | _ => pure []
    return ⟨name, .object body, supertypes, ← typeParamsOfForm generics, position.inFile file⟩
  | _ => position.refuse file (.noInterfaceBody name)

theorem ofItems_interface (name : String) (first : Form) (more : List Form) :
    InterfaceDecl.ofItems file position (.symbol name :: first :: more)
      = if first.head? = some "generics" then interfaceItems file position name (some first) more
        else interfaceItems file position name none (first :: more) := by
  by_cases generics : first.head? = some "generics"
  · rw [if_pos generics]
    simp only [InterfaceDecl.ofItems, List.head?_cons, Option.filter_some, generics,
      beq_self_eq_true, if_true, Option.isSome_some, List.drop_succ_cons, List.drop_zero]
    rfl
  · rw [if_neg generics]
    have other : (first.head? == some "generics") = false := by simpa using generics
    simp only [InterfaceDecl.ofItems, List.head?_cons, Option.filter_some, other,
      Bool.false_eq_true, if_false, Option.isSome_none]
    rfl

theorem alike_interfaceItems (name : String) (generics : Option Form) :
    Alike (interfaceItems file position name generics items) (do
      let typeParams ← typeParamsOfForm generics
      interfaceBody file position name typeParams items) := by
  rcases items with _ | ⟨first, more⟩
  · exact .of_ne (fun a => Position.refuse_ne_ok) (by simp [interfaceBody, bind_eq_ok_iff])
  · by_cases supertypes : first.head? = some "extends"
    · rcases more with _ | ⟨body, _ | ⟨second, more⟩⟩
      case cons.nil =>
        obtain ⟨refs, p, rfl⟩ := eq_list_of_head? supertypes
        simp only [interfaceItems, List.head?_cons, Option.filter_some, supertypes,
          beq_self_eq_true, if_true, Option.isSome_some, List.drop_succ_cons, List.drop_zero,
          interfaceBody]
        exact .reverse (typeParamsOfForm generics) (refs.mapM (TypeRef.ofForm file))
          (ObjectShape.ofForm file body) fun typeParams supertypes body =>
            pure (InterfaceDecl.mk name (.object body) supertypes typeParams (position.inFile file))
      all_goals
        refine .of_ne ?_ ?_
        · simp [interfaceItems, supertypes]
        · simp [interfaceBody, interfaceShape, readSingle, supertypes, bind_eq_ok_iff]
    · cases more with
      | nil =>
        have other : (first.head? == some "extends") = false := by simpa using supertypes
        simp only [interfaceItems, List.head?_cons, Option.filter_some, other, Bool.false_eq_true,
          if_false, Option.isSome_none, interfaceBody, supertypes]
        exact .swap (typeParamsOfForm generics) (ObjectShape.ofForm file first)
          fun typeParams body =>
            pure (InterfaceDecl.mk name (.object body) [] typeParams (position.inFile file))
      | cons second more =>
        refine .of_ne ?_ ?_
        · simp [interfaceItems, supertypes]
        · simp [interfaceBody, interfaceShape, readSingle, supertypes, bind_eq_ok_iff]

theorem interfaceBody_ne_ok {name : String} {typeParams : List String}
    (few : items.length < (interfaceBodyRoles items).length) (a : InterfaceDecl) :
    interfaceBody file position name typeParams items ≠ .ok a := by
  match items with
  | [] => exact Position.refuse_ne_ok
  | first :: more =>
    by_cases supertypes : first.head? = some "extends"
    · obtain rfl : more = [] := by
        simp only [interfaceBodyRoles, supertypes, if_true, List.length_cons,
          List.length_nil] at few
        exact List.eq_nil_of_length_eq_zero (by omega)
      simp [interfaceBody, supertypes, interfaceShape, readSingle, bind_eq_ok_iff]
    · simp [interfaceBodyRoles, supertypes] at few

theorem interface_ne_ok (few : items.length < (interfaceRoles (items.drop 1)).length + 1)
    (a : InterfaceDecl) : InterfaceDecl.ofItems file position items ≠ .ok a := by
  match items with
  | [] | [_] => exact Position.refuse_ne_ok
  | name :: first :: more =>
    by_cases named : ∃ symbol, name = .symbol symbol
    · obtain ⟨symbol, rfl⟩ := named
      intro value
      rw [ofItems_interface] at value
      by_cases generics : first.head? = some "generics"
      · rw [if_pos generics, alike_interfaceItems symbol (some first) a] at value
        obtain ⟨typeParams, -, value⟩ := bind_eq_ok_iff.1 value
        refine interfaceBody_ne_ok ?_ a value
        simp only [List.drop_succ_cons, List.drop_zero, interfaceRoles, generics, if_true,
          List.length_cons] at few
        omega
      · rw [if_neg generics, alike_interfaceItems symbol none a] at value
        obtain ⟨typeParams, -, value⟩ := bind_eq_ok_iff.1 value
        refine interfaceBody_ne_ok ?_ a value
        simp only [List.drop_succ_cons, List.drop_zero, interfaceRoles, generics, if_false,
          List.length_cons] at few ⊢
        omega
    · exact interface_name_ne_ok (fun symbol same => named ⟨symbol, same⟩) a

theorem readsItems_interface (name : String) :
    ReadsItems (fun items => InterfaceDecl.ofItems file position (.symbol name :: items))
      (interfaceRoles items) .refused items := by
  match items with
  | [] => exact readsItems_nil
  | first :: more =>
    by_cases generics : first.head? = some "generics"
    · have roles : interfaceRoles (first :: more) = .generics :: interfaceBodyRoles more :=
        if_pos generics
      rw [roles]
      exact readsItems_tagged
        (fun other items same => by
          rw [ofItems_interface, if_pos (same.trans generics)]
          exact alike_interfaceItems name (some other))
        (reads_generics generics) fun typeParams => readsItems_interfaceBody name typeParams
    · have roles : interfaceRoles (first :: more) = interfaceBodyRoles (first :: more) :=
        if_neg generics
      rw [roles]
      have behind := @readsItems_interfaceBody file (first :: more) position name []
      obtain ⟨role, others, same⟩ : ∃ role others,
          interfaceBodyRoles (first :: more) = role :: others := by
        unfold interfaceBodyRoles
        dsimp only
        split <;> exact ⟨_, _, rfl⟩
      rw [same] at behind ⊢
      refine behind.of_tagged fun other items tag => ?_
      rw [ofItems_interface, if_neg (tag ▸ generics)]
      exact alike_interfaceItems name none

end

end Form

end TypeGuard
