import TypeGuard.Proofs.Surface.Trimming.Basic

/-!
# Annotations are read like their trimmed forms

In every place for types a form is read like its trimmed form (`Form.typeReadings`).
-/

namespace TypeGuard

namespace Form

section
variable {file : String} {tag : String} {args items : List Form} {position : Position}

/-- The form is read like its trimmed form in every place for types. -/
structure TypeReadings (file : String) (form : Form) : Prop where
  type : Reads (Ty.ofForm file) .type form
  types : Reads (fun form => form.asList >>= Ty.ofForms file) .types form
  member : Reads (fun form => Ty.membersOfForms file [form]) .member form

section
variable (key value : Form) (more forms : List Form)

theorem membersOfForms_prop (h : tag = "prop" ∨ tag = "prop?") :
    Ty.membersOfForms file (.list (.symbol tag :: key :: value :: more) position :: forms) = do
      let name ← key.asSymbol
      let type ← Ty.ofForm file value
      let others ← Ty.membersOfForms file forms
      return (⟨name, type, tag == "prop?", position.inFile file⟩ :: others.1, others.2) := by
  rcases h with rfl | rfl <;> rfl

theorem membersOfForms_indexer :
    Ty.membersOfForms file (.list [.symbol "indexer", key, value] position :: forms) = do
      let key ← Ty.ofForm file key
      let value ← Ty.ofForm file value
      let others ← Ty.membersOfForms file forms
      return (others.1, ⟨key, value, none, position.inFile file⟩ :: others.2) := rfl

theorem membersOfForms_namedIndexer (id : Form) :
    Ty.membersOfForms file (.list [.symbol "indexer", id, key, value] position :: forms) = do
      let id ← id.asSymbol
      let key ← Ty.ofForm file key
      let value ← Ty.ofForm file value
      let others ← Ty.membersOfForms file forms
      return (others.1, ⟨key, value, some id, position.inFile file⟩ :: others.2) := rfl

end

/-- The members that can be read, whatever follows them. -/
theorem member_cases (file : String) (form : Form) :
    (∃ tag key value more position, (tag = "prop" ∨ tag = "prop?") ∧
      form = .list (.symbol tag :: key :: value :: more) position) ∨
    (∃ key value position, form = .list [.symbol "indexer", key, value] position) ∨
    (∃ id key value position, form = .list [.symbol "indexer", id, key, value] position) ∨
    ∀ forms a, Ty.membersOfForms file (form :: forms) ≠ .ok a := by
  match form with
  | .list (.symbol tag :: parts) position =>
    by_cases prop : tag = "prop" ∨ tag = "prop?"
    · match parts with
      | key :: value :: more => exact .inl ⟨tag, key, value, more, position, prop, rfl⟩
      | [] | [_] =>
        refine .inr (.inr (.inr fun forms a => ?_))
        rcases prop with rfl | rfl <;> exact Position.refuse_ne_ok
    · by_cases indexer : tag = "indexer"
      · subst indexer
        match parts with
        | [key, value] => exact .inr (.inl ⟨key, value, position, rfl⟩)
        | [id, key, value] => exact .inr (.inr (.inl ⟨id, key, value, position, rfl⟩))
        | [] | [_] | _ :: _ :: _ :: _ :: _ =>
          exact .inr (.inr (.inr fun forms a => Position.refuse_ne_ok))
      · refine .inr (.inr (.inr fun forms a => ?_))
        unfold Ty.membersOfForms
        rw [if_neg prop, if_neg indexer]
        exact Position.refuse_ne_ok
  | .list [] _ | .list (.list _ _ :: _) _ | .list (.text _ :: _) _ | .list (.number _ :: _) _
  | .list (.quoted _ :: _) _ | .list (.brackets _ :: _) _ | .symbol _ | .text _ | .number _
  | .quoted _ | .brackets _ => exact .inr (.inr (.inr fun forms a => Form.refuse_ne_ok))

/-- The members of an object are read one by one. -/
theorem membersOfForms_cons (form : Form) (forms : List Form) :
    Alike (Ty.membersOfForms file (form :: forms)) (do
      let first ← Ty.membersOfForms file [form]
      let others ← Ty.membersOfForms file forms
      return (first.1 ++ others.1, first.2 ++ others.2)) := by
  obtain ⟨tag, key, value, more, position, prop, rfl⟩ | ⟨key, value, position, rfl⟩
    | ⟨id, key, value, position, rfl⟩ | refused := member_cases file form
  · simp only [membersOfForms_prop _ _ _ _ prop, bind_assoc]
    exact .refl _
  · simp only [membersOfForms_indexer, bind_assoc]
    exact .refl _
  · simp only [membersOfForms_namedIndexer, bind_assoc]
    exact .refl _
  · refine .of_ne (refused forms) ?_
    simp [bind_eq_ok_iff, refused []]

/-- The type of a name. What else stands behind `typeof` is refused, by whatever error. -/
def typeofNamed (loc : Location) : Ty → Except ParseError Ty
  | .named ref => .ok (.typeof ref loc)
  | _ => .error (.misshapen .noParams none)

theorem reads_type (h : ∀ form ∈ args, TypeReadings file form) :
    Reads (Ty.ofForm file) .type (.list (.symbol tag :: args) position) := by
  have one : ∀ form ∈ args, Reads (Ty.ofForm file) .type form := fun form mem => (h form mem).type
  have all : ReadsItems (Ty.ofForms file) [] (.each .type) args :=
    readsItems_each (fun _ _ => .refl _) one
  let loc := position.inFile file
  cases known : TypeTag.ofName? tag with
  | none =>
    refine reads_each (k := fun types => do
      return .named ⟨← QualifiedName.ofString tag, some types, loc⟩) rfl ?_ (fun args => ?_) all
    · simp [production, typeProduction, known]
    · simp only [Ty.ofForm, known]
      exact .swap _ _ _
  | some found =>
    cases found with
    | array =>
      refine reads_one (k := fun type => .ok (.array type loc)) rfl ?_ (fun form more => ?_) ?_ one
      · simp [production, typeProduction, known]
      · simp only [Ty.ofForm, known]
        exact .refl _
      · simp [Ty.ofForm, known]
    | maybe =>
      refine reads_one (k := fun type => .ok (.nullable type loc)) rfl ?_ (fun form more => ?_) ?_
        one
      · simp [production, typeProduction, known]
      · simp only [Ty.ofForm, known]
        exact .refl _
      · simp [Ty.ofForm, known]
    | tuple =>
      refine reads_each (k := fun types => .ok (.tuple types loc)) rfl ?_ (fun args => ?_) all
      · simp [production, typeProduction, known]
      · simp only [Ty.ofForm, known]
        exact .refl _
    | union =>
      refine reads_some (k := fun types => .ok (.union types loc)) rfl ?_ (fun form args => ?_) ?_
        all
      · simp [production, typeProduction, known]
      · simp only [Ty.ofForm, Ty.ofForms, known, bind_assoc, pure_bind]
        exact .refl _
      · simp [Ty.ofForm, known]
    | intersection =>
      refine reads_some (k := fun types => .ok (.intersection types loc)) rfl ?_
        (fun form args => ?_) ?_ all
      · simp [production, typeProduction, known]
      · simp only [Ty.ofForm, Ty.ofForms, known, bind_assoc, pure_bind]
        exact .refl _
      · simp [Ty.ofForm, known]
    | object =>
      have members : ReadsItems (Ty.membersOfForms file) [] (.each .member) args :=
        readsItems_each membersOfForms_cons fun form mem => (h form mem).member
      refine reads_each (k := fun members => .ok (.object ⟨members.1, members.2, loc⟩)) rfl ?_
        (fun args => ?_) members
      · simp [production, typeProduction, known]
      · simp only [Ty.ofForm, known]
        exact .refl _
    | fn =>
      refine reads_two
        (k := fun params result => .ok (.function (params.map ({ type := · })) result loc))
        rfl ?_ (fun form form' more => ?_) (fun args short => ?_)
        (fun form mem => (h form mem).types) one
      · simp [production, typeProduction, known]
      · cases form with
        | list params _ =>
          simp only [Ty.ofForm, known]
          exact .refl _
        | _ =>
          refine .of_ne ?_ ?_
          · simp [Ty.ofForm, known]
          · simp [asList, bind_eq_ok_iff]
      · rcases args with _ | ⟨form, _ | ⟨form', more⟩⟩
        · simp [Ty.ofForm, known]
        · simp [Ty.ofForm, known]
        · simp only [List.length_cons] at short
          omega
    | typeof =>
      refine reads_one (k := typeofNamed loc) rfl ?_ (fun form more => ?_) ?_ one
      · simp [production, typeProduction, known]
      · simp only [Ty.ofForm, known]
        refine .bind (.refl _) fun type => ?_
        cases type with
        | named ref => exact .refl _
        | _ => exact .of_ne (by simp) (by simp [typeofNamed])
      · simp [Ty.ofForm, known]

theorem reads_types (h : ∀ form ∈ items, TypeReadings file form) :
    Reads (fun form => form.asList >>= Ty.ofForms file) .types (.list items position) :=
  reads_untagged rfl
    (readsItems_each (fun _ _ => .refl _) fun form mem => (h form mem).type)

theorem reads_prop (known : tag = "prop" ∨ tag = "prop?")
    (h : ∀ form ∈ args, TypeReadings file form) :
    Reads (fun form => Ty.membersOfForms file [form]) .member
      (.list (.symbol tag :: args) position) := by
  refine reads_two
    (k := fun name type => .ok ([⟨name, type, tag == "prop?", position.inFile file⟩], []))
    rfl ?_ (fun key value more => ?_) (fun args short a => ?_)
    (fun form _ => reads_asSymbol .atom form) (fun form mem => (h form mem).type)
  · simp [production, memberProduction, known]
  · rw [membersOfForms_prop _ _ _ _ known]
    exact .refl _
  · match args, short with
    | [], _ | [_], _ => rcases known with rfl | rfl <;> exact Position.refuse_ne_ok

theorem reads_indexer (h : ∀ form ∈ args, TypeReadings file form) :
    Reads (fun form => Ty.membersOfForms file [form]) .member
      (.list (.symbol "indexer" :: args) position) := by
  match args, h with
  | [key, value], h =>
    have hk := (h key (by simp)).type
    have hv := (h value (by simp)).type
    have trimmed : (Form.list [.symbol "indexer", key, value] position).trim .member
        = .list [.symbol "indexer", key.trim .type, value.trim .type] position := by
      simp [trim, trimTagged, Role.each?, production, memberProduction, Production.exactly,
        trimItems]
    refine ⟨?_, fun accepted => ?_⟩
    · rw [trimmed, membersOfForms_indexer, membersOfForms_indexer]
      exact hk.alike.bind fun _ => hv.alike.bind fun _ => .refl _
    · rw [membersOfForms_indexer] at accepted
      obtain ⟨_, first, accepted⟩ := bind_eq_ok_iff.1 accepted
      obtain ⟨_, second, -⟩ := bind_eq_ok_iff.1 accepted
      rw [trimmed]
      simp [isExact, isExactTagged, Role.each?, production, memberProduction, Production.exactly,
        isExactItems, hk.exact first, hv.exact second]
  | [id, key, value], h =>
    have hi := reads_asSymbol .atom id
    have hk := (h key (by simp)).type
    have hv := (h value (by simp)).type
    have trimmed : (Form.list [.symbol "indexer", id, key, value] position).trim .member
        = .list [.symbol "indexer", id.trim .atom, key.trim .type, value.trim .type] position := by
      simp [trim, trimTagged, Role.each?, production, memberProduction, Production.exactly,
        trimItems]
    refine ⟨?_, fun accepted => ?_⟩
    · rw [trimmed, membersOfForms_namedIndexer, membersOfForms_namedIndexer]
      exact hi.alike.bind fun _ => hk.alike.bind fun _ => hv.alike.bind fun _ => .refl _
    · rw [membersOfForms_namedIndexer] at accepted
      obtain ⟨_, name, accepted⟩ := bind_eq_ok_iff.1 accepted
      obtain ⟨_, first, accepted⟩ := bind_eq_ok_iff.1 accepted
      obtain ⟨_, second, -⟩ := bind_eq_ok_iff.1 accepted
      rw [trimmed]
      simp [isExact, isExactTagged, Role.each?, production, memberProduction, Production.exactly,
        isExactItems, hi.exact name, hk.exact first, hv.exact second]
  | [], _ | [_], _ | _ :: _ :: _ :: _ :: _, _ =>
    refine ⟨.of_ne (fun a => ?_) fun a => Position.refuse_ne_ok,
      fun accepted => absurd accepted Position.refuse_ne_ok⟩
    simp only [trim, trimTagged, Role.each?, production, memberProduction, Production.exactly,
      trimItems]
    exact Position.refuse_ne_ok

theorem reads_member (h : ∀ form ∈ args, TypeReadings file form) :
    Reads (fun form => Ty.membersOfForms file [form]) .member
      (.list (.symbol tag :: args) position) := by
  by_cases prop : tag = "prop" ∨ tag = "prop?"
  · exact reads_prop prop h
  · by_cases indexer : tag = "indexer"
    · subst indexer
      exact reads_indexer h
    · have untouched : (Form.list (.symbol tag :: args) position).trim .member
          = .list (.symbol tag :: args) position := by
        simp [trim, trimTagged, Role.each?, production, memberProduction, prop, indexer]
      refine reads_of_ne untouched fun a => ?_
      unfold Ty.membersOfForms
      rw [if_neg prop, if_neg indexer]
      exact Position.refuse_ne_ok

/-- Every form is read like its trimmed form in the places for types. -/
theorem typeReadings_list (h : ∀ form ∈ items, TypeReadings file form) :
    TypeReadings file (.list items position) := by
  match items, h with
  | .symbol tag :: args, h =>
    have inside := (List.forall_mem_cons.1 h).2
    exact ⟨reads_type inside, reads_types h, reads_member inside⟩
  | [], h | .list _ _ :: _, h | .text _ :: _, h | .number _ :: _, h | .quoted _ :: _, h
  | .brackets _ :: _, h =>
    exact ⟨reads_of_ne rfl fun a => Position.refuse_ne_ok, reads_types h,
      reads_of_ne rfl fun a => Form.refuse_ne_ok⟩

theorem typeReadings_atom {form : Form} (h : ∀ role, form.isExact role = true) :
    TypeReadings file form :=
  ⟨reads_of_exact (h _), reads_of_exact (h _), reads_of_exact (h _)⟩

mutual

theorem typeReadings : ∀ form : Form, TypeReadings file form
  | .list items _ => typeReadings_list (typeReadings_all items)
  | .symbol _ | .text _ | .number _ | .quoted _ | .brackets _ => typeReadings_atom fun _ => rfl

theorem typeReadings_all : ∀ (items : List Form), ∀ form ∈ items, TypeReadings file form
  | form :: forms => List.forall_mem_cons.2 ⟨typeReadings form, typeReadings_all forms⟩
  | [] => by simp

end

end

theorem reads_ty (file : String) (form : Form) : Reads (Ty.ofForm file) .type form :=
  (typeReadings form).type

end Form

end TypeGuard
