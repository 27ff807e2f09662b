import TypeGuard.Surface.Program

/-!
# The grammar of program forms

Which items a list may have, by the role that it plays in a program and by its tag. A form is exact
if every list in it has the items that its production asks for, and no others. Some productions
refuse further items and others pass over them: `Form.trim` leaves out what is passed over. Exact
forms have nothing to leave out (`Form.trim_eq_self`).
-/

namespace TypeGuard

namespace Form

/-- What a form is read as. -/
inductive Role where
  /-- A name, a text or a number. -/
  | atom
  | type
  | types
  | member
  | target
  | field
  | element
  | param
  | params
  | generics
  | returns
  | supertypes
  | expr
  | body
  | arrowBody
  | specifier
  | stmt
  | program
  deriving DecidableEq, Repr

/-- What becomes of the items behind those that have a role of their own. -/
inductive Remainder where
  /-- They are passed over. -/
  | ignored
  | refused
  /-- There may be any number, all of one role. -/
  | each (role : Role)
  deriving DecidableEq, Repr

/-- The items behind the tag of a list: those with a role of their own, of which the first ones are
required, and what may follow. In a pattern the last item may be for the rest of what is matched;
where there are such items in other places, the last of them counts. -/
structure Production where
  roles : List Role
  required : Nat
  remainder : Remainder
  pattern : Bool := false
  deriving DecidableEq, Repr

/-- A production all of whose roles are required. -/
def Production.exactly (roles : List Role) (remainder : Remainder) : Production :=
  ⟨roles, roles.length, remainder, false⟩

/-- The roles in a signature without type parameters and the body behind it. -/
def plainSignatureRoles (last : Role) : List Form → List Role
  | _ :: second :: _ =>
    if second.head? = some "returns" then [.params, .returns, last] else [.params, last]
  | _ => [.params, last]

/-- The roles in a signature and the body behind it. -/
def signatureRoles (last : Role) : List Form → List Role
  | [] => plainSignatureRoles last []
  | first :: items =>
    if first.head? = some "generics" then .generics :: plainSignatureRoles last items
    else plainSignatureRoles last (first :: items)

/-- The roles in a function that may have a name. -/
def functionRoles : List Form → List Role
  | .symbol _ :: items => .atom :: signatureRoles .body items
  | items => signatureRoles .body items

/-- The roles in a type alias behind its name. -/
def aliasRoles : List Form → List Role
  | [] => [.type]
  | first :: _ => if first.head? = some "generics" then [.generics, .type] else [.type]

/-- The roles in an interface behind its name and its type parameters. -/
def interfaceBodyRoles : List Form → List Role
  | [] => [.type]
  | first :: _ => if first.head? = some "extends" then [.supertypes, .type] else [.type]

/-- The roles in an interface behind its name. -/
def interfaceRoles : List Form → List Role
  | [] => interfaceBodyRoles []
  | first :: items =>
    if first.head? = some "generics" then .generics :: interfaceBodyRoles items
    else interfaceBodyRoles (first :: items)

def typeProduction (tag : String) : Production :=
  match TypeTag.ofName? tag with
  | some .array | some .maybe | some .typeof => .exactly [.type] .ignored
  | some .tuple | none => .exactly [] (.each .type)
  | some .union | some .intersection => .exactly [.type] (.each .type)
  | some .object => .exactly [] (.each .member)
  | some .fn => .exactly [.types, .type] .ignored

def memberProduction (tag : String) (items : List Form) : Option Production :=
  if tag = "prop" ∨ tag = "prop?" then some (.exactly [.atom, .type] .ignored)
  else if tag = "indexer" then
    if items.length = 2 then some (.exactly [.type, .type] .refused)
    else some (.exactly [.atom, .type, .type] .refused)
  else none

def targetProduction (tag : String) : Option Production :=
  if tag = "obj" then some ⟨[], 0, .each .field, true⟩
  else if tag = "arr" then some ⟨[], 0, .each .element, true⟩
  else none

def paramProduction (tag : String) : Option Production :=
  if tag = "default" then some (.exactly [.param, .expr] .ignored)
  else if tag = "param" ∨ tag = "rest" then some ⟨[.atom, .type], 1, .ignored, false⟩
  else if tag = "param?" then some (.exactly [.atom, .type] .ignored)
  else if tag = "pattern" then some ⟨[.target, .type], 1, .ignored, false⟩
  else none

def exprProduction (tag : String) (items : List Form) : Option Production :=
  match ExprTag.ofName? tag with
  | some .require => some (.exactly [.atom] .ignored)
  | some .function => some (.exactly (functionRoles items) .ignored)
  | some .arrow => some (.exactly (signatureRoles .arrowBody items) .ignored)
  | none => none

def stmtProduction (tag : String) (items : List Form) : Option Production :=
  match StmtTag.ofName? tag with
  | some .imports => some (.exactly [.atom] (.each .specifier))
  | some .typeAlias => some (.exactly (.atom :: aliasRoles (items.drop 1)) .refused)
  | some .interface => some (.exactly (.atom :: interfaceRoles (items.drop 1)) .refused)
  | some .function => some (.exactly (.atom :: signatureRoles .body (items.drop 1)) .refused)
  | some (.var .const) => some (.exactly [.target, .expr] .ignored)
  | some (.var _) => some ⟨[.target, .expr], 1, .ignored, false⟩
  | some .exports => some (.exactly [.stmt] .ignored)
  | some .ret => some ⟨[.expr], 0, .ignored, false⟩
  | some .raw => some (.exactly [.atom] .ignored)
  | none => none

def specifierProduction (tag : String) : Option Production :=
  match ImportKind.ofKeyword tag with
  | .default | .everything => some (.exactly [.atom] .ignored)
  | .named => some ⟨[.atom, .atom], 1, .ignored, false⟩
  | .other _ => none

/-- The role of all items of a list without a tag. -/
def Role.each? : Role → Option Role
  | .types => some .type
  | .params => some .param
  | _ => none

/-- The production of a list, by its tag and the items behind it. -/
def production (role : Role) (tag : String) (items : List Form) : Option Production :=
  match role with
  | .type => some (typeProduction tag)
  | .member => memberProduction tag items
  | .target => targetProduction tag
  | .field =>
    if tag = "default" then some (.exactly [.field, .expr] .ignored)
    else some (.exactly [.target] .ignored)
  | .element =>
    if tag = "default" then some (.exactly [.target, .expr] .ignored)
    else if tag = "rest" then some (.exactly [.atom] .ignored)
    else targetProduction tag
  | .param => paramProduction tag
  | .generics => some (.exactly [] (.each .atom))
  | .returns => some (.exactly [.type] .ignored)
  | .supertypes => some (.exactly [] (.each .type))
  | .expr => exprProduction tag items
  | .body | .program => some (.exactly [] (.each .stmt))
  | .arrowBody =>
    if tag = "body" then some (.exactly [] (.each .stmt)) else exprProduction tag items
  | .specifier => specifierProduction tag
  | .stmt => stmtProduction tag items
  | .atom | .types | .params => none

/-! ## Patterns -/

/-- The item of a pattern is for the rest of what is matched. -/
def isRest (form : Form) : Bool := form.head? == some "rest"

/-- The name in an item for the rest. -/
def restName? : Form → Option String
  | .list (_ :: .symbol name :: _) _ => some name
  | _ => none

/-- The last of the items for the rest. -/
def lastRest? (items : List Form) : Option Form := (items.filter (·.isRest)).getLast?

/-- Only the last item is for the rest. -/
def restLast (items : List Form) : Bool := items.dropLast.all (!·.isRest)

/-- The last of the items for the rest goes behind the others, and those before it go; unless one of
them has no name, so that the pattern is refused anyway. -/
def settle (items : List Form) : List Form :=
  if items.all (fun item => !item.isRest || item.restName?.isSome) then
    items.filter (!·.isRest) ++ (lastRest? items).toList
  else items

/-! ## Exact and trimmed forms -/

mutual

/-- Every list in the form has the items that its production asks for, and no others. -/
def isExact (role : Role) : Form → Bool
  | .list items _ =>
    match role.each? with
    | some each => isExactItems [] (.each each) items
    | none => isExactTagged role items
  | _ => true

def isExactTagged (role : Role) : List Form → Bool
  | .symbol tag :: items =>
    match production role tag items with
    | some p =>
      decide (p.required ≤ items.length) && isExactItems p.roles p.remainder items
        && (!p.pattern || restLast items)
    | none => false
  | _ => false

def isExactItems (roles : List Role) (remainder : Remainder) : List Form → Bool
  | [] => true
  | item :: items =>
    match roles, remainder with
    | role :: roles, remainder => isExact role item && isExactItems roles remainder items
    | [], .each role => isExact role item && isExactItems [] (.each role) items
    | [], .ignored | [], .refused => false

end

mutual

/-- The form without what is passed over in it. -/
def trim (role : Role) : Form → Form
  | .list items position =>
    match role.each? with
    | some each => .list (trimItems [] (.each each) items) position
    | none => .list (trimTagged role items) position
  | form => form

def trimTagged (role : Role) : List Form → List Form
  | .symbol tag :: items =>
    match production role tag items with
    | some p =>
      let items' := trimItems p.roles p.remainder items
      .symbol tag :: if p.pattern then settle items' else items'
    | none => .symbol tag :: items
  | items => items

def trimItems (roles : List Role) (remainder : Remainder) : List Form → List Form
  | [] => []
  | item :: items =>
    match roles, remainder with
    | role :: roles, remainder => trim role item :: trimItems roles remainder items
    | [], .each role => trim role item :: trimItems [] (.each role) items
    | [], .ignored => []
    | [], .refused => item :: items

end

/-- A list whose only item for the rest is the last one has settled. -/
theorem settle_eq_self {items : List Form} (h : restLast items = true) : settle items = items := by
  by_cases named : items.all (fun item => !item.isRest || item.restName?.isSome) = true
  · rw [settle, if_pos named]
    rcases List.eq_nil_or_concat items with rfl | ⟨front, last, rfl⟩
    · rfl
    · have others : ∀ item ∈ front, item.isRest = false := by simpa [restLast] using h
      have plain : front.filter (!·.isRest) = front := by
        simpa [List.filter_eq_self] using others
      have none : front.filter (·.isRest) = [] := by
        simpa [List.filter_eq_nil_iff] using others
      cases rest : last.isRest <;> simp [lastRest?, plain, none, rest]
  · rw [settle, if_neg named]

mutual

/-- Nothing is passed over in an exact form. -/
theorem trim_eq_self : ∀ {role : Role} {form : Form}, isExact role form = true →
    trim role form = form
  | role, .list items position, h => by
    rw [isExact] at h
    cases repeated : role.each? with
    | some each =>
      simp only [repeated] at h
      simp only [trim, repeated, trimItems_eq_self h]
    | none =>
      simp only [repeated] at h
      simp only [trim, repeated, trimTagged_eq_self h]
  | _, .symbol _, _ | _, .text _, _ | _, .number _, _ | _, .quoted _, _ | _, .brackets _, _ => rfl

theorem trimTagged_eq_self : ∀ {role : Role} {items : List Form}, isExactTagged role items = true →
    trimTagged role items = items
  | role, .symbol tag :: items, h => by
    cases found : production role tag items with
    | none => simp [isExactTagged, found] at h
    | some p =>
      simp only [isExactTagged, found, Bool.and_eq_true] at h
      obtain ⟨⟨-, inside⟩, settled⟩ := h
      simp only [trimTagged, found, trimItems_eq_self inside]
      split
      · next pattern => rw [settle_eq_self (by simpa [pattern] using settled)]
      · rfl
  | _, [], h | _, .list _ _ :: _, h | _, .text _ :: _, h | _, .number _ :: _, h
  | _, .quoted _ :: _, h | _, .brackets _ :: _, h => nomatch h

theorem trimItems_eq_self : ∀ {roles : List Role} {remainder : Remainder} {items : List Form},
    isExactItems roles remainder items = true → trimItems roles remainder items = items
  | _, _, [], _ => rfl
  | role :: roles, remainder, item :: items, h => by
    simp only [isExactItems, Bool.and_eq_true] at h
    rw [trimItems, trim_eq_self h.1, trimItems_eq_self h.2]
  | [], .each role, item :: items, h => by
    simp only [isExactItems, Bool.and_eq_true] at h
    rw [trimItems, trim_eq_self h.1, trimItems_eq_self h.2]
  | [], .ignored, _ :: _, h => nomatch h
  | [], .refused, _ :: _, _ => rfl

end

theorem trim_tagged {role : Role} (h : role.each? = none) (tag : String) (items : List Form)
    (position : Position) {p : Production} (found : production role tag items = some p) :
    (Form.list (.symbol tag :: items) position).trim role
      = .list (.symbol tag :: if p.pattern then settle (trimItems p.roles p.remainder items)
          else trimItems p.roles p.remainder items) position := by
  simp [trim, h, trimTagged, found]

/-- A list stays a list. -/
theorem trim_list (role : Role) (items : List Form) (position : Position) :
    ∃ items', (Form.list items position).trim role = .list items' position := by
  cases repeated : role.each? <;> simp [trim, repeated]

theorem eq_list_of_head? {form : Form} {tag : String} (h : form.head? = some tag) :
    ∃ items position, form = .list (.symbol tag :: items) position := by
  match form, h with
  | .list (.symbol _ :: items) position, rfl => exact ⟨items, position, rfl⟩

@[simp] theorem head?_trim (role : Role) (form : Form) : (form.trim role).head? = form.head? := by
  cases form with
  | list items position =>
    cases repeated : role.each? with
    | some each =>
      simp only [trim, repeated]
      match items with
      | [] => rfl
      | .list inner p :: _ =>
        obtain ⟨inner', same⟩ := trim_list each inner p
        simp [trimItems, same, head?]
      | .symbol _ :: _ | .text _ :: _ | .number _ :: _ | .quoted _ :: _ | .brackets _ :: _ => rfl
    | none =>
      simp only [trim, repeated]
      match items with
      | .symbol tag :: items =>
        simp only [trimTagged]
        split <;> rfl
      | [] | .list _ _ :: _ | .text _ :: _ | .number _ :: _ | .quoted _ :: _ | .brackets _ :: _ =>
        rfl
  | symbol | text | number | quoted | brackets => rfl

/-! ## The number of items and their roles -/

section
variable {roles : List Role} {remainder : Remainder} {items : List Form}

theorem length_trimItems_le : (trimItems roles remainder items).length ≤ items.length := by
  induction items generalizing roles with
  | nil => exact Nat.le_refl _
  | cons item items ih =>
    match roles, remainder with
    | role :: roles, remainder => exact Nat.succ_le_succ ih
    | [], .each role => exact Nat.succ_le_succ ih
    | [], .ignored => exact Nat.zero_le _
    | [], .refused => exact Nat.le_refl _

/-- Items with a role of their own are not passed over. -/
theorem le_length_trimItems {n : Nat} (enough : n ≤ items.length) (h : n ≤ roles.length) :
    n ≤ (trimItems roles remainder items).length := by
  induction items generalizing roles n with
  | nil => exact enough
  | cons item items ih =>
    cases roles with
    | nil =>
      have none : n = 0 := Nat.le_zero.1 h
      omega
    | cons role roles =>
      cases n with
      | zero => exact Nat.zero_le _
      | succ n =>
        exact Nat.succ_le_succ (ih (Nat.le_of_succ_le_succ enough) (Nat.le_of_succ_le_succ h))

/-- Where further items are refused, none is passed over. -/
theorem length_trimItems_refused : (trimItems roles .refused items).length = items.length := by
  induction items generalizing roles with
  | nil => rfl
  | cons item items ih =>
    cases roles with
    | nil => rfl
    | cons role roles => exact congrArg Nat.succ ih

theorem plainSignatureRoles_eq_cons (last : Role) (items : List Form) :
    ∃ others, plainSignatureRoles last items = .params :: others := by
  unfold plainSignatureRoles
  split
  · split <;> exact ⟨_, rfl⟩
  · exact ⟨_, rfl⟩

theorem signatureRoles_eq_cons (last : Role) (items : List Form) :
    ∃ role others, signatureRoles last items = role :: others := by
  match items with
  | [] => exact ⟨_, _, rfl⟩
  | first :: more =>
    by_cases generics : first.head? = some "generics"
    · exact ⟨_, _, if_pos generics⟩
    · obtain ⟨others, roles⟩ := plainSignatureRoles_eq_cons last (first :: more)
      exact ⟨_, others, (if_neg generics).trans roles⟩

theorem plainSignatureRoles_trimItems (last : Role) :
    plainSignatureRoles last (trimItems (plainSignatureRoles last items) remainder items)
      = plainSignatureRoles last items := by
  match items with
  | [] | [_] => rfl
  | first :: second :: more =>
    by_cases returns : second.head? = some "returns" <;>
      simp [plainSignatureRoles, trimItems, returns]

theorem signatureRoles_trimItems (last : Role) :
    signatureRoles last (trimItems (signatureRoles last items) remainder items)
      = signatureRoles last items := by
  match items with
  | [] => rfl
  | first :: more =>
    by_cases generics : first.head? = some "generics"
    · simp [signatureRoles, trimItems, generics, plainSignatureRoles_trimItems]
    · have same := @plainSignatureRoles_trimItems remainder (first :: more) last
      obtain ⟨others, roles⟩ := plainSignatureRoles_eq_cons last (first :: more)
      simp only [signatureRoles, generics, if_false, roles, trimItems, head?_trim] at same ⊢
      exact same

theorem trim_ne_symbol {form : Form} (h : ∀ name, form ≠ .symbol name) (role : Role)
    (name : String) : form.trim role ≠ .symbol name := by
  cases form with
  | list inner position =>
    obtain ⟨inner', same⟩ := trim_list role inner position
    simp [same]
  | symbol | text | number | quoted | brackets => exact h name

theorem functionRoles_of_ne_symbol {first : Form} (h : ∀ name, first ≠ .symbol name) :
    functionRoles (first :: items) = signatureRoles .body (first :: items) := by
  cases first with
  | symbol name => exact absurd rfl (h name)
  | list | text | number | quoted | brackets => rfl

theorem functionRoles_trimItems :
    functionRoles (trimItems (functionRoles items) remainder items) = functionRoles items := by
  match items with
  | [] => rfl
  | first :: more =>
    by_cases named : ∃ name, first = .symbol name
    · obtain ⟨name, rfl⟩ := named
      exact congrArg (.atom :: ·) (signatureRoles_trimItems .body)
    · have other : ∀ name, first ≠ .symbol name := fun name same => named ⟨name, same⟩
      have same := @signatureRoles_trimItems remainder (first :: more) .body
      obtain ⟨role, others, roles⟩ := signatureRoles_eq_cons .body (first :: more)
      rw [functionRoles_of_ne_symbol other]
      rw [roles, trimItems] at same ⊢
      rw [functionRoles_of_ne_symbol (trim_ne_symbol other role), same]

theorem aliasRoles_trimItems :
    aliasRoles (trimItems (aliasRoles items) remainder items) = aliasRoles items := by
  match items with
  | [] => rfl
  | first :: more =>
    by_cases generics : first.head? = some "generics" <;> simp [aliasRoles, trimItems, generics]

theorem interfaceBodyRoles_trimItems :
    interfaceBodyRoles (trimItems (interfaceBodyRoles items) remainder items)
      = interfaceBodyRoles items := by
  match items with
  | [] => rfl
  | first :: more =>
    by_cases supertypes : first.head? = some "extends" <;>
      simp [interfaceBodyRoles, trimItems, supertypes]

theorem interfaceRoles_trimItems :
    interfaceRoles (trimItems (interfaceRoles items) remainder items) = interfaceRoles items := by
  match items with
  | [] => rfl
  | first :: more =>
    by_cases generics : first.head? = some "generics"
    · simp [interfaceRoles, trimItems, generics, interfaceBodyRoles_trimItems]
    · by_cases supertypes : first.head? = some "extends" <;>
        simp [interfaceRoles, interfaceBodyRoles, trimItems, generics, supertypes]

end

end Form

end TypeGuard
