import TypeGuard.Proofs.Surface.Layout
import TypeGuard.Proofs.Surface.Trimming.Pattern

/-!
# Parameters and functions are read like their trimmed forms

Where the parts of a function stand depends on the tags of its items, which trimming keeps: what is
left of the items are the trimmed parts (`FunctionParts.trimItems_items`).
-/

namespace TypeGuard

namespace Form

section
variable {file tag : String} {items : List Form} {position : Position}

/-! ## Parameters -/

theorem param_ne_ok (unknown : paramProduction tag = none) {a : Param Pattern Expr} :
    Param.ofForm file (.list (.symbol tag :: items) position) ≠ .ok a := by
  obtain ⟨default, plain, optional, pattern⟩ : tag ≠ "default" ∧ ¬(tag = "param" ∨ tag = "rest") ∧
      tag ≠ "param?" ∧ tag ≠ "pattern" := by
    unfold paramProduction at unknown
    grind
  match items with
  | [] => exact Position.refuse_ne_ok
  | target :: more =>
    intro value
    unfold Param.ofForm at value
    dsimp only at value
    split at value
    · simp_all
    · simp_all
    · split at value
      · obtain ⟨_, -, value⟩ := bind_eq_ok_iff.1 value
        split at value <;> simp_all
      · obtain ⟨_, -, value⟩ := bind_eq_ok_iff.1 value
        obtain ⟨_, -, value⟩ := bind_eq_ok_iff.1 value
        split at value <;> simp_all

/-- A parameter that may have a type, which is read before what is bound. -/
theorem reads_typedParam {β : Type} {readBinding : Form → Except ParseError β} {r : Role}
    {p : β → Option Ty → Param Pattern Expr}
    (rule : ∀ items, production .param tag items = some ⟨[r, .type], 1, .ignored, false⟩)
    (bare : ∀ target, Param.ofForm file (.list [.symbol tag, target] position) = do
      return p (← readBinding target) none)
    (typed : ∀ target type more,
      Param.ofForm file (.list (.symbol tag :: target :: type :: more) position) = do
        let type ← Ty.ofForm file type
        return p (← readBinding target) (some type))
    (short : ∀ a, Param.ofForm file (.list [.symbol tag] position) ≠ .ok a)
    (h : ∀ form ∈ items, Reads readBinding r form) :
    Reads (Param.ofForm file) .param (.list (.symbol tag :: items) position) := by
  refine reads_optional rfl rule (k := fun b => pure (p b none))
    (m := fun b type => pure (p b (some type))) (fun target => ?_) (fun target type more => ?_)
    short h fun form _ => reads_ty file form
  · rw [bare]
    exact .refl _
  · rw [typed]
    exact .swap _ _ _

theorem reads_param (hp : ∀ form ∈ items, Reads (Param.ofForm file) .param form)
    (ht : ∀ form ∈ items, Reads (Pattern.ofForm file) .target form)
    (he : ∀ form ∈ items, Reads (Expr.ofForm file) .expr form) :
    Reads (Param.ofForm file) .param (.list (.symbol tag :: items) position) := by
  have hs : ∀ form ∈ items, Reads asSymbol .atom form := fun form _ => reads_asSymbol .atom form
  have short : ∀ tag a, Param.ofForm file (.list [.symbol tag] position) ≠ .ok a :=
    fun _ _ => Position.refuse_ne_ok
  by_cases default : tag = "default"
  · subst default
    refine reads_two rfl (fun _ => rfl)
      (k := fun param value => .ok { param with default := some value })
      (fun _ _ _ => .refl _) (fun items few a => ?_) hp he
    match items, few with
    | [], _ | [_], _ => exact Position.refuse_ne_ok
  by_cases plain : tag = "param"
  · subst plain
    exact reads_typedParam (fun _ => rfl) (p := fun name type => { binding := .ident name, type })
      (fun _ => rfl) (fun _ _ _ => rfl) (short _) hs
  by_cases rest : tag = "rest"
  · subst rest
    exact reads_typedParam (fun _ => rfl)
      (p := fun name type => { binding := .ident name, type, rest := true })
      (fun _ => rfl) (fun _ _ _ => rfl) (short _) hs
  by_cases pattern : tag = "pattern"
  · subst pattern
    exact reads_typedParam (fun _ => rfl) (p := fun binding type => { binding, type })
      (fun _ => rfl) (fun _ _ _ => rfl) (short _) ht
  by_cases optional : tag = "param?"
  · subst optional
    refine reads_two rfl (fun _ => rfl)
      (k := fun name type => .ok { binding := .ident name, type := some type, optional := true })
      (fun _ _ _ => .swap _ _ _) (fun items few a => ?_) hs fun form _ => reads_ty file form
    match items, few with
    | [], _ | [_], _ => exact Position.refuse_ne_ok
  have unknown : paramProduction tag = none := by
    simp [paramProduction, default, plain, rest, pattern, optional]
  refine reads_of_ne ?_ fun a => param_ne_ok unknown
  simp [trim, trimTagged, Role.each?, production, unknown]

/-! ## Items that may be missing -/

/-- An item that may be missing is read like its trimmed form. -/
structure ReadsOption {α : Type} (read : Option Form → Except ParseError α) (role : Role)
    (item : Option Form) : Prop where
  alike : Alike (read (item.map (trim role))) (read item)
  exact : ∀ {a}, read item = .ok a → ∀ form ∈ item.map (trim role), form.isExact role = true

theorem readsOption {α : Type} {read : Option Form → Except ParseError α} {role : Role}
    {item : Option Form} (h : ∀ form ∈ item, Reads (fun form => read (some form)) role form) :
    ReadsOption read role item := by
  cases item with
  | none => exact ⟨.refl _, by simp⟩
  | some form =>
    have hf := h form rfl
    refine ⟨hf.alike, fun value other mem => ?_⟩
    obtain rfl : form.trim role = other := by simpa using mem
    exact hf.exact value

theorem isExactItems_optional {item : Option Form} {role : Role} {roles : List Role}
    {remainder : Remainder} (h : ∀ form ∈ item, form.isExact role = true)
    (others : isExactItems roles remainder items = true) :
    isExactItems (item.toList.map (fun _ => role) ++ roles) remainder (item.toList ++ items)
      = true := by
  cases item with
  | none => exact others
  | some form => simp [isExactItems, h form rfl, others]

theorem readsItems_mapM {α : Type} {read : Form → Except ParseError α} {r : Role}
    (h : ∀ form ∈ items, Reads read r form) : ReadsItems (List.mapM read) [] (.each r) items :=
  readsItems_each (fun form forms => by rw [List.mapM_cons]; exact .refl _) h

theorem reads_generics {form : Form} (h : form.head? = some "generics") :
    Reads (fun form => typeParamsOfForm (some form)) .generics form := by
  obtain ⟨names, position, rfl⟩ := eq_list_of_head? h
  refine reads_each rfl (fun _ => rfl) (k := pure) (fun names => ?_)
    (readsItems_mapM fun form _ => reads_asSymbol .atom form)
  rw [bind_pure]
  exact .refl _

theorem reads_returns {form : Form} (h : form.head? = some "returns") :
    Reads (fun form => returnTypeOfForm file (some form)) .returns form := by
  obtain ⟨types, position, rfl⟩ := eq_list_of_head? h
  exact reads_one rfl (fun _ => rfl) (k := fun type => pure (some type)) (fun _ _ => .refl _)
    (fun a => Form.refuse_ne_ok) fun form _ => reads_ty file form

end

end Form

/-! ## Functions -/

/-- The parts of a function form behind its name. Their tags tell them apart. -/
structure FunctionParts where
  generics : Option Form
  params : Form
  returns : Option Form
  body : Form
  more : List Form
  generics_tag : ∀ form ∈ generics, form.head? = some "generics"
  params_tag : generics = none → params.head? ≠ some "generics"
  returns_tag : ∀ form ∈ returns, form.head? = some "returns"
  body_tag : returns = none → body.head? ≠ some "returns"

namespace FunctionParts

open Form (Role Remainder Reads ReadsItems trimItems isExactItems signatureRoles)

variable (parts : FunctionParts)

def items : List Form :=
  parts.generics.toList ++ parts.params :: (parts.returns.toList ++ parts.body :: parts.more)

/-- The items before the body. -/
def front : List Form := parts.generics.toList ++ parts.params :: parts.returns.toList

theorem items_eq : parts.items = parts.front ++ parts.body :: parts.more := by simp [items, front]

theorem two_le_length : 2 ≤ parts.items.length := by
  simp only [items, List.length_append, List.length_cons]
  omega

theorem layout_items : FunctionLayout.ofItems 0 parts.items
    = ⟨parts.generics, parts.generics.toList.length, parts.returns, parts.front.length⟩ := by
  obtain ⟨generics, params, returns, body, more, hg, hp, hr, hb⟩ := parts
  cases generics with
  | none =>
    cases returns with
    | none => simp [items, front, FunctionLayout.ofItems, hp rfl, hb rfl]
    | some form => simp [items, front, FunctionLayout.ofItems, hp rfl, hr form rfl]
  | some first =>
    cases returns with
    | none => simp [items, front, FunctionLayout.ofItems, hg first rfl, hb rfl]
    | some form => simp [items, front, FunctionLayout.ofItems, hg first rfl, hr form rfl]

/-- The roles of the parts. -/
theorem roles_items (last : Role) : signatureRoles last parts.items
    = parts.generics.toList.map (fun _ => .generics)
      ++ .params :: (parts.returns.toList.map (fun _ => .returns) ++ [last]) := by
  obtain ⟨generics, params, returns, body, more, hg, hp, hr, hb⟩ := parts
  cases generics with
  | none =>
    cases returns with
    | none => simp [items, signatureRoles, Form.plainSignatureRoles, hp rfl, hb rfl]
    | some form => simp [items, signatureRoles, Form.plainSignatureRoles, hp rfl, hr form rfl]
  | some first =>
    cases returns with
    | none => simp [items, signatureRoles, Form.plainSignatureRoles, hg first rfl, hb rfl]
    | some form =>
      simp [items, signatureRoles, Form.plainSignatureRoles, hg first rfl, hr form rfl]

/-- The trimmed parts. -/
def trim (last : Role) (remainder : Remainder) : FunctionParts where
  generics := parts.generics.map (Form.trim .generics)
  params := parts.params.trim .params
  returns := parts.returns.map (Form.trim .returns)
  body := parts.body.trim last
  more := trimItems [] remainder parts.more
  generics_tag := by simpa using parts.generics_tag
  params_tag := by simpa using parts.params_tag
  returns_tag := by simpa using parts.returns_tag
  body_tag := by simpa using parts.body_tag

theorem trimItems_items (last : Role) (remainder : Remainder) :
    trimItems (signatureRoles last parts.items) remainder parts.items
      = (parts.trim last remainder).items := by
  rw [roles_items]
  obtain ⟨generics, params, returns, body, more, hg, hp, hr, hb⟩ := parts
  cases generics <;> cases returns <;> simp [items, trim, trimItems]

theorem exists_plainItems {last : Role} {items : List Form}
    (enough : (Form.plainSignatureRoles last items).length ≤ items.length) :
    ∃ (params : Form) (returns : Option Form) (body : Form) (more : List Form),
      items = params :: (returns.toList ++ body :: more) ∧
        (∀ form ∈ returns, form.head? = some "returns") ∧
        (returns = none → body.head? ≠ some "returns") := by
  rcases items with _ | ⟨params, _ | ⟨second, more⟩⟩
  · simp [Form.plainSignatureRoles] at enough
  · simp [Form.plainSignatureRoles] at enough
  · by_cases tag : second.head? = some "returns"
    · rcases more with _ | ⟨body, more⟩
      · simp [Form.plainSignatureRoles, tag] at enough
      · exact ⟨params, some second, body, more, rfl, by simpa using tag, by simp⟩
    · exact ⟨params, none, second, more, rfl, by simp, fun _ => tag⟩

/-- There are as many items as roles only if there is a body. -/
theorem exists_items {last : Role} {items : List Form}
    (enough : (signatureRoles last items).length ≤ items.length) :
    ∃ parts : FunctionParts, items = parts.items := by
  match items with
  | [] => simp [signatureRoles, Form.plainSignatureRoles] at enough
  | first :: others =>
    by_cases tag : first.head? = some "generics"
    · have behind : (Form.plainSignatureRoles last others).length ≤ others.length := by
        simpa [signatureRoles, tag] using enough
      obtain ⟨params, returns, body, more, rfl, returned, ends⟩ := exists_plainItems behind
      exact ⟨⟨some first, params, returns, body, more, by simpa using tag, by simp, returned, ends⟩,
        rfl⟩
    · have whole : (Form.plainSignatureRoles last (first :: others)).length
          ≤ (first :: others).length := by
        simpa only [signatureRoles, tag, if_false] using enough
      obtain ⟨params, returns, body, more, same, returned, ends⟩ := exists_plainItems whole
      obtain ⟨rfl, rfl⟩ := List.cons.inj same
      exact ⟨⟨none, first, returns, body, more, by simp, fun _ => tag, returned, ends⟩, rfl⟩

theorem length_signatureRoles (last : Role) (items : List Form) :
    (signatureRoles last items).length = (FunctionLayout.ofItems 0 items).body + 1 := by
  have plain : ∀ items : List Form, (Form.plainSignatureRoles last items).length
      = (if (items[1]?.filter (·.head? == some "returns")).isSome then 2 else 1) + 1 := by
    intro items
    rcases items with _ | ⟨first, _ | ⟨second, more⟩⟩
    · rfl
    · rfl
    · by_cases tag : second.head? = some "returns" <;> simp [Form.plainSignatureRoles, tag]
  rcases items with _ | ⟨first, others⟩
  · rfl
  · by_cases tag : first.head? = some "generics"
    · simp only [signatureRoles, tag, if_true, List.length_cons, plain, FunctionLayout.ofItems,
        List.getElem?_cons_zero, Option.filter_some, beq_self_eq_true, Option.isSome_some,
        List.getElem?_cons_succ]
      split <;> rfl
    · simp [signatureRoles, plain, tag, FunctionLayout.ofItems]

/-! ### Reading the parts -/

/-- Reads the parts of a function. -/
def read {β : Type} (file : String) (readBody : Form → Except ParseError β) :
    Except ParseError (Signature Pattern Expr × β) := do
  let params ← parts.params.asList >>= Param.ofForms file
  let returnType ← returnTypeOfForm file parts.returns
  let typeParams ← typeParamsOfForm parts.generics
  let body ← readBody parts.body
  return (⟨params, returnType, typeParams⟩, body)

section
variable {α β : Type} {file : String} {readBody : Form → Except ParseError β} {last : Role}
  {remainder : Remainder}

theorem listAt_items (position : Position) :
    Alike (Param.listAt file position (FunctionLayout.ofItems 0 parts.items).params parts.items)
      (parts.params.asList >>= Param.ofForms file) := by
  rw [layout_items]
  obtain ⟨generics, params, returns, body, more, hg, hp, hr, hb⟩ := parts
  have first : Alike (Param.listAt file position 0 (params :: (returns.toList ++ body :: more)))
      (params.asList >>= Param.ofForms file) := by
    cases params with
    | list forms p => exact .refl _
    | _ => exact .of_ne (fun a => Form.refuse_ne_ok) (by simp [Form.asList, bind_eq_ok_iff])
  have behind := @Param.listAt_length file position generics.toList
    (params :: (returns.toList ++ body :: more))
  exact behind ▸ first

theorem bodyAt_items (position : Position) :
    Stmt.bodyAt file position (FunctionLayout.ofItems 0 parts.items).body parts.items
      = Stmt.bodyOfForm file parts.body := by
  rw [layout_items]
  have behind := @Stmt.bodyAt_length file position parts.front (parts.body :: parts.more)
  rw [← parts.items_eq, Stmt.bodyAt] at behind
  exact behind

theorem arrowBodyAt_items (position : Position) :
    Expr.bodyAt file position (FunctionLayout.ofItems 0 parts.items).body parts.items
      = Expr.bodyAt file {} 0 [parts.body] := by
  rw [layout_items]
  have behind := @Expr.bodyAt_length file position parts.front (parts.body :: parts.more)
  rw [← parts.items_eq] at behind
  rw [behind]
  unfold Expr.bodyAt
  rfl

/-- The items of a function are read part by part. -/
theorem read_items (position : Position) {readLast : Except ParseError β}
    {k : Signature Pattern Expr → β → Except ParseError α}
    (found : readLast = readBody parts.body) :
    Alike (do
      let layout := FunctionLayout.ofItems 0 parts.items
      let params ← Param.listAt file position layout.params parts.items
      let signature ← layout.signature file params
      let body ← readLast
      k signature body) (do
      let read ← parts.read file readBody
      k read.1 read.2) := by
  refine .trans (.bind (parts.listAt_items position) fun _ => .refl _) ?_
  simp only [found, read, layout_items, FunctionLayout.signature, bind_assoc, pure_bind]
  exact .refl _

/-- The trimmed parts are read like the parts. -/
theorem read_trim (hp : Reads (fun form => form.asList >>= Param.ofForms file) .params parts.params)
    (hb : Reads readBody last parts.body) :
    Alike ((parts.trim last remainder).read file readBody) (parts.read file readBody) := by
  have hr := Form.readsOption fun form mem =>
    @Form.reads_returns file form (parts.returns_tag form mem)
  have hg := Form.readsOption fun form mem => Form.reads_generics (parts.generics_tag form mem)
  exact .bind hp.alike fun _ => .bind hr.alike fun _ => .bind hg.alike fun _ =>
    .bind hb.alike fun _ => .refl _

theorem isExactItems_trim
    (hp : Reads (fun form => form.asList >>= Param.ofForms file) .params parts.params)
    (hb : Reads readBody last parts.body) (none : trimItems [] remainder parts.more = [])
    {a : Signature Pattern Expr × β} (h : parts.read file readBody = .ok a) :
    isExactItems (signatureRoles last parts.items) remainder (parts.trim last remainder).items
      = true := by
  have hr := Form.readsOption fun form mem =>
    @Form.reads_returns file form (parts.returns_tag form mem)
  have hg := Form.readsOption fun form mem => Form.reads_generics (parts.generics_tag form mem)
  obtain ⟨_, params, h⟩ := bind_eq_ok_iff.1 h
  obtain ⟨_, returns, h⟩ := bind_eq_ok_iff.1 h
  obtain ⟨_, generics, h⟩ := bind_eq_ok_iff.1 h
  obtain ⟨_, body, -⟩ := bind_eq_ok_iff.1 h
  rw [← Form.signatureRoles_trimItems, trimItems_items, roles_items]
  refine Form.isExactItems_optional (hg.exact generics) ?_
  have behind := Form.isExactItems_optional (hr.exact returns)
    (show isExactItems [last] remainder [parts.body.trim last] = true by
      simp [isExactItems, hb.exact body])
  simpa [trim, none, isExactItems, hp.exact params] using behind

/-- The items of a function behind its name are read like what is left of them. -/
theorem readsItems {readItems : List Form → Except ParseError α} {items : List Form}
    {k : Signature Pattern Expr × β → Except ParseError α}
    (enough : (signatureRoles last items).length ≤ items.length)
    (closed : remainder = .ignored ∨ remainder = .refused)
    (whole : ∀ parts : FunctionParts, (remainder = .refused → parts.more = []) →
      Alike (readItems parts.items) (parts.read file readBody >>= k))
    (long : ∀ parts : FunctionParts, remainder = .refused → parts.more ≠ [] →
      ∀ a, readItems parts.items ≠ .ok a)
    (hp : ∀ form ∈ items, Reads (fun form => form.asList >>= Param.ofForms file) .params form)
    (hb : ∀ form ∈ items, Reads readBody last form) :
    ReadsItems readItems (signatureRoles last items) remainder items := by
  obtain ⟨parts, rfl⟩ := exists_items enough
  have params := hp parts.params (by simp [FunctionParts.items])
  have body := hb parts.body (by simp [FunctionParts.items])
  by_cases fits : remainder = .refused → parts.more = []
  · have none : trimItems [] remainder parts.more = [] := by
      rcases closed with rfl | rfl
      · cases parts.more <;> rfl
      · rw [fits rfl]
        rfl
    refine ⟨?_, fun value => ?_⟩
    · rw [trimItems_items]
      refine (whole _ fun _ => none).trans (.trans ?_ (whole parts fits).symm)
      exact .bind (parts.read_trim params body) fun _ => .refl _
    · obtain ⟨_, inside, -⟩ := bind_eq_ok_iff.1 ((whole parts fits _).1 value)
      rw [trimItems_items]
      exact parts.isExactItems_trim params body none inside
  · obtain ⟨rfl, extra⟩ := Classical.not_imp.1 fits
    have kept : (parts.trim last .refused).more ≠ [] := by
      intro none
      have same := congrArg List.length none
      simp only [trim, Form.length_trimItems_refused] at same
      exact extra (List.eq_nil_of_length_eq_zero same)
    refine ⟨?_, fun value => absurd value (long parts rfl extra _)⟩
    rw [trimItems_items]
    exact .of_ne (long _ rfl kept) (long parts rfl extra)

end

end FunctionParts

end TypeGuard
