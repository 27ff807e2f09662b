import TypeGuard.Proofs.Surface.Trimming.Declaration

/-!
# Programs are read like their trimmed forms

Expressions, statements and programs. `Form.readings` is the induction over forms: in every place
of a program a form is read like its trimmed form, which is exact if the form can be read. So forms
with the same trimmed form are read as the same program (`Program.exact_trim_of_ofForm`).
-/

namespace TypeGuard

namespace Form

/-- The form is read like its trimmed form in every place of a program. -/
structure Readings (file : String) (form : Form) : Prop where
  target : Reads (Pattern.ofForm file) .target form
  field : Reads (Pattern.fieldOfForm file) .field form
  element : Reads (Pattern.elementOfForm file) .element form
  param : Reads (Param.ofForm file) .param form
  params : Reads (fun form => form.asList >>= Param.ofForms file) .params form
  expr : Reads (Expr.ofForm file) .expr form
  body : Reads (Stmt.bodyOfForm file) .body form
  arrowBody : Reads (fun form => Expr.bodyAt file {} 0 [form]) .arrowBody form
  stmt : Reads (Stmt.ofForm file) .stmt form

section
variable {file tag : String} {items : List Form} {position : Position}

/-! ## Expressions -/

/-- Reads a function from the items behind its name. -/
def functionOfItems (file : String) (position : Position) (name : Option String)
    (items : List Form) : Except ParseError Expr := do
  let layout := FunctionLayout.ofItems 0 items
  let params ← Param.listAt file position layout.params items
  let signature ← layout.signature file params
  let body ← Stmt.bodyAt file position layout.body items
  return .function signature body name (position.inFile file)

theorem functionOfItems_named (known : ExprTag.ofName? tag = some .function) (name : String) :
    Expr.ofForm file (.list (.symbol tag :: .symbol name :: items) position)
      = functionOfItems file position (some name) items := by
  rw [Expr.ofForm]
  simp only [known, Option.isSome_some, if_true]
  rw [FunctionLayout.ofItems_succ, Param.listAt, Stmt.bodyAt]
  rfl

theorem functionOfItems_unnamed (known : ExprTag.ofName? tag = some .function) {first : Form}
    (h : ∀ name, first ≠ .symbol name) :
    Expr.ofForm file (.list (.symbol tag :: first :: items) position)
      = functionOfItems file position none (first :: items) := by
  rw [Expr.ofForm]
  simp only [known]
  cases first with
  | symbol name => exact absurd rfl (h name)
  | list | text | number | quoted | brackets => rfl

theorem arrowOfItems (known : ExprTag.ofName? tag = some .arrow) :
    Expr.ofForm file (.list (.symbol tag :: items) position) = do
      let layout := FunctionLayout.ofItems 0 items
      let params ← Param.listAt file position layout.params items
      let signature ← layout.signature file params
      let body ← Expr.bodyAt file position layout.body items
      return .arrow signature body (position.inFile file) := by
  unfold Expr.ofForm
  simp only [known]

theorem few_of_lt {last : Role} (h : items.length < (signatureRoles last items).length) :
    items.length ≤ (FunctionLayout.ofItems 0 items).body := by
  rw [FunctionParts.length_signatureRoles] at h
  omega

theorem functionOfItems_ne_ok {name : Option String} {last : Role}
    (h : items.length < (signatureRoles last items).length) (a : Expr) :
    functionOfItems file position name items ≠ .ok a := by
  intro value
  obtain ⟨_, -, value⟩ := bind_eq_ok_iff.1 value
  obtain ⟨_, -, value⟩ := bind_eq_ok_iff.1 value
  obtain ⟨_, body, -⟩ := bind_eq_ok_iff.1 value
  exact Stmt.bodyAt_ne_ok position (few_of_lt h) _ body

/-- The items of a function behind its name. -/
theorem readsItems_function (name : Option String)
    (enough : (signatureRoles .body items).length ≤ items.length)
    (h : ∀ form ∈ items, Readings file form) :
    ReadsItems (functionOfItems file position name) (signatureRoles .body items) .ignored
      items := by
  refine FunctionParts.readsItems enough (.inl rfl)
    (k := fun read => pure (.function read.1 read.2 name (position.inFile file)))
    (fun parts _ => ?_) (fun _ refused => nomatch refused) (fun form mem => (h form mem).params)
    fun form mem => (h form mem).body
  exact parts.read_items position (parts.bodyAt_items position)

theorem readsItems_functionExpr (known : ExprTag.ofName? tag = some .function)
    (enough : (functionRoles items).length ≤ items.length)
    (h : ∀ form ∈ items, Readings file form) :
    ReadsItems (fun items => Expr.ofForm file (.list (.symbol tag :: items) position))
      (functionRoles items) .ignored items := by
  match items, enough, h with
  | first :: more, enough, h =>
    by_cases named : ∃ name, first = .symbol name
    · obtain ⟨name, rfl⟩ := named
      have behind := @readsItems_function file more position (some name)
        (Nat.le_of_succ_le_succ enough) (List.forall_mem_cons.1 h).2
      have same : ∀ items, Expr.ofForm file (.list (.symbol tag :: .symbol name :: items) position)
          = functionOfItems file position (some name) items :=
        fun items => functionOfItems_named known name
      refine ⟨?_, fun value => behind.exact ((same more).symm.trans value)⟩
      exact ((same _).symm ▸ (same more).symm ▸ behind.alike)
    · have unnamed : ∀ name, first ≠ .symbol name := fun name same => named ⟨name, same⟩
      rw [functionRoles_of_ne_symbol unnamed] at enough ⊢
      have whole := @readsItems_function file (first :: more) position none enough h
      obtain ⟨role, others, roles⟩ := signatureRoles_eq_cons .body (first :: more)
      rw [roles] at whole ⊢
      refine whole.of_alike ?_ ?_
      · rw [functionOfItems_unnamed known unnamed]
        exact .refl _
      · rw [trimItems, functionOfItems_unnamed known (trim_ne_symbol unnamed role)]
        exact .refl _

theorem functionExpr_ne_ok (known : ExprTag.ofName? tag = some .function)
    (few : items.length < (functionRoles items).length) (a : Expr) :
    Expr.ofForm file (.list (.symbol tag :: items) position) ≠ .ok a := by
  match items, few with
  | [], _ =>
    unfold Expr.ofForm
    simp [known, Param.listAt, bind_eq_ok_iff]
  | first :: more, few =>
    by_cases named : ∃ name, first = .symbol name
    · obtain ⟨name, rfl⟩ := named
      rw [functionOfItems_named known]
      exact functionOfItems_ne_ok (Nat.lt_of_succ_lt_succ few) a
    · have unnamed : ∀ name, first ≠ .symbol name := fun name same => named ⟨name, same⟩
      rw [functionOfItems_unnamed known unnamed]
      rw [functionRoles_of_ne_symbol unnamed] at few
      exact functionOfItems_ne_ok few a

theorem reads_arrow (known : ExprTag.ofName? tag = some .arrow)
    (h : ∀ form ∈ items, Readings file form) :
    Reads (Expr.ofForm file) .expr (.list (.symbol tag :: items) position) := by
  refine reads_list rfl (p := fun items => .exactly (signatureRoles .arrowBody items) .ignored)
    (fun items => ?_) ?_ rfl (Nat.le_refl _) (fun items few a value => ?_) fun enough => ?_
  · simp [production, exprProduction, known]
  · simp [Production.exactly, signatureRoles_trimItems]
  · rw [arrowOfItems known] at value
    obtain ⟨_, -, value⟩ := bind_eq_ok_iff.1 value
    obtain ⟨_, -, value⟩ := bind_eq_ok_iff.1 value
    obtain ⟨_, body, -⟩ := bind_eq_ok_iff.1 value
    exact Expr.bodyAt_ne_ok position (few_of_lt few) _ body
  · refine FunctionParts.readsItems enough (.inl rfl)
      (k := fun read => pure (.arrow read.1 read.2 (position.inFile file)))
      (fun parts _ => ?_) (fun _ refused => by cases refused)
      (fun form mem => (h form mem).params) fun form mem => (h form mem).arrowBody
    rw [arrowOfItems known]
    exact parts.read_items position (parts.arrowBodyAt_items position)

theorem reads_expr (h : ∀ form ∈ items, Readings file form) :
    Reads (Expr.ofForm file) .expr (.list (.symbol tag :: items) position) := by
  cases known : ExprTag.ofName? tag with
  | none =>
    refine reads_of_ne ?_ fun a => ?_
    · simp [trim, trimTagged, Role.each?, production, exprProduction, known]
    · unfold Expr.ofForm
      simp [known]
  | some found =>
    cases found with
    | require =>
      refine reads_one rfl (fun _ => ?_) (k := fun module => pure (.require module))
        (fun form more => ?_) (fun a => ?_) fun form _ => reads_asString .atom form
      · simp [production, exprProduction, known]
      · unfold Expr.ofForm
        simp only [known]
        exact .refl _
      · unfold Expr.ofForm
        simp [known]
    | function =>
      refine reads_list rfl (p := fun items => .exactly (functionRoles items) .ignored)
        (fun items => ?_) ?_ rfl (Nat.le_refl _) (fun items few => functionExpr_ne_ok known few)
        fun enough => readsItems_functionExpr known enough h
      · simp [production, exprProduction, known]
      · simp [Production.exactly, functionRoles_trimItems]
    | arrow => exact reads_arrow known h

/-! ## Bodies -/

theorem readsItems_stmts (h : ∀ form ∈ items, Readings file form) :
    ReadsItems (Stmt.ofForms file) [] (.each .stmt) items :=
  readsItems_each (fun _ _ => .refl _) fun form mem => (h form mem).stmt

theorem reads_body (h : ∀ form ∈ items, Readings file form) :
    Reads (Stmt.bodyOfForm file) .body (.list (.symbol tag :: items) position) := by
  by_cases block : tag = "body"
  · subst block
    refine reads_each rfl (fun _ => rfl) (k := pure) (fun items => ?_) (readsItems_stmts h)
    rw [bind_pure]
    exact .refl _
  · have refused : ∀ items a,
        Stmt.bodyOfForm file (.list (.symbol tag :: items) position) ≠ .ok a := by
      intro items a
      unfold Stmt.bodyOfForm
      rw [if_neg block]
      exact Position.refuse_ne_ok
    have trimmed := @trim_tagged .body rfl tag items position _ rfl
    exact ⟨.of_ne (by rw [trimmed]; exact refused _) (refused items),
      fun value => absurd value (refused items _)⟩

theorem bodyAt_expression {form : Form} (h : form.head? ≠ some "body") :
    Expr.bodyAt file {} 0 [form] = do return .expression (← Expr.ofForm file form) := by
  unfold Expr.bodyAt
  split
  · exact absurd rfl h
  · rfl

theorem trim_arrowBody {form : Form} (h : form.head? ≠ some "body") :
    form.trim .arrowBody = form.trim .expr := by
  match form with
  | .list (.symbol tag :: items) position =>
    have other : tag ≠ "body" := fun same => h (congrArg some same)
    simp [trim, Role.each?, trimTagged, production, other]
  | .list [] _ | .list (.list _ _ :: _) _ | .list (.text _ :: _) _ | .list (.number _ :: _) _
  | .list (.quoted _ :: _) _ | .list (.brackets _ :: _) _ | .symbol _ | .text _ | .number _
  | .quoted _ | .brackets _ => rfl

theorem isExact_arrowBody {form : Form} (h : form.head? ≠ some "body") :
    form.isExact .arrowBody = form.isExact .expr := by
  match form with
  | .list (.symbol tag :: items) position =>
    have other : tag ≠ "body" := fun same => h (congrArg some same)
    simp [isExact, Role.each?, isExactTagged, production, other]
  | .list [] _ | .list (.list _ _ :: _) _ | .list (.text _ :: _) _ | .list (.number _ :: _) _
  | .list (.quoted _ :: _) _ | .list (.brackets _ :: _) _ | .symbol _ | .text _ | .number _
  | .quoted _ | .brackets _ => rfl

/-- A body that is no block is read as an expression. -/
theorem reads_expressionBody {form : Form} (h : form.head? ≠ some "body")
    (expr : Reads (Expr.ofForm file) .expr form) :
    Reads (fun form => Expr.bodyAt file {} 0 [form]) .arrowBody form := by
  have value := expr.bind fun e => pure (Body.expression e : Body Stmt Expr)
  have h' : (form.trim .expr).head? ≠ some "body" := by rwa [head?_trim]
  refine ⟨?_, fun accepted => ?_⟩
  · rw [trim_arrowBody h, bodyAt_expression h, bodyAt_expression h']
    exact value.alike
  · rw [bodyAt_expression h] at accepted
    rw [trim_arrowBody h, isExact_arrowBody h']
    exact value.exact accepted

theorem reads_arrowBody (h : ∀ form ∈ items, Readings file form) :
    Reads (fun form => Expr.bodyAt file {} 0 [form]) .arrowBody
      (.list (.symbol tag :: items) position) := by
  by_cases block : tag = "body"
  · subst block
    exact reads_each rfl (fun _ => rfl) (k := fun stmts => pure (.block stmts)) (fun _ => .refl _)
      (readsItems_stmts h)
  · exact reads_expressionBody (fun same => block (Option.some.inj same)) (reads_expr h)

/-! ## Statements -/

/-- A statement whose items are read as a declaration. -/
theorem reads_declaration {α : Type} (read : List Form → Except ParseError α) (make : α → Stmt)
    {p : List Form → Production}
    (reading : ∀ items, Stmt.ofForm file (.list (.symbol tag :: items) position)
      = do return make (← read items))
    (rule : ∀ items, production .stmt tag items = some (p items))
    (stable : p (trimItems (p items).roles (p items).remainder items) = p items)
    (plain : (p items).pattern = false) (bound : (p items).required ≤ (p items).roles.length)
    (short : ∀ items, items.length < (p items).required → ∀ a, read items ≠ .ok a)
    (inside : (p items).required ≤ items.length →
      ReadsItems read (p items).roles (p items).remainder items) :
    Reads (Stmt.ofForm file) .stmt (.list (.symbol tag :: items) position) := by
  refine reads_list rfl rule stable plain bound (fun items few a value => ?_) fun enough => ?_
  · rw [reading] at value
    obtain ⟨decl, value, -⟩ := bind_eq_ok_iff.1 value
    exact short items few decl value
  · simp only [reading]
    exact (inside enough).bind fun decl => pure (make decl)

theorem reads_imports (known : StmtTag.ofName? tag = some .imports) :
    Reads (Stmt.ofForm file) .stmt (.list (.symbol tag :: items) position) := by
  refine reads_declaration (ImportDecl.ofItems file position) .imports
    (p := fun _ => .exactly [.atom] (.each .specifier)) (fun items => ?_) (fun items => ?_) rfl
    rfl (Nat.le_refl _) (fun items few a => ?_) fun enough => ?_
  · unfold Stmt.ofForm
    simp only [known]
  · simp [production, stmtProduction, known]
  · rcases items with _ | ⟨source, specifiers⟩
    · exact Position.refuse_ne_ok
    · simp [Production.exactly] at few
  · rcases items with _ | ⟨source, specifiers⟩
    · simp [Production.exactly] at enough
    · exact readsItems_import position source

theorem reads_typeAlias (known : StmtTag.ofName? tag = some .typeAlias) :
    Reads (Stmt.ofForm file) .stmt (.list (.symbol tag :: items) position) := by
  refine reads_declaration (TypeAlias.ofItems file position) .typeAlias
    (p := fun items => .exactly (.atom :: aliasRoles (items.drop 1)) .refused) (fun items => ?_)
    (fun items => ?_) ?_ rfl (Nat.le_refl _) (fun items few a => alias_ne_ok few a) fun enough => ?_
  · unfold Stmt.ofForm
    simp only [known]
  · simp [production, stmtProduction, known]
  · cases items <;> simp [Production.exactly, trimItems, aliasRoles_trimItems]
  · rcases items with _ | ⟨name, items⟩
    · simp [Production.exactly] at enough
    · exact readsItems_name (fun _ _ => alias_name_ne_ok) fun name => readsItems_alias name

theorem reads_interface (known : StmtTag.ofName? tag = some .interface) :
    Reads (Stmt.ofForm file) .stmt (.list (.symbol tag :: items) position) := by
  refine reads_declaration (InterfaceDecl.ofItems file position) .interface
    (p := fun items => .exactly (.atom :: interfaceRoles (items.drop 1)) .refused)
    (fun items => ?_) (fun items => ?_) ?_ rfl (Nat.le_refl _)
    (fun items few a => interface_ne_ok few a) fun enough => ?_
  · unfold Stmt.ofForm
    simp only [known]
  · simp [production, stmtProduction, known]
  · cases items <;> simp [Production.exactly, trimItems, interfaceRoles_trimItems]
  · rcases items with _ | ⟨name, items⟩
    · simp [Production.exactly] at enough
    · exact readsItems_name (fun _ _ => interface_name_ne_ok) fun name => readsItems_interface name

/-- Reads a function declaration from the items behind its name. -/
def functionDecl (file : String) (position : Position) (name : String) (items : List Form) :
    Except ParseError Stmt := do
  let layout := FunctionLayout.ofItems 0 items
  let params ← Param.listAt file position layout.params items
  let signature ← layout.signature file params
  if layout.body + 1 = items.length then
    let body ← Stmt.bodyAt file position layout.body items
    return .function name signature body (position.inFile file)
  else position.refuse file (.bodyNotLast name)

theorem ofForm_functionDecl (known : StmtTag.ofName? tag = some .function) (name : String)
    (h : 2 ≤ items.length) :
    Stmt.ofForm file (.list (.symbol tag :: .symbol name :: items) position)
      = functionDecl file position name items := by
  match items, h with
  | second :: third :: more, _ =>
    unfold Stmt.ofForm
    simp only [known]
    rfl

theorem functionStmt_ne_ok (known : StmtTag.ofName? tag = some .function)
    (few : items.length < (signatureRoles .body (items.drop 1)).length + 1) (a : Stmt) :
    Stmt.ofForm file (.list (.symbol tag :: items) position) ≠ .ok a := by
  match items with
  | [] | [_] | [_, _] =>
    unfold Stmt.ofForm
    simp [known]
  | name :: second :: third :: more =>
    intro value
    unfold Stmt.ofForm at value
    simp only [known] at value
    obtain ⟨_, -, value⟩ := bind_eq_ok_iff.1 value
    obtain ⟨_, -, value⟩ := bind_eq_ok_iff.1 value
    obtain ⟨_, -, value⟩ := bind_eq_ok_iff.1 value
    have bound := few_of_lt (Nat.lt_of_succ_lt_succ few)
    rw [if_neg (by omega)] at value
    exact Position.refuse_ne_ok value

theorem functionStmt_name_ne_ok (known : StmtTag.ofName? tag = some .function) {name : Form}
    (h : ∀ symbol, name ≠ .symbol symbol) (a : Stmt) :
    Stmt.ofForm file (.list (.symbol tag :: name :: items) position) ≠ .ok a := by
  unfold Stmt.ofForm
  match items with
  | [] | [_] => simp [known]
  | second :: third :: more =>
    simp only [known]
    cases name with
    | symbol name => exact absurd rfl (h name)
    | list | text | number | quoted | brackets => simp [asSymbol, bind_eq_ok_iff]

theorem readsItems_functionDecl (known : StmtTag.ofName? tag = some .function) (name : String)
    (enough : (signatureRoles .body items).length ≤ items.length)
    (h : ∀ form ∈ items, Readings file form) :
    ReadsItems
      (fun items => Stmt.ofForm file (.list (.symbol tag :: .symbol name :: items) position))
      (signatureRoles .body items) .refused items := by
  have reading : ∀ parts : FunctionParts,
      Stmt.ofForm file (.list (.symbol tag :: .symbol name :: parts.items) position)
        = functionDecl file position name parts.items :=
    fun parts => ofForm_functionDecl known name parts.two_le_length
  refine FunctionParts.readsItems enough (.inr rfl)
    (k := fun read => pure (.function name read.1 read.2 (position.inFile file)))
    (fun parts none => ?_) (fun parts _ more a => ?_) (fun form mem => (h form mem).params)
    fun form mem => (h form mem).body
  · have last : (FunctionLayout.ofItems 0 parts.items).body + 1 = parts.items.length := by
      rw [parts.layout_items, parts.items_eq, none rfl]
      simp
    rw [reading]
    simp only [functionDecl, if_pos last]
    exact parts.read_items position (parts.bodyAt_items position)
  · have behind : (FunctionLayout.ofItems 0 parts.items).body + 1 ≠ parts.items.length := by
      rw [parts.layout_items, parts.items_eq]
      simpa using more
    rw [reading]
    simp [functionDecl, if_neg behind, bind_eq_ok_iff]

theorem reads_functionStmt (known : StmtTag.ofName? tag = some .function)
    (h : ∀ form ∈ items, Readings file form) :
    Reads (Stmt.ofForm file) .stmt (.list (.symbol tag :: items) position) := by
  refine reads_list rfl
    (p := fun items => .exactly (.atom :: signatureRoles .body (items.drop 1)) .refused)
    (fun items => ?_) ?_ rfl (Nat.le_refl _) (fun items few => functionStmt_ne_ok known few)
    fun enough => ?_
  · simp [production, stmtProduction, known]
  · cases items <;> simp [Production.exactly, trimItems, signatureRoles_trimItems]
  · rcases items with _ | ⟨name, items⟩
    · simp [Production.exactly] at enough
    · exact readsItems_name (fun _ _ => functionStmt_name_ne_ok known) fun name =>
        readsItems_functionDecl known name (Nat.le_of_succ_le_succ enough)
          (List.forall_mem_cons.1 h).2

theorem reads_var {kind : VarKind} (known : StmtTag.ofName? tag = some (.var kind))
    (h : ∀ form ∈ items, Readings file form) :
    Reads (Stmt.ofForm file) .stmt (.list (.symbol tag :: items) position) := by
  have both : ∀ target init more,
      Alike (Stmt.ofForm file (.list (.symbol tag :: target :: init :: more) position)) (do
        let target ← Pattern.ofForm file target
        let init ← Expr.ofForm file init
        return .var kind target (some init) (position.inFile file)) := by
    intro target init more
    unfold Stmt.ofForm
    simp only [known]
    exact .swap _ _ _
  by_cases const : kind = .const
  · subst const
    refine reads_two rfl (fun _ => ?_) both (fun items few a => ?_)
      (fun form mem => (h form mem).target) fun form mem => (h form mem).expr
    · simp [production, stmtProduction, known]
    · unfold Stmt.ofForm
      rcases items with _ | ⟨target, _ | ⟨init, more⟩⟩
      · simp [known]
      · simp [known]
      · simp only [List.length_cons] at few
        omega
  · refine reads_optional rfl (fun _ => ?_)
      (k := fun target => pure (.var kind target none (position.inFile file)))
      (fun target => ?_) both (fun a => ?_) (fun form mem => (h form mem).target)
      fun form mem => (h form mem).expr
    · cases kind with
      | const => exact absurd rfl const
      | lexical | var | other => simp [production, stmtProduction, known]
    · unfold Stmt.ofForm
      simp only [known, const, if_false]
      exact .refl _
    · unfold Stmt.ofForm
      simp [known]

theorem reads_stmt (h : ∀ form ∈ items, Readings file form) :
    Reads (Stmt.ofForm file) .stmt (.list (.symbol tag :: items) position) := by
  cases known : StmtTag.ofName? tag with
  | none =>
    refine reads_of_ne ?_ fun a => ?_
    · simp [trim, trimTagged, Role.each?, production, stmtProduction, known]
    · unfold Stmt.ofForm
      simp [known]
  | some found =>
    cases found with
    | imports => exact reads_imports known
    | typeAlias => exact reads_typeAlias known
    | interface => exact reads_interface known
    | function => exact reads_functionStmt known h
    | var kind => exact reads_var known h
    | exports =>
      refine reads_one rfl (fun _ => ?_)
        (k := fun declaration => pure (.exports declaration (position.inFile file)))
        (fun form more => ?_) (fun a => ?_) fun form mem => (h form mem).stmt
      · simp [production, stmtProduction, known]
      · conv_lhs => unfold Stmt.ofForm
        simp only [known]
        exact .refl _
      · unfold Stmt.ofForm
        simp [known]
    | ret =>
      refine reads_list rfl (p := fun _ => ⟨[.expr], 0, .ignored, false⟩) (fun _ => ?_) rfl rfl
        (Nat.zero_le _) (fun _ few => absurd few (Nat.not_lt_zero _)) fun _ => ?_
      · simp [production, stmtProduction, known]
      · rcases items with _ | ⟨form, more⟩
        · exact readsItems_nil
        · refine readsItems_cons (fun form more => ?_) (h form (List.mem_cons_self ..)).expr
            fun e => readsItems_ignored (pure (.ret (some e)))
          unfold Stmt.ofForm
          simp only [known]
          exact .refl _
    | raw =>
      refine reads_one rfl (fun _ => ?_) (k := fun text => pure (.raw text))
        (fun form more => ?_) (fun a => ?_) fun form _ => reads_asString .atom form
      · simp [production, stmtProduction, known]
      · unfold Stmt.ofForm
        simp only [known]
        exact .refl _
      · unfold Stmt.ofForm
        simp [known]

/-! ## All forms -/

theorem field_untagged_ne_ok (h : (Form.list items position).head? = none)
    (a : PatternField Pattern) : Pattern.fieldOfForm file (.list items position) ≠ .ok a := by
  match items with
  | [] | [_] => exact Position.refuse_ne_ok
  | key :: target :: more =>
    cases key with
    | symbol tag => exact nomatch h
    | list | text | number | quoted | brackets => exact nofun

theorem param_untagged_ne_ok (h : (Form.list items position).head? = none)
    (a : Param Pattern Expr) : Param.ofForm file (.list items position) ≠ .ok a := by
  match items with
  | [] | [_] => exact Position.refuse_ne_ok
  | head :: target :: more =>
    cases head with
    | symbol tag => exact nomatch h
    | list | text | number | quoted | brackets =>
      cases more with
      | nil => exact Position.refuse_ne_ok
      | cons type more =>
        intro value
        obtain ⟨_, -, value⟩ := bind_eq_ok_iff.1 value
        exact Position.refuse_ne_ok value

theorem readings_list (h : ∀ form ∈ items, Readings file form) :
    Readings file (.list items position) := by
  have params : Reads (fun form => form.asList >>= Param.ofForms file) .params
      (.list items position) :=
    reads_untagged rfl (readsItems_each (fun _ _ => .refl _) fun form mem => (h form mem).param)
  match items, h with
  | .symbol tag :: items, h =>
    have inside := (List.forall_mem_cons.1 h).2
    have field : ∀ form ∈ items, Reads (Pattern.fieldOfForm file) .field form :=
      fun form mem => (inside form mem).field
    have element : ∀ form ∈ items, Reads (Pattern.elementOfForm file) .element form :=
      fun form mem => (inside form mem).element
    have target : ∀ form ∈ items, Reads (Pattern.ofForm file) .target form :=
      fun form mem => (inside form mem).target
    have expr : ∀ form ∈ items, Reads (Expr.ofForm file) .expr form :=
      fun form mem => (inside form mem).expr
    exact {
      target := reads_target field element
      field := reads_field field target expr
      element := reads_element field element target expr
      param := reads_param (fun form mem => (inside form mem).param) target expr
      params
      expr := reads_expr inside
      body := reads_body inside
      arrowBody := reads_arrowBody inside
      stmt := reads_stmt inside }
  | [], _ | .list _ _ :: _, _ | .text _ :: _, _ | .number _ :: _, _ | .quoted _ :: _, _
  | .brackets _ :: _, _ =>
    exact {
      target := reads_of_ne rfl fun a => Form.refuse_ne_ok
      field := reads_of_ne rfl (field_untagged_ne_ok rfl)
      element := reads_of_ne rfl fun a => Form.refuse_ne_ok
      param := reads_of_ne rfl (param_untagged_ne_ok rfl)
      params
      expr := reads_of_ne rfl fun a => Form.refuse_ne_ok
      body := reads_of_ne rfl fun a => Position.refuse_ne_ok
      arrowBody := reads_expressionBody nofun (reads_of_ne rfl fun a => Form.refuse_ne_ok)
      stmt := reads_of_ne rfl fun a => Form.refuse_ne_ok }

theorem readings_atom {form : Form} (h : ∀ role, form.isExact role = true) :
    Readings file form where
  target := reads_of_exact (h _)
  field := reads_of_exact (h _)
  element := reads_of_exact (h _)
  param := reads_of_exact (h _)
  params := reads_of_exact (h _)
  expr := reads_of_exact (h _)
  body := reads_of_exact (h _)
  arrowBody := reads_of_exact (h _)
  stmt := reads_of_exact (h _)

mutual

/-- Every form is read like its trimmed form, in every place. -/
theorem readings : ∀ form : Form, Readings file form
  | .list items _ => readings_list (readings_all items)
  | .symbol _ | .text _ | .number _ | .quoted _ | .brackets _ => readings_atom fun _ => rfl

theorem readings_all : ∀ (items : List Form), ∀ form ∈ items, Readings file form
  | form :: forms => List.forall_mem_cons.2 ⟨readings form, readings_all forms⟩
  | [] => by simp

end

/-- A program form is read like its trimmed form. -/
theorem reads_program (file : String) (form : Form) :
    Reads (Program.ofForm file) .program form := by
  by_cases tag : form.head? = some "program"
  · obtain ⟨items, position, rfl⟩ := eq_list_of_head? tag
    exact reads_each rfl (fun _ => rfl) (k := fun stmts => pure ⟨stmts, file⟩) (fun _ => .refl _)
      (readsItems_stmts (readings_all items))
  · have refused : ∀ form : Form, form.head? ≠ some "program" →
        ∀ a, Program.ofForm file form ≠ .ok a := by
      intro form other a
      cases form with
      | list items position =>
        rw [Program.ofForm, if_neg other]
        exact Position.refuse_ne_ok
      | symbol | text | number | quoted | brackets => exact Form.refuse_ne_ok
    exact ⟨.of_ne (refused _ (by rwa [head?_trim])) (refused form tag),
      fun value => absurd value (refused form tag _)⟩

end

end Form

/-! ## Programs -/

/-- A form that is read as a program is exact once it is trimmed, and every form with the same
trimmed form is read as the same program. So nothing is passed over in it if and only if it is exact
itself. -/
theorem Program.exact_trim_of_ofForm {file : String} {form : Form} {program : Program}
    (h : Program.ofForm file form = .ok program) :
    (form.trim .program).isExact .program = true ∧
      (∀ other : Form, other.trim .program = form.trim .program →
        Program.ofForm file other = .ok program) ∧
      (form.isExact .program = true ↔ form.trim .program = form) := by
  have exact := (Form.reads_program file form).exact h
  refine ⟨exact, fun other same => ?_, Form.trim_eq_self, fun same => by rwa [same] at exact⟩
  have trimmed : Program.ofForm file (other.trim .program) = .ok program := by
    rw [same]
    exact ((Form.reads_program file form).alike program).2 h
  exact ((Form.reads_program file other).alike program).1 trimmed

/-- A form in which items of a target, a parameter, two types and three expressions or statements
are passed over. -/
def looseForm : Form :=
  .list [.symbol "program",
    .list [.symbol "const",
      .list [.symbol "obj", .list [.symbol "rest", .symbol "a"] {}, .symbol "b",
        .list [.symbol "rest", .symbol "c", .symbol "d"] {}] {},
      .list [.symbol "arrow",
        .list [.list [.symbol "param", .symbol "x",
          .list [.symbol "array", .symbol "number", .symbol "string"] {}, .symbol "y"] {}] {},
        .list [.symbol "returns", .symbol "number", .symbol "string"] {}, .symbol "x",
        .symbol "z"] {}, .symbol "w"] {},
    .list [.symbol "return", .list [.symbol "require", .text "m", .text "n"] {},
      .symbol "v"] {}] {}

theorem looseForm_exact_trim :
    ∃ program, Program.ofForm "loose" looseForm = .ok program ∧
      (looseForm.trim .program).isExact .program = true ∧
        (∀ other : Form, other.trim .program = looseForm.trim .program →
          Program.ofForm "loose" other = .ok program) ∧
        (looseForm.isExact .program = true ↔ looseForm.trim .program = looseForm) :=
  ⟨_, rfl, Program.exact_trim_of_ofForm rfl⟩

/-- An alias for an array type with an item too many. -/
def longArray : Form :=
  .list [.symbol "program", .list [.symbol "type", .symbol "A",
    .list [.symbol "array", .symbol "number", .symbol "string"] {}] {}] {}

/-- The form is not exact, and yet it is read: the second item of the array type is passed over. -/
theorem longArray_not_exact :
    longArray.isExact .program = false ∧
      Program.ofForm "loose" longArray = .ok ⟨[.typeAlias ⟨"A",
        .array (.primitive .number .unknown) (Position.inFile "loose" {}), [],
          Position.inFile "loose" {}⟩], "loose"⟩ :=
  ⟨rfl, rfl⟩

end TypeGuard
