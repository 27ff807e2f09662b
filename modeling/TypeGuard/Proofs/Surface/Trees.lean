import TypeGuard.Proofs.Descriptor.Encoding
import TypeGuard.Surface.Program

/-!
# The trees that are read

Trees can be handed in from outside, and lowering adds statements of its own. What is read from a
source text has fewer kinds: there are no strays, no expression statements and no blocks, and an
expression is raw text, a name, a number, a call of `require` or a function.
-/

namespace TypeGuard

mutual

/-- The pattern can be read. -/
def Pattern.Surface : Pattern → Prop
  | .ident _ => True
  | .default target value => Pattern.Surface target ∧ Expr.Surface value
  | .object fields _ => Pattern.FieldsSurface fields
  | .array elements _ => Pattern.ElementsSurface elements
  | .stray _ => False

def Pattern.FieldsSurface : List (PatternField Pattern) → Prop
  | [] => True
  | ⟨_, value⟩ :: fields => Pattern.Surface value ∧ Pattern.FieldsSurface fields

def Pattern.ElementsSurface : List (Option Pattern) → Prop
  | [] => True
  | none :: elements => Pattern.ElementsSurface elements
  | some element :: elements => Pattern.Surface element ∧ Pattern.ElementsSurface elements

def Param.Surface : Param Pattern Expr → Prop
  | ⟨binding, _, _, none, _⟩ => Pattern.Surface binding
  | ⟨binding, _, _, some value, _⟩ => Pattern.Surface binding ∧ Expr.Surface value

def Param.AllSurface : List (Param Pattern Expr) → Prop
  | [] => True
  | param :: params => Param.Surface param ∧ Param.AllSurface params

/-- The expression can be read. -/
def Expr.Surface : Expr → Prop
  | .raw _ => True
  | .ident _ => True
  | .number _ => True
  | .call callee args => ∃ module, Expr.call callee args = .require module
  | .function ⟨params, _, _⟩ body _ _ => Param.AllSurface params ∧ Stmt.AllSurface body
  | .arrow ⟨params, _, _⟩ body _ => Param.AllSurface params ∧ Expr.BodySurface body
  | _ => False

def Expr.BodySurface : Body Stmt Expr → Prop
  | .block stmts => Stmt.AllSurface stmts
  | .expression value => Expr.Surface value

/-- The statement can be read. -/
def Stmt.Surface : Stmt → Prop
  | .ret none => True
  | .ret (some argument) => Expr.Surface argument
  | .raw _ => True
  | .var _ target none _ => Pattern.Surface target
  | .var _ target (some init) _ => Pattern.Surface target ∧ Expr.Surface init
  | .function _ ⟨params, _, _⟩ body _ => Param.AllSurface params ∧ Stmt.AllSurface body
  | .typeAlias _ => True
  | .interface _ => True
  | .imports _ => True
  | .exports declaration _ => Stmt.Surface declaration
  | _ => False

def Stmt.AllSurface : List Stmt → Prop
  | [] => True
  | s :: ss => Stmt.Surface s ∧ Stmt.AllSurface ss

end

theorem Param.Surface.binding {param : Param Pattern Expr} (h : param.Surface) :
    param.binding.Surface := by
  obtain ⟨_, _, _, _ | value, _⟩ := param
  · exact h
  · exact h.1

@[simp] theorem Form.refuse_ne_ok {α : Type} {file : String} {form : Form} {cause : FormError}
    {a : α} : form.refuse file cause ≠ .ok a := by
  simp [Form.refuse]

@[simp] theorem Position.refuse_ne_ok {α : Type} {file : String} {position : Position}
    {cause : FormError} {a : α} : position.refuse file cause ≠ .ok a := by
  simp [Position.refuse]

/-- A signature has the parameters it is made with. -/
theorem FunctionLayout.params_signature {file : String} {layout : FunctionLayout}
    {params : List (Param Pattern Expr)} {signature : Signature Pattern Expr}
    (h : layout.signature file params = .ok signature) : signature.params = params := by
  simp only [FunctionLayout.signature, bind_eq_ok_iff, pure_eq_ok_iff] at h
  obtain ⟨_, -, _, -, rfl⟩ := h
  rfl

section
variable {file : String}

/-- The parameter has no default, and binds a name or what the form reads as. -/
def Param.Plain (file : String) (target : Form) (param : Param Pattern Expr) : Prop :=
  param.default = none ∧
    ((∃ name, param.binding = .ident name) ∨ Pattern.ofForm file target = .ok param.binding)

theorem Param.Plain.surface {target : Form} {param : Param Pattern Expr}
    (h : param.Plain file target)
    (read : ∀ p, Pattern.ofForm file target = .ok p → p.Surface) : param.Surface := by
  obtain ⟨binding, _, _, _, _⟩ := param
  obtain ⟨rfl, ⟨name, rfl⟩ | same⟩ := h
  · trivial
  · exact read binding same

theorem Param.of_ofForm_list {head target : Form} {more : List Form} {position : Position}
    {param : Param Pattern Expr}
    (h : Param.ofForm file (.list (head :: target :: more) position) = .ok param) :
    (∃ inner e, Param.ofForm file target = .ok inner ∧
      more.head?.map (Expr.ofForm file) = some (.ok e) ∧
      param = { inner with default := some e }) ∨ param.Plain file target := by
  unfold Param.ofForm at h
  dsimp only at h
  split at h
  · simp at h
  · simp only [bind_eq_ok_iff, pure_eq_ok_iff] at h
    obtain ⟨inner, read, e, value, rfl⟩ := h
    exact .inl ⟨inner, e, read, congrArg some value, rfl⟩
  · right
    split at h
    · obtain ⟨type, -, h⟩ := bind_eq_ok_iff.1 h
      split at h <;> grind [Param.Plain, Position.refuse, bind_eq_ok_iff, pure_eq_ok_iff]
    · obtain ⟨_, -, h⟩ := bind_eq_ok_iff.1 h
      obtain ⟨type, -, h⟩ := bind_eq_ok_iff.1 h
      split at h <;> grind [Param.Plain, Position.refuse, bind_eq_ok_iff, pure_eq_ok_iff]

theorem Expr.of_bodyAt_zero {form : Form} {forms : List Form} {position : Position}
    {body : Body Stmt Expr} (h : Expr.bodyAt file position 0 (form :: forms) = .ok body) :
    (∃ stmts, Stmt.bodyOfForm file form = .ok stmts ∧ body = .block stmts) ∨
      ∃ e, Expr.ofForm file form = .ok e ∧ body = .expression e := by
  unfold Expr.bodyAt at h
  split at h
  all_goals simp only [bind_eq_ok_iff, pure_eq_ok_iff] at h
  · obtain ⟨stmts, read, rfl⟩ := h
    exact .inl ⟨stmts, by simpa [Stmt.bodyOfForm] using read, rfl⟩
  · obtain ⟨e, read, rfl⟩ := h
    exact .inr ⟨e, read, rfl⟩

mutual

theorem Pattern.ofForm_surface : ∀ (form : Form) {p : Pattern},
    Pattern.ofForm file form = .ok p → p.Surface
  | .symbol name, p, h => by
    obtain rfl : Pattern.ident name = p := by simpa [Pattern.ofForm] using h
    trivial
  | .list (.symbol tag :: items) position, p, h => by
    unfold Pattern.ofForm at h
    split at h
    · simp only [bind_eq_ok_iff, pure_eq_ok_iff] at h
      obtain ⟨⟨fields, rest⟩, read, rfl⟩ := h
      exact Pattern.fieldsOfForms_surface items read
    · split at h
      · simp only [bind_eq_ok_iff, pure_eq_ok_iff] at h
        obtain ⟨⟨elements, rest⟩, read, rfl⟩ := h
        exact Pattern.elementsOfForms_surface items read
      · simp at h
  | .list [] _, _, h | .list (.text _ :: _) _, _, h | .list (.number _ :: _) _, _, h
  | .list (.list _ _ :: _) _, _, h | .list (.quoted _ :: _) _, _, h
  | .list (.brackets _ :: _) _, _, h | .text _, _, h | .number _, _, h | .quoted _, _, h
  | .brackets _, _, h => by simp [Pattern.ofForm] at h
termination_by structural form => form

theorem Pattern.fieldsOfForms_surface : ∀ (forms : List Form)
    {fields : List (PatternField Pattern)} {rest : Option String},
    Pattern.fieldsOfForms file forms = .ok (fields, rest) → Pattern.FieldsSurface fields
  | [], fields, rest, h => by
    obtain ⟨rfl, -⟩ : [] = fields ∧ none = rest := by simpa [Pattern.fieldsOfForms] using h
    trivial
  | form :: forms, fields, rest, h => by
    unfold Pattern.fieldsOfForms at h
    split at h
    · simp only [bind_eq_ok_iff, pure_eq_ok_iff] at h
      obtain ⟨_, -, ⟨others, _⟩, read, same⟩ := h
      cases same
      exact Pattern.fieldsOfForms_surface forms read
    · simp only [bind_eq_ok_iff, pure_eq_ok_iff] at h
      obtain ⟨field, first, ⟨others, _⟩, read, same⟩ := h
      cases same
      exact ⟨Pattern.fieldOfForm_surface form first, Pattern.fieldsOfForms_surface forms read⟩
termination_by structural forms => forms

theorem Pattern.fieldOfForm_surface : ∀ (form : Form) {field : PatternField Pattern},
    Pattern.fieldOfForm file form = .ok field → field.value.Surface
  | .symbol name, field, h => by
    obtain rfl : ⟨name, .ident name⟩ = field := by simpa [Pattern.fieldOfForm] using h
    trivial
  | .list (.symbol key :: target :: more) position, field, h => by
    unfold Pattern.fieldOfForm at h
    dsimp only at h
    split at h
    · match more, h with
      | [], h => simp at h
      | value :: _, h =>
        simp only [bind_eq_ok_iff, pure_eq_ok_iff] at h
        obtain ⟨inner, read, e, default, rfl⟩ := h
        exact ⟨Pattern.fieldOfForm_surface target read, Expr.ofForm_surface value default⟩
    · simp only [bind_eq_ok_iff, pure_eq_ok_iff] at h
      obtain ⟨p, read, rfl⟩ := h
      exact Pattern.ofForm_surface target read
  | .list (.text _ :: _ :: _) _, _, h | .list (.number _ :: _ :: _) _, _, h
  | .list (.list _ _ :: _ :: _) _, _, h | .list (.quoted _ :: _ :: _) _, _, h
  | .list (.brackets _ :: _ :: _) _, _, h => by simp [Pattern.fieldOfForm] at h
  | .list [] _, _, h | .list [_] _, _, h | .text _, _, h | .number _, _, h | .quoted _, _, h
  | .brackets _, _, h => by simp [Pattern.fieldOfForm] at h
termination_by structural form => form

theorem Pattern.elementsOfForms_surface : ∀ (forms : List Form)
    {elements : List (Option Pattern)} {rest : Option String},
    Pattern.elementsOfForms file forms = .ok (elements, rest) → Pattern.ElementsSurface elements
  | [], elements, rest, h => by
    obtain ⟨rfl, -⟩ : [] = elements ∧ none = rest := by simpa [Pattern.elementsOfForms] using h
    trivial
  | form :: forms, elements, rest, h => by
    unfold Pattern.elementsOfForms at h
    split at h
    · simp only [bind_eq_ok_iff, pure_eq_ok_iff] at h
      obtain ⟨_, -, ⟨others, _⟩, read, same⟩ := h
      cases same
      exact Pattern.elementsOfForms_surface forms read
    · simp only [bind_eq_ok_iff, pure_eq_ok_iff] at h
      obtain ⟨element, first, ⟨others, _⟩, read, same⟩ := h
      cases same
      have later := Pattern.elementsOfForms_surface forms read
      cases element with
      | none => exact later
      | some p => exact ⟨Pattern.elementOfForm_surface form first, later⟩
termination_by structural forms => forms

theorem Pattern.elementOfForm_surface : ∀ (form : Form) {p : Pattern},
    Pattern.elementOfForm file form = .ok (some p) → p.Surface
  | .symbol name, p, h => by
    unfold Pattern.elementOfForm at h
    split at h
    · simp at h
    · cases h
      trivial
  | .list (.symbol tag :: items) position, p, h => by
    unfold Pattern.elementOfForm at h
    split at h
    · match items, h with
      | target :: value :: _, h =>
        simp only [bind_eq_ok_iff, pure_eq_ok_iff] at h
        obtain ⟨inner, read, e, default, same⟩ := h
        cases same
        exact ⟨Pattern.ofForm_surface target read, Expr.ofForm_surface value default⟩
      | [], h | [_], h => simp at h
    · split at h
      · simp only [bind_eq_ok_iff, pure_eq_ok_iff] at h
        obtain ⟨⟨fields, rest⟩, read, same⟩ := h
        cases same
        exact Pattern.fieldsOfForms_surface items read
      · split at h
        · simp only [bind_eq_ok_iff, pure_eq_ok_iff] at h
          obtain ⟨⟨elements, rest⟩, read, same⟩ := h
          cases same
          exact Pattern.elementsOfForms_surface items read
        · simp at h
  | .list [] _, _, h | .list (.text _ :: _) _, _, h | .list (.number _ :: _) _, _, h
  | .list (.list _ _ :: _) _, _, h | .list (.quoted _ :: _) _, _, h
  | .list (.brackets _ :: _) _, _, h | .text _, _, h | .number _, _, h | .quoted _, _, h
  | .brackets _, _, h => by simp [Pattern.elementOfForm] at h
termination_by structural form => form

theorem Param.ofForm_surface : ∀ (form : Form) {param : Param Pattern Expr},
    Param.ofForm file form = .ok param → param.Surface
  | .symbol name, param, h => by
    simp only [Param.ofForm, Except.ok.injEq] at h
    subst h
    trivial
  | .list [head, target] position, param, h => by
    obtain ⟨_, _, -, none, -⟩ | plain := Param.of_ofForm_list h
    · simp at none
    · exact plain.surface fun p read => Pattern.ofForm_surface target read
  | .list (head :: target :: value :: more) position, param, h => by
    obtain ⟨inner, e, read, default, rfl⟩ | plain := Param.of_ofForm_list h
    · have value : Expr.ofForm file value = .ok e := by simpa using default
      exact ⟨(Param.ofForm_surface target read).binding, Expr.ofForm_surface _ value⟩
    · exact plain.surface fun p read => Pattern.ofForm_surface target read
  | .list [] _, _, h | .list [_] _, _, h => by simp [Param.ofForm] at h
  | .text _, _, h | .number _, _, h | .quoted _, _, h | .brackets _, _, h => by
    simp [Param.ofForm] at h
termination_by structural form => form

theorem Param.ofForms_surface : ∀ (forms : List Form) {params : List (Param Pattern Expr)},
    Param.ofForms file forms = .ok params → Param.AllSurface params
  | [], params, h => by
    obtain rfl : [] = params := by simpa [Param.ofForms] using h
    trivial
  | form :: forms, params, h => by
    simp only [Param.ofForms, bind_eq_ok_iff, pure_eq_ok_iff] at h
    obtain ⟨param, read, others, rest, rfl⟩ := h
    exact ⟨Param.ofForm_surface form read, Param.ofForms_surface forms rest⟩
termination_by structural forms => forms

theorem Param.listAt_surface (position : Position) : ∀ (n : Nat) (forms : List Form)
    {params : List (Param Pattern Expr)},
    Param.listAt file position n forms = .ok params → Param.AllSurface params
  | 0, .list forms _ :: _, params, h => Param.ofForms_surface forms h
  | n + 1, _ :: forms, params, h => by
    rw [Param.listAt] at h
    exact Param.listAt_surface position n forms h
  | _, [], _, h => by simp [Param.listAt] at h
  | 0, .symbol _ :: _, _, h | 0, .text _ :: _, _, h | 0, .number _ :: _, _, h
  | 0, .quoted _ :: _, _, h | 0, .brackets _ :: _, _, h => by simp [Param.listAt] at h
termination_by structural _ forms => forms

theorem Expr.ofForm_surface : ∀ (form : Form) {e : Expr}, Expr.ofForm file form = .ok e → e.Surface
  | .text value, e, h | .symbol name, e, h | .number value, e, h => by
    cases h
    trivial
  | .list (.symbol tag :: items) position, e, h => by
    unfold Expr.ofForm at h
    cases found : ExprTag.ofName? tag with
    | none => simp [found] at h
    | some kind =>
      cases kind with
      | require =>
        simp only [found] at h
        split at h
        · simp at h
        · simp only [bind_eq_ok_iff, pure_eq_ok_iff] at h
          obtain ⟨module, -, rfl⟩ := h
          exact ⟨module, rfl⟩
      | function =>
        simp only [found, bind_eq_ok_iff, pure_eq_ok_iff] at h
        obtain ⟨params, read, signature, rest, body, stmts, rfl⟩ := h
        obtain rfl := FunctionLayout.params_signature rest
        exact ⟨Param.listAt_surface position _ items read, Stmt.bodyAt_surface position _ items stmts⟩
      | arrow =>
        simp only [found, bind_eq_ok_iff, pure_eq_ok_iff] at h
        obtain ⟨params, read, signature, rest, body, stmts, rfl⟩ := h
        obtain rfl := FunctionLayout.params_signature rest
        exact ⟨Param.listAt_surface position _ items read, Expr.bodyAt_surface position _ items stmts⟩
  | .list [] _, _, h | .list (.text _ :: _) _, _, h | .list (.number _ :: _) _, _, h
  | .list (.list _ _ :: _) _, _, h | .list (.quoted _ :: _) _, _, h
  | .list (.brackets _ :: _) _, _, h | .quoted _, _, h | .brackets _, _, h => by
    simp [Expr.ofForm] at h
termination_by structural form => form

theorem Expr.bodyAt_surface (position : Position) : ∀ (n : Nat) (forms : List Form)
    {body : Body Stmt Expr}, Expr.bodyAt file position n forms = .ok body → Expr.BodySurface body
  | 0, form :: _, body, h => by
    obtain ⟨stmts, read, rfl⟩ | ⟨e, read, rfl⟩ := Expr.of_bodyAt_zero h
    · exact Stmt.bodyOfForm_surface form read
    · exact Expr.ofForm_surface form read
  | n + 1, _ :: forms, body, h => by
    rw [Expr.bodyAt] at h
    exact Expr.bodyAt_surface position n forms h
  | _, [], _, h => by simp [Expr.bodyAt] at h
termination_by structural _ forms => forms

theorem Stmt.bodyAt_surface (position : Position) : ∀ (n : Nat) (forms : List Form)
    {stmts : List Stmt}, Stmt.bodyAt file position n forms = .ok stmts → Stmt.AllSurface stmts
  | 0, form :: _, stmts, h => by
    rw [Stmt.bodyAt] at h
    exact Stmt.bodyOfForm_surface form h
  | n + 1, _ :: forms, stmts, h => by
    rw [Stmt.bodyAt] at h
    exact Stmt.bodyAt_surface position n forms h
  | _, [], _, h => by simp [Stmt.bodyAt] at h
termination_by structural _ forms => forms

theorem Stmt.bodyOfForm_surface : ∀ (form : Form) {stmts : List Stmt},
    Stmt.bodyOfForm file form = .ok stmts → Stmt.AllSurface stmts
  | .list (.symbol tag :: forms) position, stmts, h => by
    unfold Stmt.bodyOfForm at h
    split at h
    · exact Stmt.ofForms_surface forms h
    · simp at h
  | .list [] _, _, h | .list (.text _ :: _) _, _, h | .list (.number _ :: _) _, _, h
  | .list (.list _ _ :: _) _, _, h | .list (.quoted _ :: _) _, _, h
  | .list (.brackets _ :: _) _, _, h | .symbol _, _, h | .text _, _, h | .number _, _, h
  | .quoted _, _, h | .brackets _, _, h => by simp [Stmt.bodyOfForm] at h
termination_by structural form => form

theorem Stmt.ofForm_surface : ∀ (form : Form) {s : Stmt}, Stmt.ofForm file form = .ok s → s.Surface
  | .list (.symbol tag :: items) position, s, h => by
    unfold Stmt.ofForm at h
    cases found : StmtTag.ofName? tag with
    | none => simp [found] at h
    | some kind =>
      cases kind with
      | imports | typeAlias | interface =>
        simp only [found, bind_eq_ok_iff, pure_eq_ok_iff] at h
        obtain ⟨decl, -, rfl⟩ := h
        trivial
      | function =>
        match items, h with
        | name :: second :: third :: more, h =>
          simp only [found, bind_eq_ok_iff] at h
          obtain ⟨name, -, params, read, signature, rest, h⟩ := h
          split at h
          · simp only [bind_eq_ok_iff, pure_eq_ok_iff] at h
            obtain ⟨body, stmts, rfl⟩ := h
            obtain rfl := FunctionLayout.params_signature rest
            exact ⟨Param.listAt_surface position _ _ read, Stmt.bodyAt_surface position _ _ stmts⟩
          · simp at h
        | [], h | [_], h | [_, _], h => simp [found] at h
      | var kind =>
        match items, h with
        | [target], h =>
          simp only [found] at h
          split at h
          · simp at h
          · simp only [bind_eq_ok_iff, pure_eq_ok_iff] at h
            obtain ⟨p, read, rfl⟩ := h
            exact Pattern.ofForm_surface target read
        | target :: init :: _, h =>
          simp only [found, bind_eq_ok_iff, pure_eq_ok_iff] at h
          obtain ⟨e, value, p, read, rfl⟩ := h
          exact ⟨Pattern.ofForm_surface target read, Expr.ofForm_surface init value⟩
        | [], h => simp [found] at h
      | exports =>
        match items, h with
        | declaration :: _, h =>
          simp only [found, bind_eq_ok_iff, pure_eq_ok_iff] at h
          obtain ⟨inner, read, rfl⟩ := h
          have surface : inner.Surface := Stmt.ofForm_surface declaration read
          exact surface
        | [], h => simp [found] at h
      | ret =>
        match items, h with
        | argument :: _, h =>
          simp only [found, bind_eq_ok_iff, pure_eq_ok_iff] at h
          obtain ⟨e, read, rfl⟩ := h
          exact Expr.ofForm_surface argument read
        | [], h =>
          simp only [found, Except.ok.injEq] at h
          subst h
          trivial
      | raw =>
        match items, h with
        | text :: _, h =>
          simp only [found, bind_eq_ok_iff, pure_eq_ok_iff] at h
          obtain ⟨text, -, rfl⟩ := h
          trivial
        | [], h => simp [found] at h
  | .list [] _, _, h | .list (.text _ :: _) _, _, h | .list (.number _ :: _) _, _, h
  | .list (.list _ _ :: _) _, _, h | .list (.quoted _ :: _) _, _, h
  | .list (.brackets _ :: _) _, _, h | .symbol _, _, h | .text _, _, h | .number _, _, h
  | .quoted _, _, h | .brackets _, _, h => by simp [Stmt.ofForm] at h
termination_by structural form => form

theorem Stmt.ofForms_surface : ∀ (forms : List Form) {stmts : List Stmt},
    Stmt.ofForms file forms = .ok stmts → Stmt.AllSurface stmts
  | [], stmts, h => by
    obtain rfl : [] = stmts := by simpa [Stmt.ofForms] using h
    trivial
  | form :: forms, stmts, h => by
    simp only [Stmt.ofForms, bind_eq_ok_iff, pure_eq_ok_iff] at h
    obtain ⟨s, read, others, rest, rfl⟩ := h
    exact ⟨Stmt.ofForm_surface form read, Stmt.ofForms_surface forms rest⟩
termination_by structural forms => forms

end

/-- Every parsed program is made of what can be read. -/
theorem Program.parse_surface {source : String} {program : Program}
    (h : Program.parse file source = .ok program) : Stmt.AllSurface program.body := by
  unfold Program.parse at h
  split at h
  · cases h
  next form _ =>
    cases form with
    | list items position =>
      simp only [Program.ofForm] at h
      split at h
      · simp only [bind_eq_ok_iff, pure_eq_ok_iff] at h
        obtain ⟨stmts, read, rfl⟩ := h
        exact Stmt.ofForms_surface _ read
      · simp at h
    | symbol | text | number | quoted | brackets => simp [Program.ofForm] at h

end

end TypeGuard
