import TypeGuard.Proofs.Form.Openings
import TypeGuard.Proofs.Surface.Trees

/-!
# Places in the trees that are read

Parse errors and the functions, type declarations and annotations of a tree have places. They all
come from the lists of the form that was read: `Program.parse_ends` says that they are in the file that
was named, at an opening parenthesis of its text or, where nothing is known, at line zero.
-/

namespace TypeGuard

section
variable (ok : Location → Prop)

/-- The place of a part that was read, or none. -/
def Location.OrUnknown (loc : Location) : Prop := loc = .unknown ∨ ok loc

/-- The error has no place, or one that is `ok`. -/
def ParseError.At (e : ParseError) : Prop := ∀ loc, e.loc? = some loc → ok loc

/-- All lists in the form have places that are `ok`. -/
def Form.Placed (file : String) (form : Form) : Prop := ∀ p ∈ form.positions, ok (p.inFile file)

def Form.AllPlaced (file : String) (forms : List Form) : Prop :=
  ∀ p ∈ Form.allPositions forms, ok (p.inFile file)

end

section
variable {ok : Location → Prop} {file : String}

theorem Form.placed_list {items : List Form} {position : Position} :
    (Form.list items position).Placed ok file ↔
      ok (position.inFile file) ∧ Form.AllPlaced ok file items := by
  simp [Form.Placed, Form.AllPlaced, Form.positions]

@[simp] theorem Form.allPlaced_cons {form : Form} {forms : List Form} :
    Form.AllPlaced ok file (form :: forms) ↔ form.Placed ok file ∧ Form.AllPlaced ok file forms := by
  simp [Form.Placed, Form.AllPlaced, Form.allPositions, or_imp, forall_and]

theorem Form.AllPlaced.of_mem {form : Form} {forms : List Form} (h : Form.AllPlaced ok file forms)
    (member : form ∈ forms) : form.Placed ok file := by
  induction forms with
  | nil => cases member
  | cons first forms ih =>
    obtain ⟨here, later⟩ := Form.allPlaced_cons.1 h
    obtain rfl | member := List.mem_cons.1 member
    · exact here
    · exact ih later member

theorem Form.AllPlaced.drop {forms : List Form} (h : Form.AllPlaced ok file forms) (n : Nat) :
    Form.AllPlaced ok file (forms.drop n) := by
  induction forms generalizing n with
  | nil => simpa using h
  | cons form forms ih =>
    cases n with
    | zero => exact h
    | succ n => exact ih (Form.allPlaced_cons.1 h).2 n

variable {α : Type} {holds : α → Prop}

theorem Position.refuse_ends {position : Position} (h : ok (position.inFile file))
    (cause : FormError) : Ends (ParseError.At ok) holds (position.refuse file cause) := by
  intro loc same
  obtain rfl := Option.some.inj same
  exact h

theorem Form.refuse_ends : ∀ {form : Form}, form.Placed ok file → ∀ cause : FormError,
    Ends (ParseError.At ok) holds (form.refuse file cause)
  | .list _ _, h, cause => Position.refuse_ends (Form.placed_list.1 h).1 cause
  | .symbol _, _, _ | .text _, _, _ | .number _, _, _ | .quoted _, _, _ | .brackets _, _, _ => by
    rintro loc ⟨⟩

theorem ParseError.at_none (cause : FormError) : ParseError.At ok (.misshapen cause none) := by
  rintro loc ⟨⟩

theorem Form.asSymbol_ends (form : Form) : FailsOnly (ParseError.At ok) form.asSymbol := by
  cases form <;> first | trivial | exact ParseError.at_none _

theorem Form.asString_ends (form : Form) : FailsOnly (ParseError.At ok) form.asString := by
  cases form <;> first | trivial | exact ParseError.at_none _

theorem QualifiedName.ofString_ends (name : String) :
    FailsOnly (ParseError.At ok) (QualifiedName.ofString name) := by
  unfold QualifiedName.ofString
  dsimp only
  split
  · exact ParseError.at_none _
  · trivial

end

/-! ## Annotations -/

section
variable (ok : Location → Prop)

mutual

/-- All places at which the encoding of an annotation looks are `ok` or not known, and none of its
parts is a stray. -/
def Ty.Placed : Ty → Prop
  | .named ⟨_, none, loc⟩ => loc.OrUnknown ok
  | .named ⟨_, some args, loc⟩ => loc.OrUnknown ok ∧ Ty.AllPlaced args
  | .array element _ => Ty.Placed element
  | .nullable inner _ => Ty.Placed inner
  | .tuple types _ => Ty.AllPlaced types
  | .union types _ => Ty.AllPlaced types
  | .intersection types loc => loc.OrUnknown ok ∧ Ty.AllPlaced types
  | .object ⟨properties, indexers, loc⟩ =>
    loc.OrUnknown ok ∧ Ty.PropertiesPlaced properties ∧ Ty.IndexersPlaced indexers
  | .function _ _ _ => True
  | .primitive _ _ => True
  | .string _ _ => True
  | .number _ _ => True
  | .boolean _ loc => loc.OrUnknown ok
  | .typeof _ loc => loc.OrUnknown ok
  | .stray _ => False
termination_by structural type => type

def Ty.AllPlaced : List Ty → Prop
  | [] => True
  | type :: types => Ty.Placed type ∧ Ty.AllPlaced types
termination_by structural types => types

def Ty.PropertiesPlaced : List (Property Ty) → Prop
  | [] => True
  | ⟨_, value, _, _⟩ :: properties => Ty.Placed value ∧ Ty.PropertiesPlaced properties
termination_by structural properties => properties

def Ty.IndexersPlaced : List (Indexer Ty) → Prop
  | [] => True
  | ⟨key, value, _, _⟩ :: indexers => Ty.Placed key ∧ Ty.Placed value ∧ Ty.IndexersPlaced indexers
termination_by structural indexers => indexers

end

end

section
variable {ok : Location → Prop} {file : String}

theorem Ty.ofSymbol_ends (name : String) :
    Ends (ParseError.At ok) (Ty.Placed ok) (Ty.ofSymbol name) := by
  unfold Ty.ofSymbol
  split
  · trivial
  · split
    · exact .inl rfl
    · split
      · exact .inl rfl
      · exact (QualifiedName.ofString_ends name).bind fun _ _ => .pure (.inl rfl)

mutual

theorem Ty.ofForm_ends : ∀ form : Form, form.Placed ok file →
    Ends (ParseError.At ok) (Ty.Placed ok) (Ty.ofForm file form)
  | .symbol name, _ => Ty.ofSymbol_ends name
  | .text _, _ | .number _, _ => trivial
  | .list (.symbol tag :: args) position, h => by
    obtain ⟨here, inside⟩ := Form.placed_list.1 h
    replace inside := (Form.allPlaced_cons.1 inside).2
    have known : (position.inFile file).OrUnknown ok := .inr here
    unfold Ty.ofForm
    cases TypeTag.ofName? tag with
    | none =>
      exact (QualifiedName.ofString_ends tag).bind fun _ _ =>
        (Ty.ofForms_ends args inside).bind fun types placed => .pure ⟨known, placed⟩
    | some kind =>
      cases kind with
      | array | maybe =>
        match args, inside with
        | element :: _, inside =>
          exact (Ty.ofForm_ends element (Form.allPlaced_cons.1 inside).1).bind fun _ placed =>
            .pure placed
        | [], _ => exact Position.refuse_ends here _
      | tuple => exact (Ty.ofForms_ends args inside).bind fun _ placed => .pure placed
      | union =>
        match args, inside with
        | first :: others, inside =>
          obtain ⟨inFirst, inOthers⟩ := Form.allPlaced_cons.1 inside
          exact (Ty.ofForm_ends first inFirst).bind fun _ placed =>
            (Ty.ofForms_ends others inOthers).bind fun _ rest => .pure ⟨placed, rest⟩
        | [], _ => exact Position.refuse_ends here _
      | intersection =>
        match args, inside with
        | first :: others, inside =>
          obtain ⟨inFirst, inOthers⟩ := Form.allPlaced_cons.1 inside
          exact (Ty.ofForm_ends first inFirst).bind fun _ placed =>
            (Ty.ofForms_ends others inOthers).bind fun _ rest => .pure ⟨known, placed, rest⟩
        | [], _ => exact Position.refuse_ends here _
      | object =>
        exact (Ty.membersOfForms_ends args inside).bind fun _ placed => .pure ⟨known, placed⟩
      | fn =>
        match args, inside with
        | .list params _ :: result :: _, inside =>
          obtain ⟨inParams, inRest⟩ := Form.allPlaced_cons.1 inside
          exact (Ty.ofForms_ends params (Form.placed_list.1 inParams).2).bind fun _ _ =>
            (Ty.ofForm_ends result (Form.allPlaced_cons.1 inRest).1).bind fun _ _ => .pure trivial
        | .symbol _ :: _ :: _, inside | .text _ :: _ :: _, inside | .number _ :: _ :: _, inside
        | .quoted _ :: _ :: _, inside | .brackets _ :: _ :: _, inside =>
          exact Form.refuse_ends (Form.allPlaced_cons.1 inside).1 _
        | [], _ => exact Position.refuse_ends here _
        | [only], _ => cases only <;> exact Position.refuse_ends here _
      | typeof =>
        match args, inside with
        | argument :: _, inside =>
          have inArgument := (Form.allPlaced_cons.1 inside).1
          refine (Ty.ofForm_ends argument inArgument).bind fun type _ => ?_
          split
          · exact known
          · exact Form.refuse_ends inArgument _
        | [], _ => exact Position.refuse_ends here _
  | .list [] _, h | .list (.text _ :: _) _, h | .list (.number _ :: _) _, h
  | .list (.list _ _ :: _) _, h | .list (.quoted _ :: _) _, h
  | .list (.brackets _ :: _) _, h => Position.refuse_ends (Form.placed_list.1 h).1 _
  | .quoted _, h | .brackets _, h => Form.refuse_ends h _
termination_by structural form => form

theorem Ty.ofForms_ends : ∀ forms : List Form, Form.AllPlaced ok file forms →
    Ends (ParseError.At ok) (Ty.AllPlaced ok) (Ty.ofForms file forms)
  | [], _ => trivial
  | form :: forms, h => by
    obtain ⟨first, others⟩ := Form.allPlaced_cons.1 h
    exact (Ty.ofForm_ends form first).bind fun type placed =>
      (Ty.ofForms_ends forms others).bind fun types rest => .pure ⟨placed, rest⟩
termination_by structural forms => forms

theorem Ty.membersOfForms_ends : ∀ forms : List Form, Form.AllPlaced ok file forms →
    Ends (ParseError.At ok)
      (fun members => Ty.PropertiesPlaced ok members.1 ∧ Ty.IndexersPlaced ok members.2)
      (Ty.membersOfForms file forms)
  | [], _ => ⟨trivial, trivial⟩
  | .list (.symbol tag :: parts) position :: forms, h => by
    obtain ⟨first, others⟩ := Form.allPlaced_cons.1 h
    obtain ⟨here, inside⟩ := Form.placed_list.1 first
    replace inside := (Form.allPlaced_cons.1 inside).2
    have rest := Ty.membersOfForms_ends forms others
    unfold Ty.membersOfForms
    dsimp only
    split
    · match parts, inside with
      | key :: value :: _, inside =>
        have inValue := (Form.allPlaced_cons.1 (Form.allPlaced_cons.1 inside).2).1
        exact (Form.asSymbol_ends key).bind fun _ _ => (Ty.ofForm_ends value inValue).bind
          fun _ placed => rest.bind fun _ later => .pure ⟨⟨placed, later.1⟩, later.2⟩
      | [], _ | [_], _ => exact Position.refuse_ends here _
    · split
      · match parts, inside with
        | [key, value], inside =>
          obtain ⟨inKey, inValue⟩ := Form.allPlaced_cons.1 inside
          exact (Ty.ofForm_ends key inKey).bind fun _ placed =>
            (Ty.ofForm_ends value (Form.allPlaced_cons.1 inValue).1).bind fun _ placed' =>
              rest.bind fun _ later => .pure ⟨later.1, placed, placed', later.2⟩
        | [id, key, value], inside =>
          obtain ⟨inKey, inValue⟩ := Form.allPlaced_cons.1 (Form.allPlaced_cons.1 inside).2
          exact (Form.asSymbol_ends id).bind fun _ _ => (Ty.ofForm_ends key inKey).bind
            fun _ placed => (Ty.ofForm_ends value (Form.allPlaced_cons.1 inValue).1).bind
              fun _ placed' => rest.bind fun _ later => .pure ⟨later.1, placed, placed', later.2⟩
        | [], _ | [_], _ | _ :: _ :: _ :: _ :: _, _ => exact Position.refuse_ends here _
      · exact Position.refuse_ends here _
  | .list [] _ :: _, h | .list (.text _ :: _) _ :: _, h | .list (.number _ :: _) _ :: _, h
  | .list (.list _ _ :: _) _ :: _, h | .list (.quoted _ :: _) _ :: _, h
  | .list (.brackets _ :: _) _ :: _, h | .symbol _ :: _, h | .text _ :: _, h | .number _ :: _, h
  | .quoted _ :: _, h | .brackets _ :: _, h => Form.refuse_ends (Form.allPlaced_cons.1 h).1 _
termination_by structural forms => forms

end

theorem TypeRef.ofForm_ends {form : Form} (h : form.Placed ok file) :
    Ends (ParseError.At ok) (fun ref => Ty.Placed ok (.named ref)) (TypeRef.ofForm file form) := by
  refine (Ty.ofForm_ends form h).bind fun type placed => ?_
  split
  · exact placed
  · exact Form.refuse_ends h _

theorem ObjectShape.ofForm_ends : ∀ {form : Form}, form.Placed ok file →
    Ends (ParseError.At ok) (fun shape => Ty.Placed ok (.object shape))
      (ObjectShape.ofForm file form)
  | .list items position, h => by
    obtain ⟨here, inside⟩ := Form.placed_list.1 h
    have members := inside.drop 1
    unfold ObjectShape.ofForm
    dsimp only
    split
    · exact (Ty.membersOfForms_ends _ members).bind fun _ placed => .pure ⟨.inr here, placed⟩
    · exact Position.refuse_ends here _
  | .symbol _, h | .text _, h | .number _, h | .quoted _, h | .brackets _, h => Form.refuse_ends h _

end

/-! ## Programs -/

section
variable (ok : Location → Prop)

/-- All annotations of the declaration, and the declaration itself, have places that are `ok`. -/
def TypeAlias.Placed (decl : TypeAlias) : Prop := ok decl.loc ∧ decl.right.Placed ok

def InterfaceDecl.Placed (decl : InterfaceDecl) : Prop :=
  ok decl.loc ∧ decl.body.Placed ok ∧ ∀ ref ∈ decl.supertypes, Ty.Placed ok (.named ref)

mutual

/-- The functions, declarations and annotations in the pattern have places that are `ok`. -/
def Pattern.Placed : Pattern → Prop
  | .ident _ => True
  | .default target value => Pattern.Placed target ∧ Expr.Placed value
  | .object fields _ => Pattern.FieldsPlaced fields
  | .array elements _ => Pattern.ElementsPlaced elements
  | .stray _ => False

def Pattern.FieldsPlaced : List (PatternField Pattern) → Prop
  | [] => True
  | ⟨_, value⟩ :: fields => Pattern.Placed value ∧ Pattern.FieldsPlaced fields

def Pattern.ElementsPlaced : List (Option Pattern) → Prop
  | [] => True
  | none :: elements => Pattern.ElementsPlaced elements
  | some element :: elements => Pattern.Placed element ∧ Pattern.ElementsPlaced elements

def Param.Placed : Param Pattern Expr → Prop
  | ⟨binding, type, _, none, _⟩ => Pattern.Placed binding ∧ ∀ t ∈ type, t.Placed ok
  | ⟨binding, type, _, some value, _⟩ =>
    Pattern.Placed binding ∧ (∀ t ∈ type, t.Placed ok) ∧ Expr.Placed value

def Param.AllPlaced : List (Param Pattern Expr) → Prop
  | [] => True
  | param :: params => Param.Placed param ∧ Param.AllPlaced params

/-- The functions, declarations and annotations in the expression have places that are `ok`, and it
can be read. -/
def Expr.Placed : Expr → Prop
  | .raw _ => True
  | .ident _ => True
  | .number _ => True
  | .call callee args => ∃ module, Expr.call callee args = .require module
  | .function ⟨params, returnType, _⟩ body _ loc =>
    ok loc ∧ (∀ t ∈ returnType, t.Placed ok) ∧ Param.AllPlaced params ∧ Stmt.AllPlaced body
  | .arrow ⟨params, returnType, _⟩ body loc =>
    ok loc ∧ (∀ t ∈ returnType, t.Placed ok) ∧ Param.AllPlaced params ∧ Expr.BodyPlaced body
  | _ => False

def Expr.BodyPlaced : Body Stmt Expr → Prop
  | .block stmts => Stmt.AllPlaced stmts
  | .expression value => Expr.Placed value

/-- The functions, declarations and annotations in the statement have places that are `ok`, and it
can be read. -/
def Stmt.Placed : Stmt → Prop
  | .ret none => True
  | .ret (some argument) => Expr.Placed argument
  | .raw _ => True
  | .var _ target none _ => Pattern.Placed target
  | .var _ target (some init) _ => Pattern.Placed target ∧ Expr.Placed init
  | .function _ ⟨params, returnType, _⟩ body loc =>
    ok loc ∧ (∀ t ∈ returnType, t.Placed ok) ∧ Param.AllPlaced params ∧ Stmt.AllPlaced body
  | .typeAlias decl => decl.Placed ok
  | .interface decl => decl.Placed ok
  | .imports _ => True
  | .exports declaration _ => Stmt.Placed declaration
  | _ => False

def Stmt.AllPlaced : List Stmt → Prop
  | [] => True
  | s :: ss => Stmt.Placed s ∧ Stmt.AllPlaced ss

end

end

section
variable {ok : Location → Prop} {file : String}

theorem typeParamsOfForm_ends (form : Option Form) :
    FailsOnly (ParseError.At ok) (typeParamsOfForm form) := by
  unfold typeParamsOfForm
  split
  · exact (Ends.mapM fun name _ => Form.asSymbol_ends name).mono fun _ _ => trivial
  · trivial

theorem returnTypeOfForm_ends {form : Option Form} (h : ∀ f ∈ form, f.Placed ok file) :
    Ends (ParseError.At ok) (fun type => ∀ t ∈ type, t.Placed ok) (returnTypeOfForm file form) := by
  unfold returnTypeOfForm
  split
  · exact .pure (by simp)
  · have inType := (Form.placed_list.1 (h _ rfl)).2
    simp only [Form.allPlaced_cons] at inType
    exact (Ty.ofForm_ends _ inType.2.1).bind fun _ placed => .pure (by simpa using placed)
  · exact Form.refuse_ends (h _ rfl) _

/-- The optional parts of a function form stand among its items. -/
theorem FunctionLayout.returns_mem {start : Nat} {items : List Form} {form : Form}
    (h : form ∈ (FunctionLayout.ofItems start items).returns) : form ∈ items := by
  have found := (Option.filter_eq_some_iff.1 h).1
  exact List.mem_of_getElem? found

theorem FunctionLayout.signature_ends {start : Nat} {items : List Form}
    (h : Form.AllPlaced ok file items) (params : List (Param Pattern Expr)) :
    Ends (ParseError.At ok)
      (fun signature => signature.params = params ∧ ∀ t ∈ signature.returnType, t.Placed ok)
      ((FunctionLayout.ofItems start items).signature file params) :=
  (returnTypeOfForm_ends fun _ member => h.of_mem (FunctionLayout.returns_mem member)).bind
    fun _ placed => (typeParamsOfForm_ends _).bind fun _ _ => .pure ⟨rfl, placed⟩

theorem ImportSpecifier.ofForm_ends : ∀ {form : Form}, form.Placed ok file →
    FailsOnly (ParseError.At ok) (ImportSpecifier.ofForm file form)
  | .list (head :: name :: more) position, h => by
    have here := (Form.placed_list.1 h).1
    unfold ImportSpecifier.ofForm
    dsimp only
    split
    · refine (Form.asSymbol_ends name).bind fun _ _ => ?_
      split
      · trivial
      · exact (Form.asSymbol_ends _).bind fun _ _ => trivial
    · exact Position.refuse_ends here _
    · exact (Form.asSymbol_ends name).bind fun _ _ => trivial
  | .list [] _, h | .list [_] _, h => Position.refuse_ends (Form.placed_list.1 h).1 _
  | .symbol _, h | .text _, h | .number _, h | .quoted _, h | .brackets _, h => Form.refuse_ends h _

theorem ImportDecl.ofItems_ends {position : Position} (here : ok (position.inFile file)) :
    ∀ {items : List Form}, Form.AllPlaced ok file items →
    FailsOnly (ParseError.At ok) (ImportDecl.ofItems file position items)
  | [], _ => Position.refuse_ends here _
  | source :: _, h =>
    (Ends.mapM fun _ member =>
      ImportSpecifier.ofForm_ends ((Form.allPlaced_cons.1 h).2.of_mem member)).bind fun _ _ =>
        (Form.asString_ends source).bind fun _ _ => trivial

theorem TypeAlias.ofItems_ends {position : Position} (here : ok (position.inFile file)) :
    ∀ {items : List Form}, Form.AllPlaced ok file items →
    Ends (ParseError.At ok) (TypeAlias.Placed ok) (TypeAlias.ofItems file position items)
  | name :: first :: more, h => by
    have inside := (Form.allPlaced_cons.1 h).2
    refine (Form.asSymbol_ends name).bind fun name _ => ?_
    dsimp only
    split
    next type only =>
      have among : type ∈ first :: more := by
        split at only
        · obtain rfl : more = [type] := only
          simp
        · cases only
          simp
      exact (Ty.ofForm_ends _ (inside.of_mem among)).bind fun _ placed =>
        (typeParamsOfForm_ends _).bind fun _ _ => .pure ⟨here, placed⟩
    · exact Position.refuse_ends here _
  | [], _ | [_], _ => Position.refuse_ends here _

theorem InterfaceDecl.ofItems_ends {position : Position} (here : ok (position.inFile file)) :
    ∀ {items : List Form}, Form.AllPlaced ok file items →
    Ends (ParseError.At ok) (InterfaceDecl.Placed ok) (InterfaceDecl.ofItems file position items)
  | name :: first :: more, h => by
    have inside := (Form.allPlaced_cons.1 h).2
    refine (Form.asSymbol_ends name).bind fun name _ => ?_
    have dropped (some : Bool) (forms : List Form) :
        (if some then forms.drop 1 else forms) ⊆ forms := by
      split
      · exact List.drop_subset 1 forms
      · exact List.Subset.refl forms
    dsimp only
    split
    next body only =>
      have among : body ∈ first :: more :=
        dropped _ _ (dropped _ _ (only ▸ List.mem_singleton_self body))
      refine (ObjectShape.ofForm_ends (inside.of_mem among)).bind fun _ placed => ?_
      split
      next refs _ extended =>
        have found := List.mem_of_mem_head? (Option.filter_eq_some_iff.1 extended).1
        have inRefs := (Form.placed_list.1 (inside.of_mem (dropped _ _ found))).2
        exact (Ends.mapM fun _ member =>
          TypeRef.ofForm_ends ((Form.allPlaced_cons.1 inRefs).2.of_mem member)).bind fun _ refs =>
            (typeParamsOfForm_ends _).bind fun _ _ => .pure ⟨here, placed, refs⟩
      · exact (typeParamsOfForm_ends _).bind fun _ _ => .pure ⟨here, placed, by simp⟩
    · exact Position.refuse_ends here _
  | [], _ | [_], _ => Position.refuse_ends here _

theorem Param.Placed.binding {param : Param Pattern Expr} (h : param.Placed ok) :
    param.binding.Placed ok := by
  obtain ⟨_, _, _, _ | _, _⟩ := param <;> exact h.1

theorem Param.Placed.type {param : Param Pattern Expr} (h : param.Placed ok) :
    ∀ t ∈ param.type, t.Placed ok := by
  obtain ⟨_, _, _, _ | _, _⟩ := param
  · exact h.2
  · exact h.2.1

theorem Param.Placed.withDefault {param : Param Pattern Expr} {value : Expr}
    (h : param.Placed ok) (default : value.Placed ok) :
    ({ param with default := some value } : Param Pattern Expr).Placed ok :=
  ⟨h.binding, h.type, default⟩

/-- A parameter that is a list, given how its parts are read. -/
theorem Param.ofForm_list_ends {head target : Form} {more : List Form} {position : Position}
    (here : ok (position.inFile file)) (inMore : Form.AllPlaced ok file more)
    (inner : Ends (ParseError.At ok) (Param.Placed ok) (Param.ofForm file target))
    (pattern : Ends (ParseError.At ok) (Pattern.Placed ok) (Pattern.ofForm file target))
    (value : ∀ form ∈ more.head?, Ends (ParseError.At ok) (Expr.Placed ok) (Expr.ofForm file form)) :
    Ends (ParseError.At ok) (Param.Placed ok)
      (Param.ofForm file (.list (head :: target :: more) position)) := by
  unfold Param.ofForm
  dsimp only
  split
  · exact Position.refuse_ends here _
  · exact inner.bind fun param placed => (value _ rfl).bind fun _ default =>
      .pure (placed.withDefault default)
  · have typed {type : Option Ty} (placed : ∀ t ∈ type, t.Placed ok) :
        Ends (ParseError.At ok) (fun type : Option Ty => ∀ t ∈ type, t.Placed ok) (pure type) :=
      .pure placed
    split
    case' h_1 => refine (typed (by simp)).bind fun type placed => ?_
    case' h_2 =>
      refine (Ty.ofForm_ends _ (Form.allPlaced_cons.1 inMore).1).bind fun t placed => ?_
      refine (typed (by simpa using placed)).bind fun type placed => ?_
    all_goals
      split
      · exact (Form.asSymbol_ends target).bind fun _ _ => .pure ⟨trivial, placed⟩
      · split
        · exact Position.refuse_ends here _
        · exact (Form.asSymbol_ends target).bind fun _ _ => .pure ⟨trivial, placed⟩
      · exact pattern.bind fun _ binding => .pure ⟨binding, placed⟩
      · exact (Form.asSymbol_ends target).bind fun _ _ => .pure ⟨trivial, placed⟩
      · exact Position.refuse_ends here _
      · exact Position.refuse_ends here _

/-- The first item of an arrow body, given how it is read in both ways. -/
theorem Expr.bodyAt_zero_ends {form : Form} {forms : List Form} {position : Position}
    (block : Ends (ParseError.At ok) (Stmt.AllPlaced ok) (Stmt.bodyOfForm file form))
    (value : Ends (ParseError.At ok) (Expr.Placed ok) (Expr.ofForm file form)) :
    Ends (ParseError.At ok) (Expr.BodyPlaced ok) (Expr.bodyAt file position 0 (form :: forms)) := by
  unfold Expr.bodyAt
  split
  next stmts _ =>
    have read : Ends (ParseError.At ok) (Stmt.AllPlaced ok) (Stmt.ofForms file stmts) := by
      simpa [Stmt.bodyOfForm] using block
    exact read.bind fun _ placed => .pure placed
  · exact value.bind fun _ placed => .pure placed

mutual

theorem Pattern.ofForm_ends : ∀ form : Form, form.Placed ok file →
    Ends (ParseError.At ok) (Pattern.Placed ok) (Pattern.ofForm file form)
  | .symbol _, _ => trivial
  | .list (.symbol tag :: items) position, h => by
    obtain ⟨here, inside⟩ := Form.placed_list.1 h
    replace inside := (Form.allPlaced_cons.1 inside).2
    unfold Pattern.ofForm
    split
    · exact (Pattern.fieldsOfForms_ends items inside).bind fun _ placed => .pure placed
    · split
      · exact (Pattern.elementsOfForms_ends items inside).bind fun _ placed => .pure placed
      · exact Position.refuse_ends here _
  | .list [] _, h | .list (.text _ :: _) _, h | .list (.number _ :: _) _, h
  | .list (.list _ _ :: _) _, h | .list (.quoted _ :: _) _, h
  | .list (.brackets _ :: _) _, h | .text _, h | .number _, h | .quoted _, h
  | .brackets _, h => Form.refuse_ends h _
termination_by structural form => form

theorem Pattern.fieldsOfForms_ends : ∀ forms : List Form, Form.AllPlaced ok file forms →
    Ends (ParseError.At ok) (fun read => Pattern.FieldsPlaced ok read.1)
      (Pattern.fieldsOfForms file forms)
  | [], _ => trivial
  | form :: forms, h => by
    obtain ⟨first, others⟩ := Form.allPlaced_cons.1 h
    have later := Pattern.fieldsOfForms_ends forms others
    unfold Pattern.fieldsOfForms
    split
    · exact (Pattern.restOfForm_ends form first).bind fun _ _ =>
        later.bind fun _ placed => .pure placed
    · exact (Pattern.fieldOfForm_ends form first).bind fun _ placed => later.bind fun _ rest =>
        .pure ⟨placed, rest⟩
termination_by structural forms => forms

theorem Pattern.restOfForm_ends : ∀ form : Form, form.Placed ok file →
    FailsOnly (ParseError.At ok) (Pattern.restOfForm file form)
  | .list (_ :: name :: _) _, _ => Form.asSymbol_ends name
  | .list [] _, h | .list [_] _, h | .symbol _, h | .text _, h | .number _, h | .quoted _, h
  | .brackets _, h => Form.refuse_ends h _

theorem Pattern.fieldOfForm_ends : ∀ form : Form, form.Placed ok file →
    Ends (ParseError.At ok) (fun field => field.value.Placed ok) (Pattern.fieldOfForm file form)
  | .symbol _, _ => trivial
  | .list (.symbol key :: target :: more) position, h => by
    obtain ⟨here, inside⟩ := Form.placed_list.1 h
    obtain ⟨inTarget, inMore⟩ := Form.allPlaced_cons.1 (Form.allPlaced_cons.1 inside).2
    unfold Pattern.fieldOfForm
    dsimp only
    split
    · match more, inMore with
      | [], _ => exact Position.refuse_ends here _
      | value :: _, inMore =>
        exact (Pattern.fieldOfForm_ends target inTarget).bind fun _ placed =>
          (Expr.ofForm_ends value (Form.allPlaced_cons.1 inMore).1).bind fun _ default =>
            .pure ⟨placed, default⟩
    · exact (Pattern.ofForm_ends target inTarget).bind fun _ placed => .pure placed
  | .list (.text _ :: _ :: _) _, _ | .list (.number _ :: _ :: _) _, _
  | .list (.list _ _ :: _ :: _) _, _ | .list (.quoted _ :: _ :: _) _, _
  | .list (.brackets _ :: _ :: _) _, _ => ParseError.at_none _
  | .list [] _, h | .list [_] _, h | .text _, h | .number _, h | .quoted _, h
  | .brackets _, h => Form.refuse_ends h _
termination_by structural form => form

theorem Pattern.elementsOfForms_ends : ∀ forms : List Form, Form.AllPlaced ok file forms →
    Ends (ParseError.At ok) (fun read => Pattern.ElementsPlaced ok read.1)
      (Pattern.elementsOfForms file forms)
  | [], _ => trivial
  | form :: forms, h => by
    obtain ⟨first, others⟩ := Form.allPlaced_cons.1 h
    have later := Pattern.elementsOfForms_ends forms others
    unfold Pattern.elementsOfForms
    split
    · exact (Pattern.restOfForm_ends form first).bind fun _ _ =>
        later.bind fun _ placed => .pure placed
    · refine (Pattern.elementOfForm_ends form first).bind fun element placed =>
        later.bind fun _ rest => .pure ?_
      cases element with
      | none => exact rest
      | some p => exact ⟨placed p rfl, rest⟩
termination_by structural forms => forms

theorem Pattern.elementOfForm_ends : ∀ form : Form, form.Placed ok file →
    Ends (ParseError.At ok) (fun element => ∀ p ∈ element, Pattern.Placed ok p)
      (Pattern.elementOfForm file form)
  | .symbol name, _ => by
    unfold Pattern.elementOfForm
    split
    · exact .pure (by simp)
    · exact .pure (by simp [Pattern.Placed])
  | .list (.symbol tag :: items) position, h => by
    obtain ⟨here, inside⟩ := Form.placed_list.1 h
    replace inside := (Form.allPlaced_cons.1 inside).2
    unfold Pattern.elementOfForm
    split
    · match items, inside with
      | target :: value :: _, inside =>
        obtain ⟨inTarget, inValue⟩ := Form.allPlaced_cons.1 inside
        exact (Pattern.ofForm_ends target inTarget).bind fun _ placed =>
          (Expr.ofForm_ends value (Form.allPlaced_cons.1 inValue).1).bind fun _ default =>
            .pure (by simpa [Pattern.Placed] using ⟨placed, default⟩)
      | [], _ | [_], _ => exact Position.refuse_ends here _
    · split
      · exact (Pattern.fieldsOfForms_ends items inside).bind fun _ placed =>
          .pure (by simpa [Pattern.Placed] using placed)
      · split
        · exact (Pattern.elementsOfForms_ends items inside).bind fun _ placed =>
            .pure (by simpa [Pattern.Placed] using placed)
        · exact Position.refuse_ends here _
  | .list [] _, h | .list (.text _ :: _) _, h | .list (.number _ :: _) _, h
  | .list (.list _ _ :: _) _, h | .list (.quoted _ :: _) _, h
  | .list (.brackets _ :: _) _, h | .text _, h | .number _, h | .quoted _, h
  | .brackets _, h => Form.refuse_ends h _
termination_by structural form => form

theorem Param.ofForm_ends : ∀ form : Form, form.Placed ok file →
    Ends (ParseError.At ok) (Param.Placed ok) (Param.ofForm file form)
  | .symbol _, _ => ⟨trivial, by simp⟩
  | .list [head, target] position, h => by
    obtain ⟨here, inside⟩ := Form.placed_list.1 h
    obtain ⟨inTarget, inMore⟩ := Form.allPlaced_cons.1 (Form.allPlaced_cons.1 inside).2
    exact Param.ofForm_list_ends here inMore (Param.ofForm_ends target inTarget)
      (Pattern.ofForm_ends target inTarget) (by simp)
  | .list (head :: target :: value :: more) position, h => by
    obtain ⟨here, inside⟩ := Form.placed_list.1 h
    obtain ⟨inTarget, inMore⟩ := Form.allPlaced_cons.1 (Form.allPlaced_cons.1 inside).2
    have default := Expr.ofForm_ends value (Form.allPlaced_cons.1 inMore).1
    exact Param.ofForm_list_ends here inMore (Param.ofForm_ends target inTarget)
      (Pattern.ofForm_ends target inTarget) (by simpa using default)
  | .list [] _, h | .list [_] _, h | .text _, h | .number _, h | .quoted _, h | .brackets _, h =>
    Form.refuse_ends h _
termination_by structural form => form

theorem Param.ofForms_ends : ∀ forms : List Form, Form.AllPlaced ok file forms →
    Ends (ParseError.At ok) (Param.AllPlaced ok) (Param.ofForms file forms)
  | [], _ => trivial
  | form :: forms, h => by
    obtain ⟨first, others⟩ := Form.allPlaced_cons.1 h
    exact (Param.ofForm_ends form first).bind fun _ placed =>
      (Param.ofForms_ends forms others).bind fun _ rest => .pure ⟨placed, rest⟩
termination_by structural forms => forms

theorem Param.listAt_ends {position : Position} (here : ok (position.inFile file)) :
    ∀ (n : Nat) (forms : List Form), Form.AllPlaced ok file forms →
    Ends (ParseError.At ok) (Param.AllPlaced ok) (Param.listAt file position n forms)
  | 0, .list forms _ :: _, h =>
    Param.ofForms_ends forms (Form.placed_list.1 (Form.allPlaced_cons.1 h).1).2
  | n + 1, _ :: forms, h => by
    rw [Param.listAt]
    exact Param.listAt_ends here n forms (Form.allPlaced_cons.1 h).2
  | 0, [], _ | _ + 1, [], _ => Position.refuse_ends here _
  | 0, .symbol _ :: _, h | 0, .text _ :: _, h | 0, .number _ :: _, h
  | 0, .quoted _ :: _, h | 0, .brackets _ :: _, h =>
    Form.refuse_ends (Form.allPlaced_cons.1 h).1 _
termination_by structural _ forms => forms

theorem Expr.ofForm_ends : ∀ form : Form, form.Placed ok file →
    Ends (ParseError.At ok) (Expr.Placed ok) (Expr.ofForm file form)
  | .text _, _ | .symbol _, _ | .number _, _ => trivial
  | .list (.symbol tag :: items) position, h => by
    obtain ⟨here, inside⟩ := Form.placed_list.1 h
    replace inside := (Form.allPlaced_cons.1 inside).2
    unfold Expr.ofForm
    cases ExprTag.ofName? tag with
    | none => exact Position.refuse_ends here _
    | some kind =>
      cases kind with
      | require =>
        dsimp only
        split
        · exact Position.refuse_ends here _
        · exact (Form.asString_ends _).bind fun module _ => .pure ⟨module, rfl⟩
      | function =>
        refine (Param.listAt_ends here _ items inside).bind fun params placed =>
          (FunctionLayout.signature_ends inside params).bind fun signature made =>
            (Stmt.bodyAt_ends here _ items inside).bind fun body stmts => ?_
        obtain ⟨rfl, returns⟩ := made
        exact .pure ⟨here, returns, placed, stmts⟩
      | arrow =>
        refine (Param.listAt_ends here _ items inside).bind fun params placed =>
          (FunctionLayout.signature_ends inside params).bind fun signature made =>
            (Expr.bodyAt_ends here _ items inside).bind fun body stmts => ?_
        obtain ⟨rfl, returns⟩ := made
        exact .pure ⟨here, returns, placed, stmts⟩
  | .list [] _, h | .list (.text _ :: _) _, h | .list (.number _ :: _) _, h
  | .list (.list _ _ :: _) _, h | .list (.quoted _ :: _) _, h
  | .list (.brackets _ :: _) _, h | .quoted _, h | .brackets _, h => Form.refuse_ends h _
termination_by structural form => form

theorem Expr.bodyAt_ends {position : Position} (here : ok (position.inFile file)) :
    ∀ (n : Nat) (forms : List Form), Form.AllPlaced ok file forms →
    Ends (ParseError.At ok) (Expr.BodyPlaced ok) (Expr.bodyAt file position n forms)
  | 0, form :: _, h =>
    Expr.bodyAt_zero_ends (Stmt.bodyOfForm_ends form (Form.allPlaced_cons.1 h).1)
      (Expr.ofForm_ends form (Form.allPlaced_cons.1 h).1)
  | n + 1, _ :: forms, h => by
    rw [Expr.bodyAt]
    exact Expr.bodyAt_ends here n forms (Form.allPlaced_cons.1 h).2
  | 0, [], _ | _ + 1, [], _ => Position.refuse_ends here _
termination_by structural _ forms => forms

theorem Stmt.bodyAt_ends {position : Position} (here : ok (position.inFile file)) :
    ∀ (n : Nat) (forms : List Form), Form.AllPlaced ok file forms →
    Ends (ParseError.At ok) (Stmt.AllPlaced ok) (Stmt.bodyAt file position n forms)
  | 0, form :: _, h => by
    rw [Stmt.bodyAt]
    exact Stmt.bodyOfForm_ends form (Form.allPlaced_cons.1 h).1
  | n + 1, _ :: forms, h => by
    rw [Stmt.bodyAt]
    exact Stmt.bodyAt_ends here n forms (Form.allPlaced_cons.1 h).2
  | 0, [], _ | _ + 1, [], _ => Position.refuse_ends here _
termination_by structural _ forms => forms

theorem Stmt.bodyOfForm_ends : ∀ form : Form, form.Placed ok file →
    Ends (ParseError.At ok) (Stmt.AllPlaced ok) (Stmt.bodyOfForm file form)
  | .list (.symbol tag :: forms) position, h => by
    obtain ⟨here, inside⟩ := Form.placed_list.1 h
    unfold Stmt.bodyOfForm
    split
    · exact Stmt.ofForms_ends forms (Form.allPlaced_cons.1 inside).2
    · exact Position.refuse_ends here _
  | .list [] _, h | .list (.text _ :: _) _, h | .list (.number _ :: _) _, h
  | .list (.list _ _ :: _) _, h | .list (.quoted _ :: _) _, h
  | .list (.brackets _ :: _) _, h | .symbol _, h | .text _, h | .number _, h
  | .quoted _, h | .brackets _, h => Form.refuse_ends h _
termination_by structural form => form

theorem Stmt.ofForm_ends : ∀ form : Form, form.Placed ok file →
    Ends (ParseError.At ok) (Stmt.Placed ok) (Stmt.ofForm file form)
  | .list (.symbol tag :: items) position, h => by
    obtain ⟨here, inside⟩ := Form.placed_list.1 h
    replace inside := (Form.allPlaced_cons.1 inside).2
    unfold Stmt.ofForm
    cases StmtTag.ofName? tag with
    | none => exact Position.refuse_ends here _
    | some kind =>
      cases kind with
      | imports => exact (ImportDecl.ofItems_ends here inside).bind fun _ _ => .pure trivial
      | typeAlias => exact (TypeAlias.ofItems_ends here inside).bind fun _ placed => .pure placed
      | interface => exact (InterfaceDecl.ofItems_ends here inside).bind fun _ placed => .pure placed
      | function =>
        match items, inside with
        | name :: second :: third :: more, inside =>
          replace inside := (Form.allPlaced_cons.1 inside).2
          refine (Form.asSymbol_ends name).bind fun _ _ =>
            (Param.listAt_ends here _ (second :: third :: more) inside).bind fun params placed =>
              (FunctionLayout.signature_ends inside params).bind fun signature made => ?_
          obtain ⟨rfl, returns⟩ := made
          split
          · exact (Stmt.bodyAt_ends here _ (second :: third :: more) inside).bind fun _ stmts =>
              .pure ⟨here, returns, placed, stmts⟩
          · exact Position.refuse_ends here _
        | [], _ | [_], _ | [_, _], _ => exact Position.refuse_ends here _
      | var kind =>
        match items, inside with
        | [target], inside =>
          dsimp only
          split
          · exact Position.refuse_ends here _
          · exact (Pattern.ofForm_ends target (Form.allPlaced_cons.1 inside).1).bind
              fun _ placed => .pure placed
        | target :: init :: _, inside =>
          obtain ⟨inTarget, inInit⟩ := Form.allPlaced_cons.1 inside
          exact (Expr.ofForm_ends init (Form.allPlaced_cons.1 inInit).1).bind fun _ value =>
            (Pattern.ofForm_ends target inTarget).bind fun _ placed => .pure ⟨placed, value⟩
        | [], _ => exact Position.refuse_ends here _
      | exports =>
        match items, inside with
        | declaration :: _, inside =>
          exact (Stmt.ofForm_ends declaration (Form.allPlaced_cons.1 inside).1).bind
            fun _ placed => .pure placed
        | [], _ => exact Position.refuse_ends here _
      | ret =>
        match items, inside with
        | argument :: _, inside =>
          exact (Expr.ofForm_ends argument (Form.allPlaced_cons.1 inside).1).bind
            fun _ placed => .pure placed
        | [], _ => trivial
      | raw =>
        match items, inside with
        | text :: _, _ => exact (Form.asString_ends text).bind fun _ _ => .pure trivial
        | [], _ => exact Position.refuse_ends here _
  | .list [] _, h | .list (.text _ :: _) _, h | .list (.number _ :: _) _, h
  | .list (.list _ _ :: _) _, h | .list (.quoted _ :: _) _, h
  | .list (.brackets _ :: _) _, h | .symbol _, h | .text _, h | .number _, h
  | .quoted _, h | .brackets _, h => Form.refuse_ends h _
termination_by structural form => form

theorem Stmt.ofForms_ends : ∀ forms : List Form, Form.AllPlaced ok file forms →
    Ends (ParseError.At ok) (Stmt.AllPlaced ok) (Stmt.ofForms file forms)
  | [], _ => trivial
  | form :: forms, h => by
    obtain ⟨first, others⟩ := Form.allPlaced_cons.1 h
    exact (Stmt.ofForm_ends form first).bind fun _ placed =>
      (Stmt.ofForms_ends forms others).bind fun _ rest => .pure ⟨placed, rest⟩
termination_by structural forms => forms

end

theorem Program.ofForm_ends : ∀ {form : Form}, form.Placed ok file →
    Ends (ParseError.At ok) (fun program => Stmt.AllPlaced ok program.body)
      (Program.ofForm file form)
  | .list items position, h => by
    obtain ⟨here, inside⟩ := Form.placed_list.1 h
    have inBody := inside.drop 1
    unfold Program.ofForm
    dsimp only
    split
    · exact (Stmt.ofForms_ends _ inBody).bind fun _ placed => .pure placed
    · exact Position.refuse_ends here _
  | .symbol _, h | .text _, h | .number _, h | .quoted _, h | .brackets _, h => Form.refuse_ends h _

end

/-- The location is in the file, at an opening parenthesis of its text or at line and column zero. -/
def Location.PointsInto (file source : String) (loc : Location) : Prop :=
  loc.file = file ∧
    ((⟨loc.line, loc.col⟩ : Position) = {} ∨
      (⟨loc.line, loc.col⟩ : Position).OpensIn source.toList)

/-- Every place in a parsed program, and that of a parse error, points into the text. -/
theorem Program.parse_ends (file source : String) :
    Ends (ParseError.At (Location.PointsInto file source))
      (fun program => Stmt.AllPlaced (Location.PointsInto file source) program.body)
      (Program.parse file source) := by
  unfold Program.parse
  split
  · rintro loc ⟨⟩
  next form accepted =>
    refine Program.ofForm_ends fun p member => ⟨rfl, ?_⟩
    exact Form.positions_read accepted p member

end TypeGuard
