import TypeGuard.Proofs.Lowering.Failures
import TypeGuard.Proofs.Lowering.Origins

/-!
# Where diagnostics point

A file that is not compiled has one diagnostic. It comes from reading, from lowering or from
printing, each with rules of its own for the place it reports. `compile_error_pointsInto` says that
this is always a place in the file that was named: line and column zero, or an opening parenthesis
of the text.
-/

namespace TypeGuard

/-! ## Types without descriptors -/

section
variable {ok : Location → Prop}

/-- The error has no place, or one that is `ok` or not known. -/
def TypeError.At (ok : Location → Prop) (e : TypeError) : Prop :=
  ∀ loc, e.loc? = some loc → loc.OrUnknown ok

/-- A refinement among operands has a place that is `ok` or not known. -/
def Operand.Placed (ok : Location → Prop) : Operand → Prop
  | .type _ => True
  | .refinement _ loc => loc.OrUnknown ok

theorem Operand.toType_ends {operand : Operand} (h : operand.Placed ok) :
    FailsOnly (TypeError.At ok) operand.toType := by
  cases operand with
  | type => trivial
  | refinement predicate loc =>
    rintro _ ⟨⟩
    exact h

theorem TypeRef.predicate_ends {ref : TypeRef Ty} (h : ref.loc.OrUnknown ok) :
    FailsOnly (TypeError.At ok) ref.predicate := by
  unfold TypeRef.predicate
  split
  · trivial
  · rintro _ ⟨⟩
    exact h

namespace Ty

theorem Placed.named {ref : TypeRef Ty} (h : (Ty.named ref).Placed ok) : ref.loc.OrUnknown ok := by
  obtain ⟨_, _ | _, _⟩ := ref
  · exact h
  · exact h.1

theorem Placed.properties {type : Ty} (h : type.Placed ok) :
    PropertiesPlaced ok type.shape.properties := by
  cases type with
  | object shape =>
    obtain ⟨_, _, _⟩ := shape
    exact h.2.1
  | named | array | nullable | tuple | union | intersection | function | primitive | string
  | number | boolean | typeof | stray => trivial

mutual

/-- The encoding of an annotation fails at one of its places. -/
theorem operand_ends (scope : Scope) (name : Option String) : ∀ type : Ty, type.Placed ok →
    Ends (TypeError.At ok) (Operand.Placed ok) (type.operand scope name)
  | .named ⟨id, args, loc⟩, h => by
    have known : loc.OrUnknown ok := Placed.named h
    unfold operand
    split
    -- Of the named types only an array and a refinement can fail, both at the place of the name.
    · match args, h with
      | some [element], h =>
        exact (operand_ends scope none element h.2.1).bind fun _ placed =>
          (Operand.toType_ends placed).bind fun _ _ => trivial
      | none, _ | some [], _ | some (_ :: _ :: _), _ =>
        rintro _ ⟨⟩
        exact known
    · split
      · split
        · trivial
        · split
          · exact (TypeRef.predicate_ends known).bind fun _ _ => .pure known
          · trivial
      · trivial
  | .array element _, h | .nullable element _, h =>
    (operand_ends scope none element h).bind fun _ placed =>
      (Operand.toType_ends placed).bind fun _ _ => trivial
  | .tuple types _, h => (descriptors_ends scope types h).bind fun _ _ => trivial
  | .union types _, h => by
    unfold operand
    split
    · trivial
    · exact (descriptors_ends scope types h).bind fun _ _ => trivial
  | .intersection types loc, h => by
    refine (operands_ends scope types h.2).bind fun operands _ => ?_
    dsimp only
    split
    · rintro _ ⟨⟩
      exact h.1
    · trivial
    · trivial
  | .object ⟨properties, indexers, loc⟩, ⟨here, inProperties, inIndexers⟩ => by
    match indexers, inIndexers with
    | [], _ => exact (props_ends scope properties inProperties).bind fun _ _ => trivial
    | [⟨key, value, _, _⟩], ⟨inKey, inValue, _⟩ =>
      exact (operand_ends scope none key inKey).bind fun _ placed =>
        (Operand.toType_ends placed).bind fun _ _ =>
          (operand_ends scope none value inValue).bind fun _ placed =>
            (Operand.toType_ends placed).bind fun _ _ => trivial
    | _ :: _ :: _, _ =>
      rintro _ ⟨⟩
      exact here
  | .function _ _ _, _ | .primitive _ _, _ | .string _ _, _ | .number _ _, _ => trivial
  | .boolean _ loc, h | .typeof _ loc, h => by
    rintro _ ⟨⟩
    exact h
  | .stray _, h => h.elim
termination_by structural type => type

theorem operands_ends (scope : Scope) : ∀ types : List Ty, Ty.AllPlaced ok types →
    FailsOnly (TypeError.At ok) (operands scope types)
  | [], _ => trivial
  | type :: types, h =>
    (operand_ends scope none type h.1).bind fun _ _ =>
      (operands_ends scope types h.2).bind fun _ _ => trivial
termination_by structural types => types

theorem descriptors_ends (scope : Scope) : ∀ types : List Ty, Ty.AllPlaced ok types →
    FailsOnly (TypeError.At ok) (descriptors scope types)
  | [], _ => trivial
  | type :: types, h =>
    (operand_ends scope none type h.1).bind fun _ placed =>
      (Operand.toType_ends placed).bind fun _ _ =>
        (descriptors_ends scope types h.2).bind fun _ _ => trivial
termination_by structural types => types

theorem props_ends (scope : Scope) : ∀ properties : List (Property Ty),
    Ty.PropertiesPlaced ok properties →
      FailsOnly (TypeError.At ok) (props scope properties)
  | [], _ => trivial
  | ⟨_, value, _, _⟩ :: properties, h =>
    (operand_ends scope none value h.1).bind fun _ placed =>
      (Operand.toType_ends placed).bind fun _ _ =>
        (props_ends scope properties h.2).bind fun _ _ => trivial
termination_by structural properties => properties

end

theorem descriptor_ends (scope : Scope) (name : Option String) {type : Ty} (h : type.Placed ok) :
    FailsOnly (TypeError.At ok) (type.descriptor scope name) :=
  (operand_ends scope name type h).bind fun _ placed => Operand.toType_ends placed

end Ty

theorem TypeAlias.descriptor_ends (scope : Scope) {decl : TypeAlias} (h : decl.Placed ok) :
    FailsOnly (TypeError.At ok) (decl.descriptor scope) := by
  unfold TypeAlias.descriptor TypeAlias.descriptorIn
  split
  · rintro _ ⟨⟩
    exact .inr h.1
  · exact Ty.descriptor_ends _ _ h.2

theorem TypeRef.supertype_ends {ref : TypeRef Ty} (h : (Ty.named ref).Placed ok) :
    FailsOnly (TypeError.At ok) ref.supertype := by
  unfold TypeRef.supertype
  split
  · exact (TypeRef.predicate_ends h.named).bind fun _ _ => trivial
  · trivial

theorem InterfaceDecl.descriptor_ends (scope : Scope) {decl : InterfaceDecl}
    (h : decl.Placed ok) : FailsOnly (TypeError.At ok) (decl.descriptor scope) := by
  obtain ⟨here, inBody, inSupertypes⟩ := h
  unfold InterfaceDecl.descriptor InterfaceDecl.descriptorIn
  split
  · rintro _ ⟨⟩
    exact .inr here
  · split
    · exact Ty.descriptor_ends _ _ inBody
    · split
      · rintro _ ⟨⟩
        exact .inr here
      · exact (Ends.mapM fun ref member => TypeRef.supertype_ends (inSupertypes ref member)).bind
          fun _ _ => (Ty.props_ends _ _ inBody.properties).bind fun _ _ => trivial

theorem Site.encode_ends {site : Site} (h : site.Placed ok) :
    FailsOnly (TypeError.At ok) (site.encode []) := by
  cases site with
  | param own type optional => exact (Ty.descriptor_ends _ _ h).bind fun _ _ => trivial
  | result own type => exact Ty.descriptor_ends _ _ h
  | typeAlias decl => exact TypeAlias.descriptor_ends _ h
  | interface decl => exact InterfaceDecl.descriptor_ends _ h

end

/-! ## Trees that cannot be printed -/

/-- The error has a place, and that is `ok`. -/
def PrintError.At (ok : Location → Prop) (e : PrintError) : Prop :=
  ∃ loc, e.loc? = some loc ∧ ok loc

theorem Node.Plain.isFunction {n : Node} (h : n.Plain) : n.isFunction = true := by
  cases n with
  | function => rfl
  | typeDecl | stray => exact h.elim

namespace Script

variable {ok : Location → Prop} (unit : String)

theorem block_ends {header footer : String} {body : Layout → Except PrintError Layout}
    (h : ∀ out, FailsOnly (PrintError.At ok) (body out)) (out : Layout) :
    FailsOnly (PrintError.At ok) (out.block header footer body) :=
  (h _).bind fun _ _ => trivial

/-- However a field is written, it fails where its pattern does. -/
theorem printFields_cons_ends {key : String} {value : Pattern}
    {fields : List (PatternField Pattern)}
    (first : FailsOnly (PrintError.At ok) (printPattern unit value))
    (others : FailsOnly (PrintError.At ok) (printFields unit fields)) :
    FailsOnly (PrintError.At ok) (printFields unit (⟨key, value⟩ :: fields)) := by
  cases value with
  | ident name => exact others.bind fun _ _ => trivial
  | default target value =>
    cases target with
    | ident name =>
      have inValue : FailsOnly (PrintError.At ok) (printExpr unit value) :=
        .of_bind (x := printExpr unit value) first
      exact inValue.bind fun _ _ => others.bind fun _ _ => trivial
    | object | array | default | stray => exact first.bind fun _ _ => others.bind fun _ _ => trivial
  | object | array | stray => exact first.bind fun _ _ => others.bind fun _ _ => trivial

mutual

theorem printPattern_ends : ∀ p : Pattern, p.Placed ok →
    FailsOnly (PrintError.At ok) (printPattern unit p)
  | .ident _, _ => trivial
  | .object fields _, h => (printFields_ends fields h).bind fun _ _ => trivial
  | .array elements _, h => (printElements_ends elements h).bind fun _ _ => trivial
  | .default target value, h =>
    (printPattern_ends target h.1).bind fun _ _ =>
      (printExpr_ends value h.2).bind fun _ _ => trivial
  | .stray _, h => h.elim
termination_by structural p => p

theorem printFields_ends : ∀ fields : List (PatternField Pattern), Pattern.FieldsPlaced ok fields →
    FailsOnly (PrintError.At ok) (printFields unit fields)
  | [], _ => trivial
  | ⟨_, value⟩ :: fields, h =>
    printFields_cons_ends unit (printPattern_ends value h.1) (printFields_ends fields h.2)
termination_by structural fields => fields

theorem printElements_ends : ∀ elements : List (Option Pattern),
    Pattern.ElementsPlaced ok elements → FailsOnly (PrintError.At ok) (printElements unit elements)
  | [], _ => trivial
  | none :: elements, h => (printElements_ends elements h).bind fun _ _ => trivial
  | some element :: elements, h =>
    (printPattern_ends element h.1).bind fun _ _ =>
      (printElements_ends elements h.2).bind fun _ _ => trivial
termination_by structural elements => elements

theorem printParam_ends : ∀ param : Param Pattern Expr, param.Placed ok →
    FailsOnly (PrintError.At ok) (printParam unit param)
  | ⟨binding, _, _, none, false⟩, h => printPattern_ends binding h.1
  | ⟨binding, _, _, none, true⟩, h | ⟨binding, _, _, some _, true⟩, h =>
    (printPattern_ends binding h.1).bind fun _ _ => trivial
  | ⟨binding, _, _, some value, false⟩, h =>
    (printPattern_ends binding h.1).bind fun _ _ =>
      (printExpr_ends value h.2.2).bind fun _ _ => trivial
termination_by structural param => param

theorem printParams_ends : ∀ params : List (Param Pattern Expr), Param.AllPlaced ok params →
    FailsOnly (PrintError.At ok) (printParams unit params)
  | [], _ => trivial
  | param :: params, h =>
    (printParam_ends param h.1).bind fun _ _ =>
      (printParams_ends params h.2).bind fun _ _ => trivial
termination_by structural params => params

/-- Printing a tree that was read fails at one of its declarations. -/
theorem printExpr_ends : ∀ e : Expr, e.Placed ok →
    FailsOnly (PrintError.At ok) (printExpr unit e)
  | .raw _, _ | .ident _, _ | .number _, _ => trivial
  | .call _ _, ⟨_, h⟩ => by
    cases h
    trivial
  | .function ⟨params, _, _⟩ body _ _, h =>
    (printParams_ends params h.2.2.1).bind fun _ _ =>
      (printStmts_ends body h.2.2.2 _).bind fun _ _ => trivial
  | .arrow ⟨params, _, _⟩ (.block stmts) _, h =>
    (printParams_ends params h.2.2.1).bind fun _ _ =>
      (printStmts_ends stmts h.2.2.2 _).bind fun _ _ => trivial
  | .arrow ⟨params, _, _⟩ (.expression value) _, h =>
    (printParams_ends params h.2.2.1).bind fun _ _ =>
      (printExpr_ends value h.2.2.2).bind fun _ _ => trivial
  | .this, h | .member _ _, h | .string _, h | .array _, h | .object _, h | .spread _, h
  | .binary _ _ _, h | .stray _, h => h.elim
termination_by structural e => e

theorem printStmt_ends : ∀ s : Stmt, s.Placed ok → ∀ out : Layout,
    FailsOnly (PrintError.At ok) (printStmt unit s out)
  | .ret none, _, _ | .raw _, _, _ | .imports _, _, _ => trivial
  | .ret (some argument), h, _ => (printExpr_ends argument h).bind fun _ _ => trivial
  | .var _ target none _, h, _ => (printPattern_ends target h).bind fun _ _ => trivial
  | .var _ target (some init) _, h, _ =>
    (printPattern_ends target h.1).bind fun _ _ => (printExpr_ends init h.2).bind fun _ _ => trivial
  | .function _ ⟨params, _, _⟩ body _, h, out =>
    (printParams_ends params h.2.2.1).bind fun _ _ => block_ends (printStmts_ends body h.2.2.2) out
  | .typeAlias decl, h, _ | .interface decl, h, _ => ⟨decl.loc, rfl, h.1⟩
  | .exports declaration _, h, _ => (printStmt_ends declaration h _).bind fun _ _ => trivial
  | .block _, h, _ | .expr _, h, _ | .stray _, h, _ => h.elim
termination_by structural s => s

theorem printStmts_ends : ∀ ss : List Stmt, Stmt.AllPlaced ok ss → ∀ out : Layout,
    FailsOnly (PrintError.At ok) (printStmts unit ss out)
  | [], _, _ => trivial
  | s :: ss, h, out =>
    (printStmt_ends s h.1 out).bind fun out _ => printStmts_ends ss h.2 out
termination_by structural ss => ss

end

theorem printStmts_append (ss ss' : List Stmt) (out : Layout) :
    printStmts unit (ss ++ ss') out = printStmts unit ss out >>= printStmts unit ss' := by
  induction ss generalizing out with
  | nil => rfl
  | cons s ss ih =>
    change (printStmt unit s out >>= fun out => printStmts unit (ss ++ ss') out) = _
    simp only [ih]
    exact (bind_assoc (printStmt unit s out) (printStmts unit ss) (printStmts unit ss')).symm

/-- The call of a method. -/
theorem printExpr_method_ends {object : Expr} {args : List Expr} (name : String)
    (h : FailsOnly (PrintError.At ok) (printExpr unit object))
    (inArgs : FailsOnly (PrintError.At ok) (printExprs unit args)) :
    FailsOnly (PrintError.At ok) (printExpr unit (.call (.member object name) args)) := by
  have callee : FailsOnly (PrintError.At ok) (printExpr unit (.member object name)) :=
    h.bind fun _ _ => .pure trivial
  exact inArgs.bind fun _ _ => callee.bind fun _ _ => .pure trivial

theorem printStmt_ends_of_plain {s : Stmt} (b : Binders) (out : Layout)
    (h : ∀ n ∈ s.nodes .printed b, n.Plain) :
    FailsOnly (PrintError.At ok) (printStmt unit s out) := by
  refine .of_isOk ?_
  rw [isOk_printStmt unit s b, List.all_eq_true]
  exact fun n member => (h n member).isFunction

theorem printStmts_ends_of_plain {ss : List Stmt} (b : Binders) (out : Layout)
    (h : ∀ n ∈ Stmt.allNodes .printed b ss, n.Plain) :
    FailsOnly (PrintError.At ok) (printStmts unit ss out) := by
  refine .of_isOk ?_
  rw [isOk_printStmts unit ss b, List.all_eq_true]
  exact fun n member => (h n member).isFunction

end Script

theorem Param.AllPlaced.innerParams {ok : Location → Prop} :
    ∀ {params : List (Param Pattern Expr)}, Param.AllPlaced ok params →
      Param.AllPlaced ok (Instrument.innerParams params)
  | [], _ => trivial
  | _ :: _, h => ⟨⟨h.1.binding, by simp⟩, h.2.innerParams⟩

namespace Setting

variable {g : Setting} {ok : Location → Prop} {frames : Scope} {signature : Signature Pattern Expr}
  {arrow : Bool} {core tail body : List Stmt} (unit : String)

theorem Returns.print_ends (apt : g.Apt) (h : g.Returns frames signature core tail)
    (surface : Param.AllSurface signature.params) (placed : Param.AllPlaced ok signature.params)
    (inside : ∀ out, FailsOnly (PrintError.At ok) (Script.printStmts unit core out))
    (out : Script.Layout) :
    FailsOnly (PrintError.At ok) (Script.printStmts unit tail out) := by
  unfold Returns at h
  split at h
  · rw [h]
    exact inside out
  · obtain ⟨ctx, d, -, mapped, -, rfl⟩ := h
    have arguments : FailsOnly (PrintError.At ok)
        (Script.printExprs unit (.this :: Instrument.forwarded signature.params)) := by
      refine .of_isOk ?_
      rw [Script.isOk_printExprs unit _ [], Expr.allNodes, Instrument.allNodes_forwarded surface]
      rfl
    have inner : FailsOnly (PrintError.At ok) (Script.printExpr unit
        (.function { params := Instrument.innerParams signature.params } core none .unknown)) :=
      (Script.printParams_ends unit _ placed.innerParams).bind fun _ _ =>
        (inside _).bind fun _ _ => trivial
    have call := Script.printExpr_method_ends unit "call" inner arguments
    have kept : FailsOnly (PrintError.At ok) (Script.printStmt unit (.var .const
        (.ident (ctx.freshLocal "ret" signature.boundNames)) (some _) .unknown) out) :=
      call.bind fun _ _ => .pure trivial
    have check (out : Script.Layout) : FailsOnly (PrintError.At ok)
        (Script.printStmt unit (g.check (.ident (ctx.freshLocal "ret" signature.boundNames)) d
          returnLabel) out) :=
      Script.printStmt_ends_of_plain unit [] out
        (nodes_check apt returnLabel rfl (Site.encode_dotted mapped))
    exact kept.bind fun out _ => (check out).bind fun _ _ => trivial

theorem Guards.print_ends (apt : g.Apt) (h : g.Guards frames signature arrow core body)
    (surface : Param.AllSurface signature.params) (placed : Param.AllPlaced ok signature.params)
    (inside : ∀ out, FailsOnly (PrintError.At ok) (Script.printStmts unit core out))
    (out : Script.Layout) :
    FailsOnly (PrintError.At ok) (Script.printStmts unit body out) := by
  obtain ⟨checks, tail, arguments, returned, rfl⟩ := h
  rw [Script.printStmts_append]
  exact (Script.printStmts_ends_of_plain unit [] out (arguments.nodes_plain apt surface [])).bind
    fun out _ => returned.print_ends unit apt surface placed inside out

theorem Bodies.print_ends (apt : g.options.skipAsserts = false → g.Apt)
    (h : g.Bodies frames signature core body) (surface : Param.AllSurface signature.params)
    (placed : Param.AllPlaced ok signature.params)
    (inside : ∀ out, FailsOnly (PrintError.At ok) (Script.printStmts unit core out))
    (out : Script.Layout) :
    FailsOnly (PrintError.At ok) (Script.printStmts unit body out) := by
  unfold Bodies at h
  split at h
  next =>
    rw [h]
    exact inside out
  next asserts =>
    exact Guards.print_ends unit (apt (Bool.eq_false_iff.2 asserts)) h surface placed inside
      out

theorem ArrowBodies.print_ends {core body : Body Stmt Expr} (loc : Location)
    (apt : g.options.skipAsserts = false → g.Apt) (h : g.ArrowBodies frames signature core body)
    (surface : Param.AllSurface signature.params) (placed : Param.AllPlaced ok signature.params)
    (inside : ∀ out, FailsOnly (PrintError.At ok)
      (Script.printStmts unit (Instrument.statements core) out)) :
    FailsOnly (PrintError.At ok) (Script.printExpr unit (.arrow signature body loc)) := by
  have params := Script.printParams_ends unit signature.params placed
  unfold ArrowBodies at h
  split at h
  next =>
    rw [h]
    cases core with
    | block stmts => exact params.bind fun _ _ => (inside _).bind fun _ _ => trivial
    | expression value =>
      -- The value is returned where it is checked, and printed alone where it is not.
      have returned : FailsOnly (PrintError.At ok)
          (Script.printStmt unit (.ret (some value)) {}) := (inside {}).of_bind
      have alone : FailsOnly (PrintError.At ok) (Script.printExpr unit value) :=
        returned.of_bind
      exact params.bind fun _ _ => alone.bind fun _ _ => trivial
  next asserts =>
    obtain ⟨stmts, guards, rfl⟩ := h
    have checked := guards.print_ends unit (apt (Bool.eq_false_iff.2 asserts)) surface placed
      inside
    exact params.bind fun _ _ => (checked _).bind fun _ _ => trivial

end Setting

section
variable {g : Setting} {ok : Location → Prop} (unit : String)

/-- A validator can be printed. -/
theorem Setting.Defines.print_ends (library : ∀ reach b, g.library.nodes reach b = [])
    {frames : Scope} {site : Site} {name : String} {loc : Location} {s : Stmt}
    (h : g.Defines frames site name loc s) (out : Script.Layout) :
    FailsOnly (PrintError.At ok) (Script.printStmt unit s out) := by
  obtain ⟨d, mapped, -, rfl⟩ := h
  refine Script.printStmt_ends_of_plain unit [] out ?_
  exact Descriptor.plain_lower (library _ _) d (Site.encode_dotted mapped)

mutual

-- By recursion on the source, since the core of a function is printed in an inner function where
-- its result is checked.
theorem Expr.print_ends_of_lowers (apt : g.options.skipAsserts = false → g.Apt)
    (library : ∀ reach b, g.library.nodes reach b = []) : ∀ (e : Expr) {e' : Expr} {frames : Scope},
    Expr.Lowers g frames e e' → e.Surface → e.Placed ok →
      FailsOnly (PrintError.At ok) (Script.printExpr unit e')
  | .function ⟨params, _, _⟩ body _ _, _, _, ⟨_, _, lowered, bodies, h⟩, surface, placed => by
    have inside := Stmt.print_ends_of_allLower apt library body lowered surface.2 placed.2.2.2
    rw [h]
    exact (Script.printParams_ends unit params placed.2.2.1).bind fun _ _ =>
      (bodies.print_ends unit apt surface.1 placed.2.2.1 inside _).bind fun _ _ => trivial
  | .arrow ⟨params, _, _⟩ (.block stmts) _, _, _, ⟨_, _, ⟨_, lowered, same⟩, bodies, h⟩, surface,
      placed => by
    have inside := Stmt.print_ends_of_allLower apt library stmts lowered surface.2 placed.2.2.2
    rw [h]
    rw [same] at bodies
    exact bodies.print_ends unit _ apt surface.1 placed.2.2.1 inside
  | .arrow ⟨params, _, _⟩ (.expression value) _, _, _, ⟨_, _, ⟨_, lowered, same⟩, bodies, h⟩,
      surface, placed => by
    have inside := Expr.print_ends_of_lowers apt library value lowered surface.2 placed.2.2.2
    rw [h]
    rw [same] at bodies
    have returned (out : Script.Layout) : FailsOnly (PrintError.At ok)
        (Script.printStmt unit (.ret (some _)) out) := inside.bind fun _ _ => trivial
    exact bodies.print_ends unit _ apt surface.1 placed.2.2.1 fun out =>
      (returned out).bind fun _ _ => trivial
  | .call _ _, _, _, ⟨_, _, callee, args, h⟩, ⟨_, surface⟩, _ => by
    cases surface
    obtain rfl := callee
    obtain ⟨_, _, rfl, rfl, rfl⟩ := args
    rw [h]
    trivial
  | .raw _, _, _, h, _, _ | .ident _, _, _, h, _, _ | .number _, _, _, h, _, _ => by
    rw [h]
    trivial
  | .this, _, _, _, surface, _ | .member _ _, _, _, _, surface, _ | .string _, _, _, _, surface, _
  | .array _, _, _, _, surface, _ | .object _, _, _, _, surface, _ | .spread _, _, _, _, surface, _
  | .binary _ _ _, _, _, _, surface, _ | .stray _, _, _, _, surface, _ => surface.elim
termination_by structural e => e

theorem Stmt.print_ends_of_lowers (apt : g.options.skipAsserts = false → g.Apt)
    (library : ∀ reach b, g.library.nodes reach b = []) : ∀ (s : Stmt) {s' : Stmt} {frames : Scope},
    Stmt.Lowers g frames s s' → s.Surface → s.Placed ok → ∀ out : Script.Layout,
      FailsOnly (PrintError.At ok) (Script.printStmt unit s' out)
  | .typeAlias _, _, _, h, _, _, out | .interface _, _, _, h, _, _, out => by
    exact Setting.Defines.print_ends unit library h out
  | .function _ ⟨params, _, _⟩ body _, _, _, ⟨_, _, lowered, bodies, h⟩, surface, placed, out => by
    have inside := Stmt.print_ends_of_allLower apt library body lowered surface.2 placed.2.2.2
    rw [h]
    exact (Script.printParams_ends unit params placed.2.2.1).bind fun _ _ =>
      Script.block_ends (bodies.print_ends unit apt surface.1 placed.2.2.1 inside) out
  | .var _ target none _, _, _, h, _, placed, _ => by
    rw [h]
    exact (Script.printPattern_ends unit target placed).bind fun _ _ => trivial
  | .var _ target (some init) _, _, _, ⟨_, lowered, h⟩, surface, placed, _ => by
    rw [h]
    exact (Script.printPattern_ends unit target placed.1).bind fun _ _ =>
      (Expr.print_ends_of_lowers apt library init lowered surface.2 placed.2).bind
        fun _ _ => trivial
  | .exports declaration _, _, _, ⟨_, lowered, h⟩, surface, placed, _ => by
    rw [h]
    exact (Stmt.print_ends_of_lowers apt library declaration lowered surface placed _).bind
      fun _ _ => trivial
  | .ret (some argument), _, _, ⟨_, lowered, h⟩, surface, placed, _ => by
    rw [h]
    exact (Expr.print_ends_of_lowers apt library argument lowered surface placed).bind
      fun _ _ => trivial
  | .ret none, _, _, h, _, _, _ | .raw _, _, _, h, _, _, _ | .imports _, _, _, h, _, _, _ => by
    rw [h]
    trivial
  | .block _, _, _, _, surface, _, _ | .expr _, _, _, _, surface, _, _
  | .stray _, _, _, _, surface, _, _ => surface.elim
termination_by structural s => s

theorem Stmt.print_ends_of_allLower (apt : g.options.skipAsserts = false → g.Apt)
    (library : ∀ reach b, g.library.nodes reach b = []) : ∀ (ss : List Stmt) {ss' : List Stmt}
    {frames : Scope}, Stmt.AllLower g frames ss ss' → Stmt.AllSurface ss → Stmt.AllPlaced ok ss →
      ∀ out : Script.Layout,
      FailsOnly (PrintError.At ok) (Script.printStmts unit ss' out)
  | [], _, _, h, _, _, _ => by
    cases h
    trivial
  | s :: ss, _, _, ⟨_, _, first, others, h⟩, surface, placed, out => by
    rw [h]
    exact (Stmt.print_ends_of_lowers apt library s first surface.1 placed.1 out).bind fun out _ =>
      Stmt.print_ends_of_allLower apt library ss others surface.2 placed.2 out
termination_by structural ss => ss

end

/-- Printing a lowered program fails at a declaration that was read. -/
theorem Program.print_ends_of_lowers (apt : g.options.skipAsserts = false → g.Apt)
    (library : ∀ reach b, g.library.nodes reach b = []) {program lowered : Program}
    (h : program.Lowers g lowered) (surface : Stmt.AllSurface program.body)
    (placed : Stmt.AllPlaced ok program.body) :
    FailsOnly (PrintError.At ok) (lowered.print unit) := by
  obtain ⟨-, body, statements, helper⟩ := h
  have inBody := Stmt.print_ends_of_allLower unit apt library program.body statements surface placed
  have printed : ∀ out, FailsOnly (PrintError.At ok)
      (Script.printStmts unit lowered.body out) := by
    split at helper
    · obtain ⟨text, -, same⟩ := helper
      rw [same]
      exact fun out => inBody _
    · rw [helper]
      exact inBody
  exact (printed _).bind fun _ _ => trivial

end

/-! ## Files that are not compiled -/

section
variable {ok : Location → Prop} {options : Options} {program : Program}

/-- A fault is reported at the place it is given, or at its own if the former is not known. -/
theorem Diagnostic.ofFault_ok {fault : Fault} {loc : Location} (here : ok loc)
    (own : ∀ loc, fault.loc = some loc → loc.OrUnknown ok) : ok (ofFault fault (some loc)).loc := by
  by_cases known : loc = .unknown
  · -- The unknown place is `ok` itself, so the place of the fault is in either case.
    have same : (ofFault fault (some loc)).loc = fault.loc.getD .unknown := by
      simp [ofFault, Option.filter_some, known]
    rw [same]
    cases found : fault.loc with
    | none => exact known ▸ here
    | some own' =>
      obtain rfl | placed := own own' found
      · exact known ▸ here
      · exact placed
  · rw [Diagnostic.ofFault_known fault known]
    exact here

theorem PrintError.At.diagnostic {e : PrintError} (h : e.At ok) : ok e.diagnostic.loc := by
  obtain ⟨loc, found, placed⟩ := h
  have same : e.diagnostic.loc = e.loc?.getD .unknown := rfl
  rw [same, found]
  exact placed

theorem Program.lower_ends (placed : Stmt.AllPlaced ok program.body) :
    Ends (fun d => ok d.loc) (program.Lowers (program.setting options))
      (program.lower options).1 := by
  cases run : (program.lower options).1 with
  | ok lowered => exact Program.lowers_setting run
  | error d =>
    have first := program.failure?_lower options
    rw [run] at first
    obtain ⟨o, member, reported⟩ := List.exists_of_findSome?_eq_some first.symm
    obtain ⟨e, failed, rfl⟩ := Option.map_eq_some_iff.1 reported
    obtain ⟨here, inSite⟩ := Stmt.allOccurrences_placed program.body placed o member
    have own := Site.encode_ends inSite
    rw [failure?_eq_some_iff.1 failed] at own
    exact Diagnostic.ofFault_ok here own

theorem Program.compile_ends (surface : Stmt.AllSurface program.body)
    (placed : Stmt.AllPlaced ok program.body) :
    FailsOnly (fun d => ok d.loc) (program.compile options).1 := by
  refine Ends.bind (Program.lower_ends placed) fun lowered lowers => ?_
  refine Ends.mapError ?_ fun _ => PrintError.At.diagnostic
  exact Program.print_ends_of_lowers _ (program.setting_apt ·)
    (fun _ _ => program.nodes_libraryReference options) lowers surface placed

end

theorem file_compile (options : Options) (file source : String) :
    (compile options file source).file = file := by
  unfold compile
  split <;> rfl

theorem compile_ends (options : Options) (file source : String) :
    FailsOnly (fun d => d.loc.PointsInto file source) (compile options file source).result := by
  have places := Program.parse_ends file source
  unfold compile
  split
  next e parsed =>
    rw [parsed] at places
    refine Diagnostic.ofFault_ok ?_ fun loc found => .inr (places loc found)
    cases found : e.loc? with
    | none => exact ⟨rfl, .inl rfl⟩
    | some loc => exact places loc found
  next program parsed =>
    rw [parsed] at places
    exact Program.compile_ends (Program.parse_surface parsed) places

/-- A file that is not compiled has no code but a diagnostic, which points into the file that was
named: to line and column zero or to an opening parenthesis of its text. -/
theorem compile_error_pointsInto {options : Options} {file source : String}
    (h : (compile options file source).isOk = false) :
    (compile options file source).file = file ∧
      ∃ d, (compile options file source).result = .error d ∧ d.loc.PointsInto file source := by
  have outcome := compile_ends options file source
  refine ⟨file_compile options file source, ?_⟩
  cases found : (compile options file source).result with
  | error d =>
    rw [found] at outcome
    exact ⟨d, rfl, outcome⟩
  | ok code =>
    rw [Outcome.isOk, found] at h
    cases h

/-- A type declaration in a default value, which is read and lowered but cannot be printed. -/
def declaredInDefault : String :=
  "(program\n (function f ((default x (function-expr ()\n  (body (type A number))))) (body)))"

theorem declaredInDefault_pointsInto :
    (compile {} "m.js" declaredInDefault).diagnostic?.map Diagnostic.loc = some ⟨"m.js", 3, 9⟩ ∧
      (compile {} "m.js" declaredInDefault).file = "m.js" ∧
      ∃ d, (compile {} "m.js" declaredInDefault).result = .error d ∧
        d.loc.PointsInto "m.js" declaredInDefault :=
  ⟨by decide +kernel, compile_error_pointsInto (by decide +kernel)⟩

end TypeGuard
