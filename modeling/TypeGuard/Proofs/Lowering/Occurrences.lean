import TypeGuard.Proofs.Lowering.Step
import TypeGuard.Proofs.Syntax.Nodes

/-!
# The types that lowering comes to

Lowering goes through a program and encodes the types that it comes to: those of type declarations,
and those of the parameters and results that functions check. `Program.occurrences` lists them in
this order, each with what stands around it. What a step of lowering does can be read off the types
that it comes to: it fails with the first that has no descriptor, and it needs the library if there
is one at all (`Stmt.lower_acts`).
-/

namespace TypeGuard

/-! ## Sites -/

/-- A place where a type is checked, with the type parameters of its own declaration. -/
inductive Site where
  | param (own : List String) (type : Ty) (optional : Bool)
  | result (own : List String) (type : Ty)
  | typeAlias (decl : TypeAlias)
  | interface (decl : InterfaceDecl)

namespace Site

/-- The descriptor of the type at a site, under the given frames around its declaration. -/
def encode (frames : Scope) : Site → Except TypeError Descriptor
  | .param own type optional => Instrument.paramDescriptor (own :: frames) type optional
  | .result own type => type.descriptor (own :: frames) none
  | .typeAlias decl => decl.descriptor frames
  | .interface decl => decl.descriptor frames

/-- Why the type at a site has no descriptor. -/
def failure? (frames : Scope) (site : Site) : Option TypeError :=
  TypeGuard.failure? (site.encode frames)

/-- The report on a type that has no descriptor, which belongs to the declaration or function at the
given place. -/
def report? (frames : Scope) (placed : Location × Site) : Option Diagnostic :=
  (placed.2.failure? frames).map fun e => .ofFault e.fault (some placed.1)

end Site

/-- The check of a parameter. -/
def Param.site? (own : List String) (param : Param Pattern Expr) : Option Site :=
  param.type.map fun type => .param own type param.optional

theorem Param.site?_eq_none {own : List String} {param : Param Pattern Expr}
    (untyped : param.type = none) : param.site? own = none := by
  rw [Param.site?, untyped, Option.map_none]

theorem Param.site?_eq_some {own : List String} {param : Param Pattern Expr} {type : Ty}
    (typed : param.type = some type) :
    param.site? own = some (.param own type param.optional) := by
  rw [Param.site?, typed, Option.map_some]

/-- The checks of a function: that of its result comes first. -/
def Signature.encoded (signature : Signature Pattern Expr) : List Site :=
  (signature.returnType.map (Site.result signature.typeParams)).toList
    ++ signature.params.filterMap (Param.site? signature.typeParams)

/-! ## The walk -/

/-- A type that lowering comes to, and what stands around it in the part of the program that is
looked at. -/
structure Occurrence where
  /-- The place of the declaration or function that the type belongs to. -/
  loc : Location
  site : Site
  /-- The type parameters of the functions around that declaration or function. -/
  frames : Scope := []
  /-- The names that functions bind around the place where the type is emitted. -/
  binders : Binders := []

/-- A type in the body of a function, as one in the function. -/
def Occurrence.within (own : List String) (signature : Signature Pattern Expr) (body : List Stmt)
    (o : Occurrence) : Occurrence :=
  { o with
    frames := o.frames ++ [signature.typeParams]
    binders := o.binders ++ bodyBinders [] own signature body }

/-- The names bound around the checks of a function. Where the result is checked, the body stands in
an inner function, and what it declares with it. -/
def Signature.checkBinders (outer : Binders) (own : List String)
    (signature : Signature Pattern Expr) (body : List Stmt) : Binders :=
  (if signature.returnType.isSome then [] else Stmt.allLocalNames body) ::
    signature.boundNames :: own :: outer

section
variable (options : Options)

/-- The checks of a function, unless functions stay as they are. -/
def Signature.checkOccurrences (signature : Signature Pattern Expr) (loc : Location)
    (own : List String) (body : List Stmt) : List Occurrence :=
  if options.skipAsserts then []
  else signature.encoded.map fun site =>
    { loc, site, binders := signature.checkBinders [] own body }

/-- The types of a function: those in its body come before its checks. -/
def Signature.occurrences (signature : Signature Pattern Expr) (loc : Location) (own : List String)
    (body : List Stmt) (inBody : List Occurrence) : List Occurrence :=
  inBody.map (Occurrence.within own signature body)
    ++ signature.checkOccurrences options loc own body

mutual

/-- The types in the functions of an expression. -/
def Expr.occurrences : Expr → List Occurrence
  | .function signature body name loc =>
    signature.occurrences options loc (ownFrame name) body (Stmt.allOccurrences body)
  | .arrow signature body loc =>
    signature.occurrences options loc [] (Instrument.statements body) (Expr.bodyOccurrences body)
  | .call callee args => Expr.occurrences callee ++ Expr.allOccurrences args
  | _ => []
termination_by structural e => e

def Expr.bodyOccurrences : Body Stmt Expr → List Occurrence
  | .block stmts => Stmt.allOccurrences stmts
  | .expression value => Expr.occurrences value
termination_by structural body => body

def Expr.allOccurrences : List Expr → List Occurrence
  | [] => []
  | e :: es => Expr.occurrences e ++ Expr.allOccurrences es
termination_by structural es => es

/-- The types in a statement. -/
def Stmt.occurrences : Stmt → List Occurrence
  | .typeAlias decl => [{ loc := decl.loc, site := .typeAlias decl }]
  | .interface decl => [{ loc := decl.loc, site := .interface decl }]
  | .function _ signature body loc =>
    signature.occurrences options loc [] body (Stmt.allOccurrences body)
  | .var _ _ (some init) _ => Expr.occurrences init
  | .exports declaration _ => Stmt.occurrences declaration
  | .ret (some argument) => Expr.occurrences argument
  | .expr expression => Expr.occurrences expression
  | .block body => Stmt.allOccurrences body
  | _ => []
termination_by structural s => s

def Stmt.allOccurrences : List Stmt → List Occurrence
  | [] => []
  | s :: ss => Stmt.occurrences s ++ Stmt.allOccurrences ss
termination_by structural ss => ss

end

/-- The types of a program. -/
def Program.occurrences (program : Program) : List Occurrence :=
  Stmt.allOccurrences options program.body

end

/-! ## What the types decide -/

/-- The report on the first type that has no descriptor. -/
def firstReport (frames : Scope) (occurrences : List Occurrence) : Option Diagnostic :=
  occurrences.findSome? fun o => Site.report? frames (o.loc, o.site)

theorem firstReport_append (frames : Scope) (first second : List Occurrence) :
    firstReport frames (first ++ second)
      = (firstReport frames first).or (firstReport frames second) :=
  List.findSome?_append

theorem findSome?_cons_eq_or {α β : Type} (f : α → Option β) (a : α) (as : List α) :
    (a :: as).findSome? f = (f a).or (as.findSome? f) := by
  rw [List.findSome?_cons]
  cases f a <;> rfl

theorem firstReport_single (frames : Scope) (o : Occurrence) :
    firstReport frames [o] = Site.report? frames (o.loc, o.site) := by
  rw [firstReport, findSome?_cons_eq_or, List.findSome?_nil, Option.or_none]

/-- The default reference, if there is a type that needs it. -/
def LibraryBinding.neededFor {α : Type} (types : List α) : Option LibraryBinding :=
  if types.isEmpty then none else some .standard

open LibraryBinding (neededFor)

theorem LibraryBinding.neededFor_append {α : Type} (first second : List α) :
    neededFor (first ++ second) = (neededFor first).or (neededFor second) := by
  cases first <;> rfl

theorem LibraryBinding.neededFor_map {α β : Type} (f : α → β) (types : List α) :
    neededFor (types.map f) = neededFor types := by
  cases types <;> rfl

theorem LibraryBinding.eq_standard_of_neededFor {α : Type} {types : List α} {b : LibraryBinding}
    (h : neededFor types = some b) : b = .standard := by
  cases types with
  | nil => cases h
  | cons => exact (Option.some.inj h).symm

section
variable (options : Options) (signature : Signature Pattern Expr) (loc : Location)
  (own : List String) (body : List Stmt)

/-- What stands around a type does not matter to its report. -/
theorem Signature.firstReport_occurrences (frames : Scope) (inBody : List Occurrence) :
    firstReport frames (signature.occurrences options loc own body inBody)
      = (firstReport frames inBody).or
          (firstReport frames (signature.checkOccurrences options loc own body)) := by
  rw [Signature.occurrences, firstReport_append]
  unfold firstReport
  rw [List.findSome?_map]
  rfl

theorem Signature.neededFor_occurrences (inBody : List Occurrence) :
    neededFor (signature.occurrences options loc own body inBody)
      = (neededFor inBody).or (neededFor (signature.checkOccurrences options loc own body)) := by
  rw [Signature.occurrences, LibraryBinding.neededFor_append, LibraryBinding.neededFor_map]

/-- What a statement settles the library reference on: at the top level what it designates, and
otherwise the default if it needs the library. -/
def Stmt.settles (topLevel : Bool) : Stmt → Option LibraryBinding
  | .exports declaration _ => Stmt.settles topLevel declaration
  | s => (if topLevel then s.library? else none).or (neededFor (s.occurrences options))

/-- A statement that designates nothing settles on the default if it needs the library. -/
theorem Stmt.settles_of_library?_eq_none (topLevel : Bool) {s : Stmt}
    (bare : ∀ declaration loc, s ≠ .exports declaration loc) (h : s.library? = none) :
    s.settles options topLevel = neededFor (s.occurrences options) := by
  rw [Stmt.settles, h]
  · cases topLevel <;> rfl
  · exact bare

/-- Below the top level no statement designates the library. -/
theorem Stmt.settles_false : ∀ s : Stmt,
    s.settles options false = neededFor (s.occurrences options)
  | .exports declaration _ => Stmt.settles_false declaration
  | .typeAlias _ | .interface _ | .function _ _ _ _ | .imports _ | .var _ _ _ _ | .ret _ | .expr _
  | .block _ | .raw _ | .stray _ => rfl

end

/-! ## What lowering does -/

open Lowering (Acts)

section
variable (opened : Scope)

namespace Instrument

theorem assertion_acts (value : Expr) (descriptor : Descriptor) (label : String) :
    (assertion value descriptor label).Acts opened none (some .standard) :=
  Acts.library.bind fun _ => .map .helperName _

theorem checks_acts (frames : Scope) (own : List String) (arrow : Bool) (index : Nat)
    (params : List (Param Pattern Expr)) :
    (checks (own :: frames) arrow index params).Acts opened
      ((params.filterMap (Param.site? own)).findSome? (Site.failure? frames))
      (neededFor (params.filterMap (Param.site? own))) := by
  induction params generalizing index with
  | nil => exact .pure _
  | cons param params ih =>
    unfold checks
    split
    next untyped =>
      rw [List.filterMap_cons_none (Param.site?_eq_none untyped)]
      exact ih (index + 1)
    next type typed =>
      rw [List.filterMap_cons_some (Param.site?_eq_some typed), findSome?_cons_eq_or]
      exact (Acts.ofExcept _).bind fun descriptor =>
        (assertion_acts opened _ descriptor _).bind fun _ => .map (ih (index + 1)) _

theorem returning_acts (frames : Scope) (signature : Signature Pattern Expr) (body : List Stmt) :
    (returning (signature.typeParams :: frames) signature body).Acts opened
      ((signature.returnType.map (Site.result signature.typeParams)).toList.findSome?
        (Site.failure? frames))
      (neededFor (signature.returnType.map (Site.result signature.typeParams)).toList) := by
  unfold returning
  split
  next type annotated =>
    rw [annotated, Option.map_some, Option.toList_some, findSome?_cons_eq_or]
    exact .get_bind fun _ _ => (Acts.ofExcept _).bind fun descriptor =>
      .map (assertion_acts opened _ descriptor _) _
  next unannotated =>
    rw [unannotated]
    exact .pure _

/-- The annotations of a function are read in its own frame, which is open by then. -/
theorem parts_acts (signature : Signature Pattern Expr) (body : List Stmt) (arrow : Bool) :
    (parts signature body arrow).Acts (signature.typeParams :: opened)
      (signature.encoded.findSome? (Site.failure? opened)) (neededFor signature.encoded) := by
  rw [Signature.encoded, List.findSome?_append, LibraryBinding.neededFor_append]
  refine .get_bind fun ctx inside => ?_
  rw [inside]
  exact (returning_acts _ opened signature body).bind fun _ =>
    .map (checks_acts _ opened _ arrow 0 signature.params) _

end Instrument

open Instrument in
theorem instrument_acts (signature : Signature Pattern Expr) (body : Body Stmt Expr)
    (arrow : Bool) :
    (instrument signature body arrow).Acts opened
      (signature.encoded.findSome? (Site.failure? opened)) (neededFor signature.encoded) :=
  (Acts.inFrame _ (parts_acts opened signature _ arrow)).bind_none fun _ =>
    .get_bind fun _ _ => .map (.note _) _

theorem validatorOf_acts (name : String) (loc : Location) (typeParams : List String)
    (read : Scope → Except TypeError Descriptor) :
    (validatorOf name loc typeParams read).Acts opened (failure? (read (typeParams :: opened)))
      (some .standard) := by
  rw [← Option.or_none (o := failure? _)]
  exact (Acts.inFrame_ofExcept typeParams read).bind fun _ =>
    (Acts.note _).bind fun _ => .map .library _

variable (options : Options)

/-- The checks of a function are all reported at the function. -/
theorem Signature.instrument_positioned_acts (signature : Signature Pattern Expr) (loc : Location)
    (own : List String) (stmts : List Stmt) (body : Body Stmt Expr) (arrow : Bool)
    (asserted : ¬ options.skipAsserts = true) :
    ((instrument signature body arrow).positioned loc).Acts opened
      (firstReport opened (signature.checkOccurrences options loc own stmts))
      (neededFor (signature.checkOccurrences options loc own stmts)) := by
  rw [Signature.checkOccurrences, if_neg asserted, LibraryBinding.neededFor_map, firstReport,
    List.findSome?_map]
  have located : signature.encoded.findSome? (fun site => Site.report? opened (loc, site))
      = (signature.encoded.findSome? (Site.failure? opened)).map
          fun e => .ofFault e.fault (some loc) := by
    rw [List.map_findSome?]
    rfl
  exact located ▸ .positioned loc (instrument_acts opened signature body arrow)

theorem checkedBody_acts (signature : Signature Pattern Expr) (own : List String)
    (source body : List Stmt) (loc : Location) :
    (checkedBody options signature body loc).Acts opened
      (firstReport opened (signature.checkOccurrences options loc own source))
      (neededFor (signature.checkOccurrences options loc own source)) := by
  unfold checkedBody
  split
  next skipped =>
    rw [Signature.checkOccurrences, if_pos skipped]
    exact .pure _
  next asserted => exact signature.instrument_positioned_acts opened options loc own _ _ _ asserted

theorem checkedArrowBody_acts (signature : Signature Pattern Expr) (own : List String)
    (source : List Stmt) (body : Body Stmt Expr) (loc : Location) :
    (checkedArrowBody options signature body loc).Acts opened
      (firstReport opened (signature.checkOccurrences options loc own source))
      (neededFor (signature.checkOccurrences options loc own source)) := by
  unfold checkedArrowBody
  split
  next skipped =>
    rw [Signature.checkOccurrences, if_pos skipped]
    exact .pure _
  next asserted =>
    exact .map (signature.instrument_positioned_acts opened options loc own _ _ _ asserted) _

mutual

theorem Expr.lower_acts : ∀ e : Expr,
    (Expr.lower options e).Acts opened (firstReport opened (e.occurrences options))
      (neededFor (e.occurrences options))
  | .function signature body name loc => by
    rw [Expr.occurrences, Signature.firstReport_occurrences, Signature.neededFor_occurrences]
    exact (Stmt.lowerAll_acts body).bind fun core =>
      .map (checkedBody_acts opened options signature _ _ core loc) _
  | .arrow signature body loc => by
    rw [Expr.occurrences, Signature.firstReport_occurrences, Signature.neededFor_occurrences]
    exact (Expr.lowerBody_acts body).bind fun core =>
      .map (checkedArrowBody_acts opened options signature _ _ core loc) _
  | .call callee args => by
    rw [Expr.occurrences, firstReport_append, LibraryBinding.neededFor_append]
    exact (Expr.lower_acts callee).bind fun _ => .map (Expr.lowerAll_acts args) _
  | .raw _ | .ident _ | .this | .member _ _ | .string _ | .number _ | .array _ | .object _
  | .spread _ | .binary _ _ _ | .stray _ => .pure _
termination_by structural e => e

theorem Expr.lowerBody_acts : ∀ body : Body Stmt Expr,
    (Expr.lowerBody options body).Acts opened
      (firstReport opened (Expr.bodyOccurrences options body))
      (neededFor (Expr.bodyOccurrences options body))
  | .block stmts => .map (Stmt.lowerAll_acts stmts) _
  | .expression value => .map (Expr.lower_acts value) _
termination_by structural body => body

theorem Expr.lowerAll_acts : ∀ es : List Expr,
    (Expr.lowerAll options es).Acts opened (firstReport opened (Expr.allOccurrences options es))
      (neededFor (Expr.allOccurrences options es))
  | [] => .pure _
  | e :: es => by
    rw [Expr.allOccurrences, firstReport_append, LibraryBinding.neededFor_append]
    exact (Expr.lower_acts e).bind fun _ => .map (Expr.lowerAll_acts es) _
termination_by structural es => es

theorem Stmt.lower_acts (topLevel : Bool) : ∀ s : Stmt,
    (Stmt.lower options topLevel s).Acts opened (firstReport opened (s.occurrences options))
      (s.settles options topLevel)
  | .typeAlias decl => by
    rw [Stmt.settles_of_library?_eq_none options topLevel (by simp) rfl, Stmt.occurrences,
      firstReport_single]
    exact .positioned decl.loc (validatorOf_acts opened _ _ _ decl.descriptorIn)
  | .interface decl => by
    rw [Stmt.settles_of_library?_eq_none options topLevel (by simp) rfl, Stmt.occurrences,
      firstReport_single]
    exact .positioned decl.loc (validatorOf_acts opened _ _ _ decl.descriptorIn)
  | .function _ signature body loc => by
    rw [Stmt.settles_of_library?_eq_none options topLevel (by simp) rfl, Stmt.occurrences,
      Signature.firstReport_occurrences, Signature.neededFor_occurrences]
    exact (Stmt.lowerAll_acts body).bind fun core =>
      .map (checkedBody_acts opened options signature _ _ core loc) _
  | .imports _ => by
    rw [Stmt.lower_imports]
    exact (Stmt.offer_acts opened topLevel _).bind fun _ => .pure _
  | .var _ _ none _ => by
    rw [Stmt.lower_var_none]
    exact (Stmt.offer_acts opened topLevel _).bind fun _ => .pure _
  | .var _ _ (some init) _ => by
    rw [Stmt.lower_var_some]
    exact (Stmt.offer_acts opened topLevel _).bind fun _ => .map (Expr.lower_acts init) _
  | .exports declaration _ => .map (Stmt.lower_acts topLevel declaration) _
  | .ret (some argument) => by
    rw [Stmt.settles_of_library?_eq_none options topLevel (by simp) rfl]
    exact .map (Expr.lower_acts argument) _
  | .expr expression => by
    rw [Stmt.settles_of_library?_eq_none options topLevel (by simp) rfl]
    exact .map (Expr.lower_acts expression) _
  | .block body => by
    rw [Stmt.settles_of_library?_eq_none options topLevel (by simp) rfl]
    exact .map (Stmt.lowerAll_acts body) _
  | .ret none | .raw _ | .stray _ => by
    rw [Stmt.settles_of_library?_eq_none options topLevel (by simp) rfl]
    exact .pure _
termination_by structural s => s

theorem Stmt.lowerAll_acts : ∀ ss : List Stmt,
    (Stmt.lowerAll options ss).Acts opened (firstReport opened (Stmt.allOccurrences options ss))
      (neededFor (Stmt.allOccurrences options ss))
  | [] => .pure _
  | s :: ss => by
    rw [Stmt.allOccurrences, firstReport_append, LibraryBinding.neededFor_append,
      ← Stmt.settles_false]
    exact (Stmt.lower_acts false s).bind fun _ => .map (Stmt.lowerAll_acts ss) _
termination_by structural ss => ss

end

theorem Stmt.lowerTop_acts (ss : List Stmt) :
    (Stmt.lowerTop options ss).Acts opened (firstReport opened (Stmt.allOccurrences options ss))
      (ss.findSome? (Stmt.settles options true)) := by
  induction ss with
  | nil => exact .pure _
  | cons s ss ih =>
    rw [Stmt.allOccurrences, firstReport_append, findSome?_cons_eq_or]
    exact (Stmt.lower_acts opened options true s).bind fun _ => .map ih _

end

end TypeGuard
