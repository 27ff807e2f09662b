import TypeGuard.Proofs.Surface.Layout
import TypeGuard.Proofs.Surface.Rendering.Pattern

/-!
# Statements and expressions as forms

The form of each kind of statement and expression is read as that statement or expression, if the
forms of its parts are.
-/

namespace TypeGuard

section
variable {file : String}

/-! ## Signatures -/

theorem typeParamsOfForm_symbols (names : List String) (position : Position) :
    typeParamsOfForm (some (.list (.symbol "generics" :: names.map .symbol) position))
      = .ok names := by
  have symbols : (names.map Form.symbol).mapM Form.asSymbol = .ok names := by
    induction names with
    | nil => rfl
    | cons name names ih =>
      simp [List.mapM_cons, Form.asSymbol, ih, bind, Except.bind, pure, Except.pure]
  exact symbols

namespace FunctionLayout

/-- Where the parts of a function form stand, if its type parameters are given, after its name. -/
theorem ofItems_named (name : Option String) {generics params body : Form} {returns : Option Form}
    (tag : generics.head? = some "generics") (returned : ∀ f ∈ returns, f.head? = some "returns")
    (head : body.head? ≠ some "returns") :
    ofItems name.toList.length
        (name.toList.map .symbol ++ generics :: params :: (returns.toList ++ [body]))
      = ⟨some generics, name.toList.length + 1, returns,
          name.toList.length + returns.toList.length + 2⟩ := by
  cases name with
  | none =>
    cases returns with
    | none => simp [ofItems, tag, head]
    | some form => simp [ofItems, tag, returned form rfl]
  | some name =>
    cases returns with
    | none => simp [ofItems, tag, head]
    | some form => simp [ofItems, tag, returned form rfl]

/-- The items of a function form, whose signature begins with item `start`, are read as the
signature and as the body, which is the last one. -/
structure Finds (file : String) (start : Nat) (items : List Form)
    (signature : Signature Pattern Expr) (body : Form) : Prop where
  params : ∀ position, Param.listAt file position (ofItems start items).params items
    = .ok signature.params
  parts : (ofItems start items).signature file signature.params = .ok signature
  last : (ofItems start items).body + 1 = items.length
  block : ∀ position, Stmt.bodyAt file position (ofItems start items).body items
    = Stmt.bodyOfForm file body
  value : ∀ position, Expr.bodyAt file position (ofItems start items).body items
    = Expr.bodyAt file {} 0 [body]

theorem finds_named (name : Option String) {typeParams : List String} {forms : List Form}
    {params : List (Param Pattern Expr)} {returns : Option Form} {result : Option Ty} {body : Form}
    (readParams : Param.ofForms file forms = .ok params)
    (returned : ∀ f ∈ returns, f.head? = some "returns")
    (readResult : returnTypeOfForm file returns = .ok result)
    (head : body.head? ≠ some "returns") (p q : Position) :
    Finds file name.toList.length
      (name.toList.map .symbol ++ .list (.symbol "generics" :: typeParams.map .symbol) p
        :: .list forms q :: (returns.toList ++ [body]))
      ⟨params, result, typeParams⟩ body := by
  let generics : Form := .list (.symbol "generics" :: typeParams.map .symbol) p
  let names : List Form := name.toList.map .symbol
  let front : List Form := names ++ generics :: .list forms q :: returns.toList
  have items : names ++ generics :: .list forms q :: (returns.toList ++ [body])
      = front ++ [body] := by simp [front]
  have layout : ofItems name.toList.length (front ++ [body])
      = ⟨some generics, names.length + 1, returns, front.length⟩ := by
    have length : name.toList.length + returns.toList.length + 2 = front.length := by
      simp only [front, names, List.length_append, List.length_map, List.length_cons]
      omega
    rw [← items, ofItems_named name rfl returned head, length, List.length_map]
  have typed := typeParamsOfForm_symbols typeParams p
  rw [items]
  refine ⟨fun position => ?_, ?_, ?_, fun position => ?_, fun position => ?_⟩
  all_goals rw [layout]
  · rw [← items]
    have before := @Param.listAt_length file position (names ++ [generics])
      (.list forms q :: (returns.toList ++ [body]))
    simpa [Param.listAt, readParams] using before
  · simp [FunctionLayout.signature, readResult, generics, typed, bind, Except.bind, pure,
      Except.pure]
  · simp
  · exact (Stmt.bodyAt_length position front [body]).trans (by rw [Stmt.bodyAt])
  · exact (Expr.bodyAt_length position front [body]).trans rfl

end FunctionLayout

namespace Signature

/-- The form of the result's type is read as the type. -/
theorem reads_returns (file : String) {returnType : Option Ty}
    (h : ∀ type ∈ returnType, type.Readable) (positions : List Position) :
    ∃ (returns : Option Form) (result : Option Ty),
      (Form.locateAll positions
        (returnType.toList.map fun type => .tagged "returns" [type.toForm])).1 = returns.toList ∧
      (∀ f ∈ returns, f.head? = some "returns") ∧ returnTypeOfForm file returns = .ok result ∧
        result.map Ty.unlocated = returnType.map Ty.unlocated := by
  cases returnType with
  | none => exact ⟨none, none, rfl, by simp, rfl, rfl⟩
  | some type =>
    have ht : Renders (Ty.ofForm file) Ty.unlocated type type.toForm := type.renders (h type rfl)
    obtain ⟨t, read, same⟩ := ht.reads positions.tail
    refine ⟨some (.list [.symbol "returns", (type.toForm.locate positions.tail).1]
      (positions.headD {})), some t, ?_, by simp [Form.head?], ?_, congrArg some same⟩
    · simp [Form.tagged, Form.locateAll, Form.locate]
    · simp [returnTypeOfForm, read, bind, Except.bind, pure, Except.pure]

theorem allWritable_forms {returnType : Option Ty} {typeParams : List String} {params : List Form}
    (writable : Form.AllWritable params) (parts : PartsReadable returnType typeParams) :
    Form.AllWritable (forms params returnType typeParams) := by
  refine ⟨⟨⟨isSymbol_keyword rfl, Form.allWritable_symbols parts.2⟩, rfl⟩, ⟨writable, rfl⟩, ?_⟩
  cases returnType with
  | none => trivial
  | some type =>
    have ht : Renders (Ty.ofForm "") Ty.unlocated type type.toForm :=
      type.renders (parts.1 type rfl)
    exact ⟨⟨⟨isSymbol_keyword rfl, ht.writable, trivial⟩, rfl⟩, trivial⟩

/-- The forms of a signature and a body are read as them again. -/
theorem reads_forms (name : Option String) {signature : Signature Pattern Expr} {params : List Form}
    (h : RendersAll (Param.ofForms file) Param.unlocatedAll signature.params params)
    (parts : PartsReadable signature.returnType signature.typeParams) {body : Form}
    (head : body.head? ≠ some "returns") (positions : List Position) :
    ∃ found bs, found.unlocated = signature.unlocated ∧
      FunctionLayout.Finds file name.toList.length
        (Form.locateAll positions (name.toList.map .symbol
          ++ (forms params signature.returnType signature.typeParams ++ [body]))).1
        found (body.locate bs).1 := by
  let returnForms : List Form :=
    signature.returnType.toList.map fun type => .tagged "returns" [type.toForm]
  let behind := (Form.locateAll (positions.drop 2) params).2
  obtain ⟨ps, readParams, sameParams⟩ := h.reads (positions.drop 2)
  obtain ⟨returns, result, located, returned, read, same⟩ := reads_returns file parts.1 behind
  refine ⟨⟨ps, result, signature.typeParams⟩, (Form.locateAll behind returnForms).2,
    by simp [Signature.unlocated, sameParams, same], ?_⟩
  have items : (Form.locateAll positions (name.toList.map .symbol
      ++ (forms params signature.returnType signature.typeParams ++ [body]))).1
      = name.toList.map .symbol
        ++ .list (.symbol "generics" :: signature.typeParams.map .symbol) (positions.headD {})
        :: .list (Form.locateAll (positions.drop 2) params).1 ((positions.drop 1).headD {})
        :: (returns.toList ++ [(body.locate (Form.locateAll behind returnForms).2).1]) := by
    rw [← located]
    simp [forms, Form.tagged, Form.locateAll, Form.locate, Form.locateAll_symbols,
      Form.locateAll_append, behind, returnForms]
  rw [items]
  exact FunctionLayout.finds_named name readParams returned read (by rwa [Form.head?_locate]) _ _

end Signature

/-! ## Declarations -/

theorem ImportSpecifier.renders {specifier : ImportSpecifier} (h : specifier.Readable) :
    Renders (ofForm file) id specifier specifier.toForm := by
  obtain ⟨kind, localName, imported⟩ := specifier
  obtain ⟨name, names⟩ := h
  cases kind with
  | default =>
    obtain rfl : imported = none := names
    exact renders_tagged (isSymbol_keyword rfl) ⟨name.isSymbol, trivial⟩ fun _ _ => ⟨_, rfl, rfl⟩
  | everything =>
    obtain rfl : imported = none := names
    exact renders_tagged (isSymbol_keyword rfl) ⟨name.isSymbol, trivial⟩ fun _ _ => ⟨_, rfl, rfl⟩
  | named =>
    obtain ⟨other, rfl, plain⟩ : ∃ name, imported = some name ∧ IsPlainName name := names
    exact renders_tagged (isSymbol_keyword rfl) ⟨plain.isSymbol, name.isSymbol, trivial⟩
      fun _ _ => ⟨_, rfl, rfl⟩
  | other keyword => exact names.elim

/-- Items that are read one by one. -/
theorem rendersAll_mapM {α : Type} {read : Form → Except ParseError α} {bare : α → α}
    {toForm : α → Form} : ∀ {items : List α}, (∀ a ∈ items, Renders read bare a (toForm a)) →
    RendersAll (List.mapM read) (List.map bare) items (items.map toForm)
  | [], _ => rendersAll_nil rfl
  | item :: items, h => by
    obtain ⟨first, others⟩ := List.forall_mem_cons.1 h
    exact first.cons (fun form forms => by simp) (fun _ _ => rfl) (rendersAll_mapM others)

theorem renders_typeRef {ref : TypeRef Ty} (h : (Ty.named ref).Readable) :
    Renders (TypeRef.ofForm file) TypeRef.unlocated ref (Ty.named ref).toForm := by
  have ht : Renders (Ty.ofForm file) Ty.unlocated (.named ref) (Ty.named ref).toForm :=
    (Ty.named ref).renders h
  refine ⟨ht.writable, fun positions => ?_⟩
  obtain ⟨type, read, same⟩ := ht.reads positions
  obtain ⟨found, rfl, sameRef⟩ := Ty.named_of_unlocated same
  refine ⟨found, ?_, sameRef⟩
  simp [TypeRef.ofForm, read, bind, Except.bind, pure, Except.pure]

/-- An object form that stands for itself is read like the annotation. -/
theorem reads_objectShape {shape : ObjectShape Ty} (h : (Ty.object shape).Readable)
    (positions : List Position) :
    ∃ found, ObjectShape.ofForm file ((Ty.object shape).toForm.locate positions).1 = .ok found ∧
      (Ty.object found).unlocated = (Ty.object shape).unlocated := by
  obtain ⟨properties, indexers, loc⟩ := shape
  have members : RendersAll (Ty.membersOfForms file) Ty.unlocatedMembers (properties, indexers)
      (Ty.propertyForms properties ++ Ty.indexerForms indexers) :=
    Ty.rendersAll_properties properties h.1 (Ty.rendersAll_indexers indexers h.2)
  obtain ⟨⟨found, others⟩, read, same⟩ := members.reads positions.tail
  refine ⟨⟨found, others, (positions.headD {}).inFile file⟩, ?_, ?_⟩
  · simp [Ty.toForm, Form.tagged, Form.locate, Form.locateAll, ObjectShape.ofForm, read, bind,
      Except.bind, pure, Except.pure]
  · simp_all [Ty.unlocated, Ty.unlocatedMembers]

namespace Stmt

-- A rendered statement is read by the production of its tag.
attribute [local simp] ofForm

theorem renders_imports {decl : ImportDecl} (h : ∀ s ∈ decl.specifiers, s.Readable) :
    Renders (ofForm file) unlocated (.imports decl) decl.toForm := by
  have hs : RendersAll (List.mapM (ImportSpecifier.ofForm file)) (List.map id) decl.specifiers
      (decl.specifiers.map ImportSpecifier.toForm) :=
    rendersAll_mapM fun s mem => ImportSpecifier.renders (h s mem)
  refine renders_tagged (isSymbol_keyword rfl) ⟨trivial, hs.writable⟩ fun positions position => ?_
  obtain ⟨specifiers, read, same⟩ := hs.reads positions
  have tag : StmtTag.ofName? "import" = some .imports := rfl
  refine ⟨.imports ⟨decl.source, specifiers, position.inFile file⟩, ?_, ?_⟩
  · simp [Form.locateAll, Form.locate, tag, ImportDecl.ofItems, read, Form.asString, bind,
      Except.bind, pure, Except.pure]
  · simp_all [unlocated, ImportDecl.unlocated]

theorem renders_typeAlias {decl : TypeAlias} (h : decl.Readable) :
    Renders (ofForm file) unlocated (.typeAlias decl) decl.toForm := by
  obtain ⟨name, right, names⟩ := h
  have ht : Renders (Ty.ofForm file) Ty.unlocated decl.right decl.right.toForm :=
    decl.right.renders right
  refine renders_tagged (isSymbol_keyword rfl)
    ⟨name.isSymbol, ⟨⟨isSymbol_keyword rfl, Form.allWritable_symbols names⟩, rfl⟩, ht.writable,
      trivial⟩ fun positions position => ?_
  obtain ⟨type, read, same⟩ := ht.reads positions.tail
  have tag : StmtTag.ofName? "type" = some .typeAlias := rfl
  refine ⟨.typeAlias ⟨decl.name, type, decl.typeParams, position.inFile file⟩, ?_, ?_⟩
  · simp [Form.tagged, Form.locateAll, Form.locate, Form.locateAll_symbols, tag,
      TypeAlias.ofItems, Form.asSymbol, read, typeParamsOfForm_symbols, bind,
      Except.bind, pure, Except.pure]
  · simp [unlocated, TypeAlias.unlocated, same]

theorem renders_interface {decl : InterfaceDecl} (h : decl.Readable) :
    Renders (ofForm file) unlocated (.interface decl) decl.toForm := by
  obtain ⟨name, body, supertypes, typeParams, loc⟩ := decl
  obtain ⟨plain, ⟨shape, rfl⟩, members, refs, names⟩ := h
  have hb : Renders (Ty.ofForm file) Ty.unlocated (.object shape) (Ty.object shape).toForm :=
    (Ty.object shape).renders members
  have hr : RendersAll (List.mapM (TypeRef.ofForm file)) (List.map TypeRef.unlocated) supertypes
      (supertypes.map fun ref => (Ty.named ref).toForm) :=
    rendersAll_mapM fun ref mem => renders_typeRef (refs ref mem)
  refine renders_tagged (isSymbol_keyword rfl)
    ⟨plain.isSymbol, ⟨⟨isSymbol_keyword rfl, Form.allWritable_symbols names⟩, rfl⟩,
      ⟨⟨isSymbol_keyword rfl, hr.writable⟩, rfl⟩, hb.writable, trivial⟩ fun positions position => ?_
  obtain ⟨found, readRefs, sameRefs⟩ := hr.reads (positions.drop 2)
  obtain ⟨object, read, same⟩ := @reads_objectShape file shape members
    (Form.locateAll (positions.drop 2) (supertypes.map fun ref => (Ty.named ref).toForm)).2
  have tag : StmtTag.ofName? "interface" = some .interface := rfl
  refine ⟨.interface ⟨name, .object object, found, typeParams, position.inFile file⟩, ?_, ?_⟩
  · simp [Form.tagged, Form.locateAll, Form.locate, Form.locateAll_symbols, tag,
      InterfaceDecl.ofItems, Form.asSymbol, Option.filter, read, readRefs, typeParamsOfForm_symbols,
      bind, Except.bind, pure, Except.pure]
  · simp [unlocated, InterfaceDecl.unlocated, same, sameRefs]

theorem renders_ret {argument : Expr} {form : Form}
    (h : Renders (Expr.ofForm file) Expr.unlocated argument form) :
    Renders (ofForm file) unlocated (.ret (some argument)) (.tagged "return" [form]) := by
  have tag : StmtTag.ofName? "return" = some .ret := rfl
  exact h.tagged (isSymbol_keyword rfl) (fun _ e => .ret (some e))
    (fun item position => by simp [tag]) fun _ e same => by simp [unlocated, same]

theorem renders_exports {declaration : Stmt} {form : Form}
    (h : Renders (ofForm file) unlocated declaration form) (loc : Location) :
    Renders (ofForm file) unlocated (.exports declaration loc) (.tagged "export" [form]) := by
  have tag : StmtTag.ofName? "export" = some .exports := rfl
  exact h.tagged (isSymbol_keyword rfl) (fun position s => .exports s (position.inFile file))
    (fun item position => by simp [tag]) fun _ s same => by simp [unlocated, same]

theorem renders_var {kind : VarKind} {target : Pattern} {form : Form}
    (lexical : kind = .lexical ∨ kind = .var)
    (h : Renders (Pattern.ofForm file) Pattern.unlocated target form) (loc : Location) :
    Renders (ofForm file) unlocated (.var kind target none loc) (.tagged kind.keyword [form]) := by
  have symbol : Form.IsSymbol kind.keyword := by
    rcases lexical with rfl | rfl
    · exact isSymbol_keyword rfl
    · exact isSymbol_keyword rfl
  have tag : StmtTag.ofName? kind.keyword = some (.var kind) := by
    rcases lexical with rfl | rfl <;> rfl
  have other : kind ≠ .const := by
    rcases lexical with rfl | rfl <;> simp
  exact h.tagged symbol (fun position pattern => .var kind pattern none (position.inFile file))
    (fun item position => by simp [tag, other])
    fun _ pattern same => by simp [unlocated, same]

theorem renders_initialized {kind : VarKind} {target : Pattern} {init : Expr} {form e : Form}
    (known : kind = .const ∨ kind = .lexical ∨ kind = .var)
    (h : Renders (Pattern.ofForm file) Pattern.unlocated target form)
    (hi : Renders (Expr.ofForm file) Expr.unlocated init e) (loc : Location) :
    Renders (ofForm file) unlocated (.var kind target (some init) loc)
      (.tagged kind.keyword [form, e]) := by
  have symbol : Form.IsSymbol kind.keyword := by
    rcases known with rfl | rfl | rfl
    · exact isSymbol_keyword rfl
    · exact isSymbol_keyword rfl
    · exact isSymbol_keyword rfl
  -- unlike in the other pairs, the second form is read first
  refine renders_tagged symbol ⟨h.writable, hi.writable, trivial⟩ fun positions position => ?_
  obtain ⟨pattern, read, same⟩ := h.reads positions
  obtain ⟨value, readValue, sameValue⟩ := hi.reads (form.locate positions).2
  have tag : StmtTag.ofName? kind.keyword = some (.var kind) := by
    rcases known with rfl | rfl | rfl <;> rfl
  refine ⟨.var kind pattern (some value) (position.inFile file), ?_,
    by simp [unlocated, same, sameValue]⟩
  simp [Form.locateAll, tag, read, readValue, bind, Except.bind, pure, Except.pure]

theorem renders_body {stmts : List Stmt} {forms : List Form}
    (h : RendersAll (ofForms file) unlocatedAll stmts forms) :
    Renders (bodyOfForm file) unlocatedAll stmts (.tagged "body" forms) := by
  exact h.tagged (isSymbol_keyword rfl) (fun _ found => found)
    (fun items position => by simp [bodyOfForm]) fun _ _ same => same

/-- A function form whose parts can be read. -/
theorem ofForm_function {items : List Form} {signature : Signature Pattern Expr} {form : Form}
    {body : List Stmt} (finds : FunctionLayout.Finds file 0 items signature form)
    (read : bodyOfForm file form = .ok body) (name : String) (position : Position) :
    ofForm file (.list (.symbol "function" :: .symbol name :: items) position)
      = .ok (.function name signature body (position.inFile file)) := by
  have tag : StmtTag.ofName? "function" = some .function := rfl
  -- the body is not the first item, so there are enough of them
  have body_pos : 0 < (FunctionLayout.ofItems 0 items).body := by
    simp only [FunctionLayout.ofItems]
    split <;> split <;> omega
  have last := finds.last
  rcases items with _ | ⟨second, _ | ⟨third, more⟩⟩
  · simp at last
  · simp only [List.length_singleton] at last
    omega
  · simp only [ofForm, tag, Form.asSymbol, finds.params, finds.parts, finds.last, finds.block, read,
      bind, Except.bind, if_true, pure, Except.pure]

theorem renders_function {name : String} {signature : Signature Pattern Expr} {body : List Stmt}
    {params : List Form} {form : Form} (plain : IsPlainName name)
    (h : RendersAll (Param.ofForms file) Param.unlocatedAll signature.params params)
    (parts : Signature.PartsReadable signature.returnType signature.typeParams)
    (hb : Renders (bodyOfForm file) unlocatedAll body form) (head : form.head? ≠ some "returns")
    (loc : Location) :
    Renders (ofForm file) unlocated (.function name signature body loc)
      (.tagged "function" (.symbol name
        :: (Signature.forms params signature.returnType signature.typeParams ++ [form]))) := by
  refine renders_tagged (isSymbol_keyword rfl) ⟨plain.isSymbol, Form.allWritable_append
    (Signature.allWritable_forms h.writable parts) ⟨hb.writable, trivial⟩⟩
    fun positions position => ?_
  obtain ⟨found, bs, same, finds⟩ := Signature.reads_forms none h parts head positions
  obtain ⟨stmts, readBody, sameBody⟩ := hb.reads bs
  exact ⟨.function name found stmts (position.inFile file),
    ofForm_function finds readBody name position, by simp [same, sameBody]⟩

end Stmt

/-! ## Expressions -/

namespace Expr

theorem renders_require (module : String) :
    Renders (ofForm file) unlocated (.require module) (.tagged "require" [.text module]) :=
  renders_tagged (isSymbol_keyword rfl) ⟨trivial, trivial⟩ fun _ _ => ⟨.require module, rfl, rfl⟩

/-- A function form whose parts can be read; the first list among its items ends the name. -/
theorem ofForm_function {name : Option String} {generics others : List Form} {p : Position}
    {signature : Signature Pattern Expr} {form : Form} {body : List Stmt}
    (finds : FunctionLayout.Finds file name.toList.length
      (name.toList.map .symbol ++ .list generics p :: others) signature form)
    (read : Stmt.bodyOfForm file form = .ok body) (position : Position) :
    ofForm file (.list (.symbol "function-expr"
        :: (name.toList.map .symbol ++ .list generics p :: others)) position)
      = .ok (.function signature body name (position.inFile file)) := by
  have tag : ExprTag.ofName? "function-expr" = some .function := rfl
  obtain ⟨params, parts, -, block, -⟩ := finds
  cases name with
  | none =>
    simp_all [ofForm, bind, Except.bind, pure, Except.pure]
  | some name =>
    simp_all [ofForm, bind, Except.bind, pure, Except.pure]

theorem renders_function {name : Option String} {signature : Signature Pattern Expr}
    {body : List Stmt} {params : List Form} {form : Form} (plain : ∀ s ∈ name, IsPlainName s)
    (h : RendersAll (Param.ofForms file) Param.unlocatedAll signature.params params)
    (parts : Signature.PartsReadable signature.returnType signature.typeParams)
    (hb : Renders (Stmt.bodyOfForm file) Stmt.unlocatedAll body form)
    (head : form.head? ≠ some "returns") (loc : Location) :
    Renders (ofForm file) unlocated (.function signature body name loc)
      (.tagged "function-expr" (name.toList.map .symbol
        ++ (Signature.forms params signature.returnType signature.typeParams ++ [form]))) := by
  have names : Form.AllWritable (name.toList.map .symbol) :=
    Form.allWritable_symbols fun s mem => plain s (Option.mem_toList.1 mem)
  refine renders_tagged (isSymbol_keyword rfl) (Form.allWritable_append names
    (Form.allWritable_append (Signature.allWritable_forms h.writable parts) ⟨hb.writable, trivial⟩))
    fun positions position => ?_
  obtain ⟨found, bs, same, finds⟩ := Signature.reads_forms name h parts head positions
  obtain ⟨stmts, readBody, sameBody⟩ := hb.reads bs
  refine ⟨.function found stmts name (position.inFile file), ?_, by simp [same, sameBody]⟩
  obtain ⟨p, generics, others, items⟩ : ∃ p generics others, (Form.locateAll positions
      (name.toList.map .symbol ++ (Signature.forms params signature.returnType signature.typeParams
        ++ [form]))).1 = name.toList.map .symbol ++ .list generics p :: others := by
    cases name <;> exact ⟨_, _, _, rfl⟩
  rw [items] at finds ⊢
  exact ofForm_function finds readBody position

/-- An arrow form whose parts can be read. -/
theorem ofForm_arrow {items : List Form} {signature : Signature Pattern Expr} {form : Form}
    {body : Body Stmt Expr} (finds : FunctionLayout.Finds file 0 items signature form)
    (read : bodyAt file {} 0 [form] = .ok body) (position : Position) :
    ofForm file (.list (.symbol "arrow" :: items) position)
      = .ok (.arrow signature body (position.inFile file)) := by
  have tag : ExprTag.ofName? "arrow" = some .arrow := rfl
  simp only [ofForm, tag, finds.params, finds.parts, finds.value, read, bind, Except.bind, pure,
    Except.pure]

theorem renders_arrow {signature : Signature Pattern Expr} {body : Body Stmt Expr}
    {params : List Form} {form : Form}
    (h : RendersAll (Param.ofForms file) Param.unlocatedAll signature.params params)
    (parts : Signature.PartsReadable signature.returnType signature.typeParams)
    (hb : Renders (fun form => bodyAt file {} 0 [form]) unlocatedBody body form)
    (head : form.head? ≠ some "returns") (loc : Location) :
    Renders (ofForm file) unlocated (.arrow signature body loc)
      (.tagged "arrow"
        (Signature.forms params signature.returnType signature.typeParams ++ [form])) := by
  refine renders_tagged (isSymbol_keyword rfl)
    (Form.allWritable_append (Signature.allWritable_forms h.writable parts) ⟨hb.writable, trivial⟩)
    fun positions position => ?_
  obtain ⟨found, bs, same, finds⟩ := Signature.reads_forms none h parts head positions
  obtain ⟨value, readBody, sameBody⟩ := hb.reads bs
  exact ⟨.arrow found value (position.inFile file), ofForm_arrow finds readBody position,
    by simp [same, sameBody]⟩

theorem renders_block {stmts : List Stmt} {forms : List Form}
    (h : RendersAll (Stmt.ofForms file) Stmt.unlocatedAll stmts forms) :
    Renders (fun form => bodyAt file {} 0 [form]) unlocatedBody (.block stmts)
      (.tagged "body" forms) := by
  exact h.tagged (isSymbol_keyword rfl) (fun _ found => .block found)
    (fun items position => by simp [bodyAt]) fun _ found same => by simp [unlocatedBody, same]

theorem renders_value {value : Expr} {form : Form}
    (h : Renders (ofForm file) unlocated value form) (head : form.head? ≠ some "body") :
    Renders (fun form => bodyAt file {} 0 [form]) unlocatedBody (.expression value) form := by
  refine ⟨h.writable, fun positions => ?_⟩
  obtain ⟨found, read, same⟩ := h.reads positions
  refine ⟨.expression found, ?_, by simp [unlocatedBody, same]⟩
  rw [bodyAt]
  · simp [read, bind, Except.bind, pure, Except.pure]
  · intro stmts position tagged
    rw [← Form.head?_locate form positions, tagged] at head
    exact head rfl

/-- Neither the word for bodies nor that for results is in front of an expression. -/
theorem head?_toForm {value : Expr} (h : value.Readable) :
    value.toForm.head? ≠ some "body" ∧ value.toForm.head? ≠ some "returns" := by
  cases value with
  | call callee args =>
    obtain ⟨module, same⟩ := h
    rw [same]
    simp [require, toForm, Form.tagged]
  | function signature body name loc => simp [toForm, Form.tagged]
  | arrow signature body loc => simp [toForm, Form.tagged]
  | _ => simp [toForm, Form.head?]

theorem head?_bodyForm {body : Body Stmt Expr} (h : BodyReadable body) :
    (bodyForm body).head? ≠ some "returns" := by
  cases body with
  | block stmts => simp [bodyForm, Form.tagged]
  | expression value => exact (head?_toForm h).2

end Expr

end

end TypeGuard
