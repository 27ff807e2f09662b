import TypeGuard.Proofs.Descriptor.Encoding
import TypeGuard.Proofs.Script.Printed

/-!
# The passages of trees

The raw text of a tree, in the order in which it is printed, with its depth and with whether the
printer puts more than a semicolon behind it. A walk is told whether functions get checks: a checked
body with an annotated result stands in an inner function, one level further in, and the patterns of
the parameters are printed again in front of it. Lowering never looks into default values, so that
functions in them have no checks.

`Stmt.printsAll` says that whatever is printed keeps its passages.
-/

namespace TypeGuard

open Script

/-- The passages of a body in the place where it is printed: one level further in, or two with the
parameters of an inner function in between. -/
def Script.Passage.inBody (wrapped : Bool) (inner body : List Passage) : List Passage :=
  (if wrapped then inner ++ body.map (shift 1) else body).map (shift 1)

mutual

/-- The passages of a pattern, which are those of its default values. -/
def Pattern.passages : Bool → Pattern → List Passage
  | _, .ident _ | _, .stray _ => []
  | exposed, .default target value =>
    Pattern.passages true target ++ Expr.passages false exposed value
  | _, .object fields _ => Pattern.fieldPassages fields
  | _, .array elements _ => Pattern.elementPassages elements
termination_by structural _ p => p

def Pattern.fieldPassages : List (PatternField Pattern) → List Passage
  | [] => []
  | ⟨_, value⟩ :: fields => Pattern.passages true value ++ Pattern.fieldPassages fields
termination_by structural fields => fields

def Pattern.elementPassages : List (Option Pattern) → List Passage
  | [] => []
  | none :: elements => Pattern.elementPassages elements
  | some element :: elements => Pattern.passages true element ++ Pattern.elementPassages elements
termination_by structural elements => elements

/-- The passages of a parameter. The default of a rest parameter is not printed. -/
def Param.passages : Param Pattern Expr → List Passage
  | ⟨binding, _, _, none, _⟩ => Pattern.passages true binding
  | ⟨binding, _, _, some value, rest⟩ =>
    Pattern.passages true binding ++ if rest then [] else Expr.passages false true value
termination_by structural param => param

def Param.allPassages : List (Param Pattern Expr) → List Passage
  | [] => []
  | param :: params => Param.passages param ++ Param.allPassages params
termination_by structural params => params

/-- The passages of the patterns alone. -/
def Param.bindingPassages : List (Param Pattern Expr) → List Passage
  | [] => []
  | ⟨binding, _, _, _, _⟩ :: params => Pattern.passages true binding ++ Param.bindingPassages params
termination_by structural params => params

/-- The passages of an expression. Of calls, only a function that a member is called of is looked
into: no other call that is read or made holds raw text. -/
def Expr.passages : Bool → Bool → Expr → List Passage
  | _, exposed, .raw text => [{ text := text.toList, exposed }]
  | _, _, .call (.member inner _) _ =>
    if needsParens inner then Expr.passages false true inner else []
  | checked, _, .function ⟨params, returnType, _⟩ body _ _ =>
    Param.allPassages params ++
      Passage.inBody (checked && returnType.isSome) (Param.bindingPassages params)
        (Stmt.allPassages checked body)
  | checked, exposed, .arrow ⟨params, returnType, _⟩ body _ =>
    Param.allPassages params ++
      Expr.bodyPassages checked exposed returnType.isSome (Param.bindingPassages params) body
  | _, _, _ => []
termination_by structural _ _ e => e

/-- The passages of the body of an arrow function. A checked body is a block that returns the
value. -/
def Expr.bodyPassages (checked exposed typed : Bool) (inner : List Passage) :
    Body Stmt Expr → List Passage
  | .block stmts => Passage.inBody (checked && typed) inner (Stmt.allPassages checked stmts)
  | .expression value =>
    if checked then Passage.inBody typed inner (Expr.passages checked false value)
    else Expr.passages checked exposed value
termination_by structural body => body

/-- The passages of a statement: of raw text, only the last line, if a comment may end it. -/
def Stmt.passages (checked : Bool) : Stmt → List Passage
  | .block body => (Stmt.allPassages checked body).map (Passage.shift 1)
  | .ret (some argument) => Expr.passages checked false argument
  | .raw text => Passage.ofComment (trimLines text).toList
  | .var _ target none _ => Pattern.passages false target
  | .var _ target (some init) _ =>
    Pattern.passages true target ++ Expr.passages checked false init
  | .function _ ⟨params, returnType, _⟩ body _ =>
    Param.allPassages params ++
      Passage.inBody (checked && returnType.isSome) (Param.bindingPassages params)
        (Stmt.allPassages checked body)
  | .exports declaration _ => Stmt.passages checked declaration
  | _ => []
termination_by structural s => s

def Stmt.allPassages (checked : Bool) : List Stmt → List Passage
  | [] => []
  | s :: ss => Stmt.passages checked s ++ Stmt.allPassages checked ss
termination_by structural ss => ss

end

/-! ## Printed trees -/

/-- However a field is written, its pattern stands at the end. -/
theorem Script.printFields_cons {unit key : String} {value : Pattern}
    {fields : List (PatternField Pattern)} {ts : List String}
    (h : printFields unit (⟨key, value⟩ :: fields) = .ok ts) :
    ∃ made t rest, printPattern unit value = .ok t ∧ printFields unit fields = .ok rest ∧
      ts = (made ++ t) :: rest := by
  have shorthand (name text : String) : ∃ made : String,
      (if name = key then key else propertyKey key ++ ": " ++ name) ++ text
        = made ++ (name ++ text) := by
    split
    next same => exact ⟨"", by simp [same]⟩
    next => exact ⟨propertyKey key ++ ": ", by simp [String.append_assoc]⟩
  cases value with
  | ident name =>
    simp only [printFields, bind_eq_ok_iff, pure_eq_ok_iff] at h
    obtain ⟨rest, hrest, rfl⟩ := h
    obtain ⟨made, text⟩ := shorthand name ""
    rw [String.append_empty, String.append_empty] at text
    exact ⟨made, name, rest, rfl, hrest, by rw [text]⟩
  | default target v =>
    cases target with
    | ident name =>
      simp only [printFields, bind_eq_ok_iff, pure_eq_ok_iff] at h
      obtain ⟨t, ht, rest, hrest, rfl⟩ := h
      obtain ⟨made, text⟩ := shorthand name (" = " ++ t)
      refine ⟨made, name ++ " = " ++ t, rest, ?_, hrest, ?_⟩
      · rw [printPattern, ht]
        rfl
      · rw [String.append_assoc, text, String.append_assoc]
    | object | array | default | stray =>
      simp only [printFields, bind_eq_ok_iff, pure_eq_ok_iff] at h
      obtain ⟨t, ht, rest, hrest, rfl⟩ := h
      exact ⟨propertyKey key ++ ": ", t, rest, ht, hrest, rfl⟩
  | object | array | stray =>
    simp only [printFields, bind_eq_ok_iff, pure_eq_ok_iff] at h
    obtain ⟨t, ht, rest, hrest, rfl⟩ := h
    exact ⟨propertyKey key ++ ": ", t, rest, ht, hrest, rfl⟩

theorem Script.separates_equals : Separates " = ".toList :=
  separates_line (by decide)

/-- Texts in brackets. -/
theorem Script.CarriesAll.enclosed {unit : String} {ts : List String} {ps : List Passage}
    (h : CarriesAll unit ts ps) {l r : List Char} (line : '\n' ∉ l)
    (visible : l.all Text.isBlank = false) (sep : Separates r) :
    Leads unit (l ++ ((Script.commas ts).toList ++ r)) fun _ => ps := by
  have inside := h.commas (carries_made r) sep
  simp only [List.append_nil] at inside
  exact (inside.literal line).leads line visible

section
variable {unit : String}

mutual

theorem Pattern.leads (indents : Indents unit) : ∀ (p : Pattern) {s : String},
    printPattern unit p = .ok s → Leads unit s.toList fun exposed => p.passages exposed
  | .ident name, _, h => by
    cases h
    exact leads_made _
  | .default target value, _, h => by
    simp only [printPattern, bind_eq_ok_iff, pure_eq_ok_iff] at h
    obtain ⟨t, ht, v, hv, rfl⟩ := h
    have whole := (Pattern.leads indents target ht).append
      ((Expr.carries indents value hv).literal (a := " = ".toList) (by decide))
      (separates_equals.append _)
    simpa [Pattern.passages] using whole
  | .object fields rest, _, h => by
    simp only [printPattern, bind_eq_ok_iff, pure_eq_ok_iff] at h
    obtain ⟨ts, hts, rfl⟩ := h
    have parts := (Pattern.carries_fields indents fields hts).append (carriesAll_restPart rest)
    have close : Separates "\x7d".toList := separates_line (by decide)
    simpa [Pattern.passages, inBraces, openBrace, closeBrace]
      using parts.enclosed (l := "\x7b".toList) (by decide) (by decide) close
  | .array elements rest, _, h => by
    simp only [printPattern, bind_eq_ok_iff, pure_eq_ok_iff] at h
    obtain ⟨ts, hts, rfl⟩ := h
    have parts := (Pattern.carries_elements indents elements hts).append (carriesAll_restPart rest)
    have close : Separates "]".toList := separates_line (by decide)
    simpa [Pattern.passages]
      using parts.enclosed (l := "[".toList) (by decide) (by decide) close
  | .stray _, _, h => by simp [printPattern] at h
termination_by structural p => p

theorem Pattern.carries_fields (indents : Indents unit) :
    ∀ (fields : List (PatternField Pattern)) {ts : List String},
    printFields unit fields = .ok ts → CarriesAll unit ts (Pattern.fieldPassages fields)
  | [], _, h => by
    cases h
    exact .nil
  | ⟨_, value⟩ :: fields, _, h => by
    obtain ⟨made, t, ts, ht, hts, rfl⟩ := printFields_cons h
    have first := ((Pattern.leads indents value ht).behind made.toList).carries
    rw [← String.toList_append] at first
    exact .cons first (Pattern.carries_fields indents fields hts)
termination_by structural fields => fields

theorem Pattern.carries_elements (indents : Indents unit) :
    ∀ (elements : List (Option Pattern)) {ts : List String},
    printElements unit elements = .ok ts → CarriesAll unit ts (Pattern.elementPassages elements)
  | [], _, h => by
    cases h
    exact .nil
  | none :: elements, _, h => by
    simp only [printElements, bind_eq_ok_iff, pure_eq_ok_iff] at h
    obtain ⟨ts, hts, rfl⟩ := h
    exact .cons (carries_made _) (Pattern.carries_elements indents elements hts)
  | some element :: elements, _, h => by
    simp only [printElements, bind_eq_ok_iff, pure_eq_ok_iff] at h
    obtain ⟨t, ht, ts, hts, rfl⟩ := h
    exact .cons (Pattern.leads indents element ht).carries
      (Pattern.carries_elements indents elements hts)
termination_by structural elements => elements

theorem Param.carries (indents : Indents unit) :
    ∀ (params : List (Param Pattern Expr)) {ts : List String},
    printParams unit params = .ok ts → CarriesAll unit ts (Param.allPassages params)
  | [], _, h => by
    cases h
    exact .nil
  | ⟨binding, _, _, none, false⟩ :: params, _, h => by
    simp only [printParams, printParam, bind_eq_ok_iff, pure_eq_ok_iff] at h
    obtain ⟨t, ht, ts, hts, rfl⟩ := h
    exact .cons (Pattern.leads indents binding ht).carries (Param.carries indents params hts)
  | ⟨binding, _, _, none, true⟩ :: params, _, h => by
    simp only [printParams, printParam, bind_eq_ok_iff, pure_eq_ok_iff] at h
    obtain ⟨_, ⟨t, ht, rfl⟩, ts, hts, rfl⟩ := h
    have first := ((Pattern.leads indents binding ht).behind "...".toList).carries
    rw [← String.toList_append] at first
    exact .cons first (Param.carries indents params hts)
  | ⟨binding, _, _, some _, true⟩ :: params, _, h => by
    simp only [printParams, printParam, bind_eq_ok_iff, pure_eq_ok_iff] at h
    obtain ⟨_, ⟨t, ht, rfl⟩, ts, hts, rfl⟩ := h
    have first := ((Pattern.leads indents binding ht).behind "...".toList).carries
    rw [← String.toList_append] at first
    simpa [Param.allPassages, Param.passages] using .cons first (Param.carries indents params hts)
  | ⟨binding, _, _, some value, false⟩ :: params, _, h => by
    simp only [printParams, printParam, bind_eq_ok_iff, pure_eq_ok_iff] at h
    obtain ⟨_, ⟨t, ht, v, hv, rfl⟩, ts, hts, rfl⟩ := h
    have first := (Pattern.leads indents binding ht).carries.append
      ((Expr.carries indents value hv).literal (a := " = ".toList) (by decide))
      (separates_equals.append _)
    rw [← List.append_assoc, ← String.toList_append, ← String.toList_append] at first
    exact .cons first (Param.carries indents params hts)
termination_by structural params => params

theorem Expr.carries (indents : Indents unit) : ∀ (e : Expr) {s : String},
    printExpr unit e = .ok s → Carries unit s.toList fun exposed => e.passages false exposed
  | .raw text, _, h => by
    cases h
    exact carries_raw _
  | .function ⟨params, _, _⟩ body name _, _, h => by
    simp only [printExpr, bind_eq_ok_iff, pure_eq_ok_iff] at h
    obtain ⟨ts, hts, out, hout, rfl⟩ := h
    have header := (Param.carries indents params hts).header ("function " ++ name.getD "") ")"
      (separates_line (by decide))
    simpa [Expr.passages, Passage.inBody] using
      header.braced indents (Stmt.printsAll indents body hout) (fun empty => empty ▸ rfl) hout
  | .arrow ⟨params, _, _⟩ (.block stmts) _, _, h => by
    simp only [printExpr, bind_eq_ok_iff, pure_eq_ok_iff] at h
    obtain ⟨ts, hts, out, hout, rfl⟩ := h
    have header := (Param.carries indents params hts).header "" ") =>" (separates_line (by decide))
    rw [String.empty_append] at header
    simpa [Expr.passages, Expr.bodyPassages, Passage.inBody] using
      header.braced indents (Stmt.printsAll indents stmts hout) (fun empty => empty ▸ rfl) hout
  | .arrow ⟨params, _, _⟩ (.expression value) _, _, h => by
    simp only [printExpr, bind_eq_ok_iff, pure_eq_ok_iff] at h
    obtain ⟨ts, hts, v, hv, rfl⟩ := h
    have close : Separates ") => ".toList := separates_line (by decide)
    have body := (Expr.carries indents value hv).literal (a := ") => ".toList) (by decide)
    have whole := ((Param.carries indents params hts).commas body (close.append _)).literal
      (a := "(".toList) (by decide)
    simpa [Expr.passages, Expr.bodyPassages] using whole
  | .call (.member inner prop) args, _, h => by
    simp only [printExpr, bind_eq_ok_iff, pure_eq_ok_iff] at h
    obtain ⟨as, -, _, ⟨t, ht, rfl⟩, rfl⟩ := h
    cases parens : needsParens inner with
    | false =>
      simp only [Expr.passages, parens]
      exact carries_made _
    | true =>
      have close : Separates ")".toList := separates_line (by decide)
      have called := (Expr.carries indents inner ht).append
        (carries_made (")".toList ++ ("." ++ prop ++ "(" ++ commas as ++ ")").toList))
        (close.append _)
      have plain : needsParens (.member inner prop) = false := rfl
      simpa [Expr.passages, parens, plain] using called.literal (a := "(".toList) (by decide)
  | .call (.raw _) _, _, _ | .call (.ident _) _, _, _ | .call .this _, _, _
  | .call (.call _ _) _, _, _ | .call (.string _) _, _, _ | .call (.number _) _, _, _
  | .call (.array _) _, _, _ | .call (.object _) _, _, _ | .call (.spread _) _, _, _
  | .call (.binary _ _ _) _, _, _ | .call (.function _ _ _ _) _, _, _
  | .call (.arrow _ _ _) _, _, _ | .call (.stray _) _, _, _ => carries_made _
  | .ident _, _, _ | .this, _, _ | .member _ _, _, _ | .string _, _, _ | .number _, _, _
  | .array _, _, _ | .object _, _, _ | .spread _, _, _ | .binary _ _ _, _, _ | .stray _, _, _ =>
    carries_made _
termination_by structural e => e

theorem Stmt.prints (indents : Indents unit) : ∀ (s : Stmt) {l out : Layout},
    printStmt unit s l = .ok out → Prints unit (printStmt unit s) (s.passages false)
  | .block body, _, _, h => by
    simp only [printStmt, Layout.block, bind_eq_ok_iff] at h
    obtain ⟨_, run, -⟩ := h
    have opening : Separates "\x7b".toList := separates_line (by decide)
    exact (carries_made []).printsBlock (by simp [openBrace]) (by decide) opening
      (shown_cons (by decide) []) indents (Stmt.printsAll indents body run)
  | .ret none, _, _, _ => prints_made _
  | .ret (some argument), _, _, h => by
    simp only [printStmt, bind_eq_ok_iff, pure_eq_ok_iff] at h
    obtain ⟨v, hv, rfl⟩ := h
    have value := (Expr.carries indents argument hv).literal (a := "return ".toList) (by decide)
    exact .bind hv ((value.leads (by decide) (by decide)).prints [] (by simp))
  | .expr expression, _, _, h => by
    simp only [printStmt, bind_eq_ok_iff, pure_eq_ok_iff] at h
    obtain ⟨v, hv, rfl⟩ := h
    exact .bind hv (prints_made _)
  | .raw text, _, _, _ => prints_raw _
  | .var kind target none _, _, _, h => by
    simp only [printStmt, bind_eq_ok_iff, pure_eq_ok_iff] at h
    obtain ⟨t, ht, rfl⟩ := h
    exact .bind ht ((Pattern.leads indents target ht).prints (kind.keyword ++ " ").toList (by simp))
  | .var kind target (some init) _, _, _, h => by
    simp only [printStmt, bind_eq_ok_iff, pure_eq_ok_iff] at h
    obtain ⟨t, ht, v, hv, rfl⟩ := h
    have whole := (Pattern.leads indents target ht).append
      ((Expr.carries indents init hv).literal (a := " = ".toList) (by decide))
      (separates_equals.append _)
    exact .bind ht (.bind hv (whole.prints (kind.keyword ++ " ").toList (by simp)))
  | .function name ⟨params, _, _⟩ body _, _, _, h => by
    simp only [printStmt, Layout.block, bind_eq_ok_iff] at h
    obtain ⟨ts, hts, _, run, -⟩ := h
    have opening : Separates " \x7b".toList := separates_line (by decide)
    have header := (Param.carries indents params hts).header ("function " ++ name) ")"
      (separates_line (by decide))
    have shown : Shown ("function " ++ name ++ "(" ++ commas ts ++ ") " ++ openBrace).toList := by
      simpa using shown_cons (by decide) _
    exact .bind hts (header.printsBlock (by simp [openBrace]) (by decide) opening shown indents
      (Stmt.printsAll indents body run))
  | .imports _, _, _, _ => prints_made _
  | .exports declaration loc, _, _, h => by
    simp only [printStmt, bind_eq_ok_iff, pure_eq_ok_iff] at h
    obtain ⟨inner, run, rfl⟩ := h
    exact .bind run ((Stmt.prints indents declaration run).exports run)
  | .typeAlias _, _, _, h | .interface _, _, _, h | .stray _, _, _, h => by simp [printStmt] at h
termination_by structural s => s

theorem Stmt.printsAll (indents : Indents unit) : ∀ (ss : List Stmt) {l out : Layout},
    printStmts unit ss l = .ok out → PrintsAll unit (printStmts unit ss) (Stmt.allPassages false ss)
  | [], _, _, _ => printsAll_nothing
  | s :: ss, _, _, h => by
    simp only [printStmts, bind_eq_ok_iff] at h
    obtain ⟨mid, first, others⟩ := h
    exact (Stmt.prints indents s first).cons (Stmt.printsAll indents ss others)
termination_by structural ss => ss

end

end

end TypeGuard
