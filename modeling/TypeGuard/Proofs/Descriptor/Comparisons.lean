import TypeGuard.Compile
import TypeGuard.Proofs.Script.Numerals
import TypeGuard.Proofs.Script.Reading

/-!
# Comparisons with numbers

A numeral in the place of an annotation stands for the numbers that are equal to one value. Its
validator is a refinement of the numbers by a function that compares its argument with the written
value, and that text is a numeric literal exactly if the value is finite.
-/

namespace TypeGuard

namespace Script

/-! ## The refinement -/

/-- The text of an expression in front of a member access or a call. -/
def operandText (e : Expr) (text : String) : String :=
  if needsParens e then "(" ++ text ++ ")" else text

/-- The refinement of the numbers by the comparison with a text. -/
def refinementText (library value : String) (name : Option String) : String :=
  library ++ ".refinement(" ++ library ++ ".Number, function (n) "
    ++ inBraces (" return n === " ++ value ++ "; ")
    ++ (name.elim "" fun name => ", " ++ stringLiteral name) ++ ")"

/-- The validator of a numeric literal is written as such a refinement. -/
theorem printExpr_lower_literal {unit text : String} {library : Expr}
    (printed : printExpr unit library = .ok text) (n : Number) (name : Option String) :
    printExpr unit ((Descriptor.literal n name).lower library)
      = .ok (refinementText (operandText library text) n.render name) := by
  have member (prop : String) :
      printExpr unit (.member library prop) = .ok (operandText library text ++ "." ++ prop) := by
    rw [printExpr, printed]
    rfl
  have names : printExprs unit (name.toList.map .string)
      = .ok (name.toList.map stringLiteral) := by
    cases name <;> rfl
  have args : printExprs unit
      ([.member library Irreducible.number.name, Descriptor.equalsPredicate n]
        ++ name.toList.map .string)
      = .ok ((operandText library text ++ "." ++ Irreducible.number.name)
        :: ("function (n) " ++ inBraces (" return n === " ++ n.render ++ "; "))
        :: name.toList.map stringLiteral) := by
    simp only [List.cons_append, List.nil_append, printExprs, member,
      printExpr_equalsPredicate, names, bind, Except.bind, pure, Except.pure]
  rw [Descriptor.lower, Descriptor.combine, printExpr, args]
  simp only [List.foldl, member, needsParens, bind, Except.bind, pure, Except.pure]
  generalize operandText library text = front
  generalize n.render = value
  apply congrArg Except.ok
  apply String.toList_injective
  have number : Irreducible.number.name = "Number" := rfl
  cases name <;>
    simp [refinementText, commas, number, String.intercalate_cons_cons,
      String.intercalate_singleton]

end Script

open Script

/-! ## Annotations -/

/-- A numeral is an annotation whose validator compares with the number that it was read as. The
text that stands in the comparison is a numeric literal, and no identifier, exactly if the number is
finite; otherwise it is a name, with or without a minus sign in front. -/
theorem numeral_comparison {atom : List Char} {n : Number} (read : Form.ofAtom atom = .number n)
    {unit text : String} {library : Expr} (printed : printExpr unit library = .ok text)
    (file : String) (scope : Scope) (name : Option String) :
    ∃ type d, Ty.ofForm file (Form.ofAtom atom) = .ok type ∧
      type.descriptor scope name = .ok d ∧
      printExpr unit (d.lower library)
        = .ok (refinementText (operandText library text) n.render name) ∧
      (SignedLiteral n.render.toList ∧ ¬ IsIdentifier n.render.toList ↔ n.isFinite = true) ∧
      (n.isFinite = false → ∃ sign identifier, n.render.toList = sign ++ identifier ∧
        sign ∈ [[], ['-']] ∧ IsIdentifier identifier) := by
  refine ⟨.number n .unknown, .literal n name, ?_, rfl, printExpr_lower_literal printed n name, ?_,
    Number.exists_name_of_not_isFinite⟩
  · rw [read]
    rfl
  · rw [Number.signedLiteral_render_iff]
    exact ⟨And.left, fun finite =>
      ⟨finite, (Number.signedLiteral_of_isFinite finite).not_isIdentifier⟩⟩

/-- A negative number with a low line among its digits and an exponent. -/
theorem groupedNumeral_comparison :
    (Form.ofAtom "-12_5e18".toList = .number (.float (.finite true 7629394531250000 14)) ∧
      printExpr "  " (.ident "t") = .ok "t") ∧
    ∃ type d, Ty.ofForm "m.js" (Form.ofAtom "-12_5e18".toList) = .ok type ∧
      type.descriptor [["T"]] (some "Far") = .ok d ∧
      printExpr "  " (d.lower (.ident "t"))
        = .ok (refinementText (operandText (.ident "t") "t")
          (Number.float (.finite true 7629394531250000 14)).render (some "Far")) ∧
      (SignedLiteral (Number.float (.finite true 7629394531250000 14)).render.toList ∧
          ¬ IsIdentifier (Number.float (.finite true 7629394531250000 14)).render.toList
        ↔ (Number.float (.finite true 7629394531250000 14)).isFinite = true) ∧
      ((Number.float (.finite true 7629394531250000 14)).isFinite = false → ∃ sign identifier,
        (Number.float (.finite true 7629394531250000 14)).render.toList = sign ++ identifier ∧
        sign ∈ [[], ['-']] ∧ IsIdentifier identifier) := by
  have read : Form.ofAtom "-12_5e18".toList
      = .number (.float (.finite true 7629394531250000 14)) := by
    have number : Numeral.read? "-12_5e18".toList
        = some (.float (.finite true 7629394531250000 14)) := by decide +kernel
    rw [Form.ofAtom, number]
  exact ⟨⟨read, rfl⟩, numeral_comparison read rfl "m.js" [["T"]] (some "Far")⟩

/-- A numeral beyond the largest finite value is compared with by the name of infinity. -/
theorem overflowing_numeral_comparison :
    (compile { skipHelpers := true } "m.js" "(program (type A 1e999))").result.toOption
      = some ("const A = " ++ refinementText "require(\"tcomb\")" "inf" (some "A") ++ ";\n") ∧
    IsIdentifier "inf".toList ∧ ¬ SignedLiteral "inf".toList := by
  have name : IsIdentifier "inf".toList :=
    (isIdentifierKey_iff (by decide)).1 (by decide)
  exact ⟨by decide +kernel, name, fun literal => literal.not_isIdentifier name⟩

end TypeGuard
