import CondSat.Proofs.BuiltTerms

/-! # Values of formulas

A formula that has a value has one of its sort.  The value depends only on the
values of the constants of the formula, and not on which pattern stands for a NaN:
formulas compare numbers, never patterns. -/
set_option autoImplicit false
namespace CondSat

/-! ## Numbers up to the choice of a NaN -/

namespace Ieee.Format

def Alike (f : Format) (p q : Nat) : Prop := p = q ∨ (f.isNaN p = true ∧ f.isNaN q = true)

variable {f : Format} {p q r s : Nat}

theorem Alike.neg (first : f.Alike p q) : f.neg p = f.neg q := by
  rcases first with rfl | ⟨left, right⟩
  · rfl
  · simp [Format.neg, left, right]

theorem Alike.add (first : f.Alike p q) (second : f.Alike r s) (mode : RoundingMode) :
    f.add mode p r = f.add mode q s := by
  rcases first with rfl | ⟨left, right⟩
  · rcases second with rfl | ⟨left, right⟩
    · rfl
    · simp [Format.add, left, right]
  · simp [Format.add, left, right]

theorem Alike.sub (first : f.Alike p q) (second : f.Alike r s) (mode : RoundingMode) :
    f.sub mode p r = f.sub mode q s := by
  rw [Format.sub, Format.sub, second.neg]
  exact first.add (Or.inl rfl) mode

theorem Alike.mul (first : f.Alike p q) (second : f.Alike r s) (mode : RoundingMode) :
    f.mul mode p r = f.mul mode q s := by
  rcases first with rfl | ⟨left, right⟩
  · rcases second with rfl | ⟨left, right⟩
    · rfl
    · simp [Format.mul, left, right]
  · simp [Format.mul, left, right]

theorem Alike.div (first : f.Alike p q) (second : f.Alike r s) (mode : RoundingMode) :
    f.div mode p r = f.div mode q s := by
  rcases first with rfl | ⟨left, right⟩
  · rcases second with rfl | ⟨left, right⟩
    · rfl
    · simp [Format.div, left, right]
  · simp [Format.div, left, right]

theorem Alike.rem (first : f.Alike p q) (second : f.Alike r s) : f.rem p r = f.rem q s := by
  rcases first with rfl | ⟨left, right⟩
  · rcases second with rfl | ⟨left, right⟩
    · rfl
    · simp [Format.rem, left, right]
  · simp [Format.rem, left, right]

theorem Alike.arithmetic (op : Source.Arithmetic) (first : f.Alike p q) (second : f.Alike r s)
    (mode : RoundingMode) : op.onFloats f mode p r = op.onFloats f mode q s := by
  cases op with
  | plus => exact first.add second mode
  | minus => exact first.sub second mode
  | times => exact first.mul second mode
  | divide => exact first.div second mode
  | remainder => exact first.rem second

theorem Alike.comparison (op : Source.Comparison) (first : f.Alike p q) (second : f.Alike r s) :
    op.onFloats f p r = op.onFloats f q s := by
  rcases first with rfl | ⟨left, right⟩
  · rcases second with rfl | ⟨left, right⟩
    · rfl
    · simp [Source.Comparison.onFloats, left, right]
  · simp [Source.Comparison.onFloats, left, right]

end Ieee.Format

namespace Solver.Value

open Ieee (Format)

/-- Two values that differ at most in the pattern of a NaN. -/
inductive Like : Value → Value → Prop
  | same (x : Value) : Like x x
  | float (format : Format) (p q : BitVec format.width)
      (alike : format.Alike p.toNat q.toNat) : Like (.float format p) (.float format q)

theorem Like.sort {x y : Value} (like : x.Like y) : x.sort = y.sort := by
  cases like <;> rfl

theorem Like.eq {x y : Value} (like : x.Like y) (discrete : ∀ format, x.sort ≠ .float format) :
    x = y := by
  cases like with
  | same => rfl
  | float format p q alike => exact absurd rfl (discrete format)

end Solver.Value

namespace Analysis

open Ieee (Format RoundingMode)
open Solver (Assignment Term Value ValueSort)
open Source

theorem unaryValue?_like {x y : Value} (tag : Tag) (like : x.Like y) {z : Value}
    (value : unaryValue? tag x = some z) : ∃ other, unaryValue? tag y = some other ∧ z.Like other := by
  cases like with
  | same => exact ⟨z, value, .same z⟩
  | float format p q alike =>
      cases tag <;> cases value
      · exact ⟨_, rfl, by rw [alike.neg]; exact .same _⟩
      · exact ⟨_, rfl, .float format p q alike⟩

theorem binaryValue?_like_left {x x' : Value} (mode : RoundingMode) (tag : Tag)
    (like : x.Like x') (y : Value) : binaryValue? mode tag x y = binaryValue? mode tag x' y := by
  cases like with
  | same => rfl
  | float f p q alike =>
      cases tag with
      | floatComparison op type | floatArithmetic op type =>
          cases y with
          | float g r =>
              by_cases fitting : f = g ∧ f.width = type.width
              · simp only [binaryValue?, Value.patterns?, if_pos fitting, Option.bind_eq_bind,
                  Option.bind_some]
                first
                | rw [alike.comparison op (Or.inl rfl)]
                | rw [alike.arithmetic op (Or.inl rfl)]
              · simp only [binaryValue?, Value.patterns?, if_neg fitting, Option.bind_eq_bind,
                  Option.bind_none]
          | bool _ | bits _ _ | mode _ => rfl
      | connective _ | comparison _ _ | arithmetic _ _ | bitwise _ _ | shift _ _ | enumEqual
      | enumUnequal | complement _ | negation | minus _ | floatMinus _ | plus _ | floatPlus _
      | unmodelled _ => rfl

theorem binaryValue?_like_right {y y' : Value} (mode : RoundingMode) (tag : Tag) (x : Value)
    (like : y.Like y') : binaryValue? mode tag x y = binaryValue? mode tag x y' := by
  cases like with
  | same => rfl
  | float g p q alike =>
      cases tag with
      | floatComparison op type | floatArithmetic op type =>
          cases x with
          | float f r =>
              by_cases fitting : f = g ∧ f.width = type.width
              · obtain ⟨rfl, wide⟩ := fitting
                simp only [binaryValue?, Value.patterns?, wide, and_self, if_true,
                  Option.bind_eq_bind, Option.bind_some]
                first
                | rw [Format.Alike.comparison op (Or.inl rfl) alike]
                | rw [Format.Alike.arithmetic op (Or.inl rfl) alike]
              · simp only [binaryValue?, Value.patterns?, if_neg fitting, Option.bind_eq_bind,
                  Option.bind_none]
          | bool _ | bits _ _ | mode _ => rfl
      | comparison _ type | arithmetic _ type | bitwise _ type | shift _ type =>
          simp only [binaryValue?]
          cases x.word? type.width <;> rfl
      | connective _ | enumEqual | enumUnequal => cases x <;> rfl
      | complement _ | negation | minus _ | floatMinus _ | plus _ | floatPlus _
      | unmodelled _ => rfl

/-! ## Operands of terms that have a value -/

theorem UnaryCase.sort {operand term : TypedTerm} {tag : Tag} (case : UnaryCase operand tag term) :
    unarySort? tag operand.sort = some term.sort := by
  cases case <;> simp [unarySort?, *]

theorem BinaryCase.sort {left right term : TypedTerm} {tag : Tag}
    (case : BinaryCase left right tag term) :
    binarySort? tag left.sort right.sort = some term.sort := by
  cases case <;> simp [binarySort?, *]

theorem UnaryCase.operand {operand term : TypedTerm} {tag : Tag} {assign : Assignment} {z : Value}
    (case : UnaryCase operand tag term) (evaluated : term.term.eval assign = some z) :
    ∃ x, operand.term.eval assign = some x := by
  cases value : operand.term.eval assign with
  | some x => exact ⟨x, rfl⟩
  | none => cases case <;> simp [Term.eval, value] at evaluated

theorem BinaryCase.operands {left right term : TypedTerm} {tag : Tag} {assign : Assignment}
    {z : Value} (case : BinaryCase left right tag term)
    (evaluated : term.term.eval assign = some z) :
    (∃ x, left.term.eval assign = some x) ∧ (∃ y, right.term.eval assign = some y) := by
  constructor
  · cases value : left.term.eval assign with
    | some x => exact ⟨x, rfl⟩
    | none =>
        cases case with
        | connective op => cases op <;> simp [connectiveTerm, Term.eval, value] at evaluated
        | comparison op type => cases op <;> simp [comparisonTerm, Term.eval, value] at evaluated
        | floatComparison op type =>
            cases op <;> simp [floatComparisonTerm, Term.eval, value] at evaluated
        | floatArithmetic op type =>
            cases op <;> simp [floatArithmeticTerm, Term.eval, value] at evaluated
        | enumEqual | enumUnequal | arithmetic | bitwise | shift =>
            simp [Term.eval, value] at evaluated
  · cases value : right.term.eval assign with
    | some y => exact ⟨y, rfl⟩
    | none =>
        cases case with
        | connective op => cases op <;> simp [connectiveTerm, Term.eval, value] at evaluated
        | comparison op type => cases op <;> simp [comparisonTerm, Term.eval, value] at evaluated
        | floatComparison op type =>
            cases op <;> simp [floatComparisonTerm, Term.eval, value] at evaluated
        | floatArithmetic op type =>
            cases op <;> simp [floatArithmeticTerm, Term.eval, value] at evaluated
        | enumEqual | enumUnequal | arithmetic | bitwise =>
            simp [Term.eval, value] at evaluated
        | shift op type =>
            cases type <;>
              simp [countTerm, Term.eval, value, IntegerType.width, countWidth] at evaluated

theorem BinaryCase.rounded {left right term : TypedTerm} {tag : Tag} {assign : Assignment}
    {z : Value} (case : BinaryCase left right tag term)
    (evaluated : term.term.eval assign = some z) (needed : rounds tag = true) :
    ∃ mode, roundingMode.term.eval assign = some (.mode mode) := by
  cases case with
  | floatArithmetic op type =>
      cases value : roundingMode.term.eval assign with
      | none => cases op <;> simp [floatArithmeticTerm, Term.eval, value, rounds] at evaluated needed
      | some m =>
          have sorted : m.sort = .roundingMode := by
            have kept := (Option.filter_eq_some_iff.mp value).2
            simpa using kept
          cases m with
          | mode mode => exact ⟨mode, rfl⟩
          | bool _ | bits _ _ | float _ _ => cases sorted
  | connective | comparison | enumEqual | enumUnequal | arithmetic | bitwise | shift
  | floatComparison => cases needed

theorem roundingMode_assigned {assign : Assignment} {mode : RoundingMode}
    (evaluated : roundingMode.term.eval assign = some (.mode mode)) :
    assign roundingModeName .roundingMode = some (.mode mode) :=
  (Option.filter_eq_some_iff.mp evaluated).1

/-- A binary term with a value has the value of its operator, under the mode of
the assignment where the operator rounds. -/
theorem BinaryCase.value {left right term : TypedTerm} {tag : Tag} {assign : Assignment}
    {x y z : Value} (case : BinaryCase left right tag term)
    (evaluated : term.term.eval assign = some z)
    (first : left.term.eval assign = some x) (leftSort : x.sort = left.sort)
    (second : right.term.eval assign = some y) (rightSort : y.sort = right.sort) :
    ∃ mode, (rounds tag = true → roundingMode.term.eval assign = some (.mode mode)) ∧
      binaryValue? mode tag x y = some z := by
  cases needed : rounds tag with
  | false =>
      refine ⟨.nearestEven, nofun, ?_⟩
      rw [← evaluated]
      exact (case.eval (by simp [needed]) first leftSort second rightSort).symm
  | true =>
      obtain ⟨mode, rounding⟩ := case.rounded evaluated needed
      refine ⟨mode, fun _ => rounding, ?_⟩
      rw [← evaluated]
      exact (case.eval (fun _ => roundingMode_assigned rounding) first leftSort second
        rightSort).symm

/-! ## Values of built terms -/

/-- A built term that has a value has one of its sort. -/
theorem Built.sort {run : Run} (consistent : run.Consistent) {term : TypedTerm}
    (built : Built run term) {assign : Assignment} :
    ∀ {x : Value}, term.term.eval assign = some x → x.sort = term.sort := by
  induction built with
  | truth value | bits width value | float format pattern =>
      intro x evaluated
      cases evaluated
      rfl
  | constant member =>
      intro x evaluated
      rw [consistent.constants _ member] at evaluated
      have kept := (Option.filter_eq_some_iff.mp evaluated).2
      simpa using kept
  | unary tag _ case ih =>
      intro z evaluated
      obtain ⟨x, value⟩ := case.operand evaluated
      have sorted := sort_unaryValue? tag x
      rw [← case.eval value (ih value), evaluated, ih value, case.sort] at sorted
      exact Option.some.inj sorted
  | binary tag _ _ case _ leftIh rightIh =>
      intro z evaluated
      obtain ⟨⟨x, first⟩, ⟨y, second⟩⟩ := case.operands evaluated
      obtain ⟨mode, -, value⟩ :=
        case.value evaluated first (leftIh first) second (rightIh second)
      have sorted := sort_binaryValue? mode tag x y
      rw [value, leftIh first, rightIh second, case.sort] at sorted
      exact Option.some.inj sorted

/-- A second assignment that has a like value for every constant of the term
gives the term a like value. -/
theorem Built.like {run : Run} (consistent : run.Consistent) {assign other : Assignment}
    {term : TypedTerm} (built : Built run term) :
    (∀ constant ∈ term.term.constants, ∀ v, (Term.const constant.1 constant.2).eval assign = some v →
      ∃ v', (Term.const constant.1 constant.2).eval other = some v' ∧ v.Like v') →
    ∀ {x : Value}, term.term.eval assign = some x →
      ∃ x', term.term.eval other = some x' ∧ x.Like x' := by
  induction built with
  | truth value | bits width value | float format pattern =>
      intro _ x evaluated
      cases evaluated
      exact ⟨_, rfl, .same _⟩
  | constant member =>
      intro related x evaluated
      rw [consistent.constants _ member] at related evaluated ⊢
      exact related _ (List.mem_singleton_self _) x evaluated
  | unary tag operandBuilt case ih =>
      intro related z evaluated
      obtain ⟨x, value⟩ := case.operand evaluated
      obtain ⟨x', value', like⟩ := ih (by rwa [case.constants] at related) value
      have sorted := operandBuilt.sort consistent value
      rw [case.eval value sorted] at evaluated
      obtain ⟨z', result, likeResult⟩ := unaryValue?_like tag like evaluated
      refine ⟨z', ?_, likeResult⟩
      rw [case.eval value' (like.sort.symm.trans sorted), result]
  | binary tag leftBuilt rightBuilt case _ leftIh rightIh =>
      intro related z evaluated
      obtain ⟨⟨x, first⟩, ⟨y, second⟩⟩ := case.operands evaluated
      have leftSort := leftBuilt.sort consistent first
      have rightSort := rightBuilt.sort consistent second
      obtain ⟨x', first', leftLike⟩ := leftIh (fun constant inside =>
        related constant (case.mem_constants.mpr (Or.inr (Or.inl inside)))) first
      obtain ⟨y', second', rightLike⟩ := rightIh (fun constant inside =>
        related constant (case.mem_constants.mpr (Or.inr (Or.inr inside)))) second
      obtain ⟨mode, rounding, value⟩ := case.value evaluated first leftSort second rightSort
      have rounding' : rounds tag = true →
          other roundingModeName .roundingMode = some (.mode mode) := by
        intro needed
        obtain ⟨m, rounded, like⟩ := related _ (case.mem_constants.mpr (Or.inl ⟨needed, rfl⟩)) _
          (rounding needed)
        rw [← like.eq nofun] at rounded
        exact roundingMode_assigned rounded
      -- Operators look at numbers and not at patterns: like operands give the same value.
      refine ⟨z, ?_, .same z⟩
      rw [case.eval rounding' first' (leftLike.sort.symm.trans leftSort) second'
        (rightLike.sort.symm.trans rightSort), ← binaryValue?_like_left mode tag leftLike,
        ← binaryValue?_like_right mode tag _ rightLike, value]

end Analysis

end CondSat
