import CondSat.Proofs.FormulaMeaning

/-! # What formulas are made of

Whatever the tree, its formula is put together by operators from numerals and
from constants that are bound in the session: `formulate_built`.  Everything that
holds of such terms holds of every formula.  Among it: a formula has no constants
but the bound ones and the rounding mode. -/
set_option autoImplicit false
namespace CondSat.Analysis

open Ieee (Format RoundingMode)
open Solver (Assignment Term Value ValueSort)
open Source

/-- Terms put together from numerals and bound constants in an open session.  Where an
operator rounds, the rounding mode has been created. -/
inductive Built (run : Run) : TypedTerm → Prop
  | truth (value : Bool) : Built run ⟨.bool value, .bool⟩
  | bits (width : Nat) (value : BitVec width) : Built run ⟨.bits width value, .bits width⟩
  | float (format : Format) (pattern : BitVec format.width) :
      Built run ⟨.float format pattern, .float format⟩
  | constant {key : Key} {term : TypedTerm} (member : (key, term) ∈ run.bindings.bound) :
      Built run term
  | unary {operand term : TypedTerm} (tag : Tag) (built : Built run operand)
      (case : UnaryCase operand tag term) : Built run term
  | binary {left right term : TypedTerm} (tag : Tag) (leftBuilt : Built run left)
      (rightBuilt : Built run right) (case : BinaryCase left right tag term)
      (rounding : rounds tag = true → run.hasRoundingMode = true) : Built run term

theorem Built.extend {run later : Run} {term : TypedTerm} (built : Built run term)
    (grown : run.Grows later) : Built later term := by
  induction built with
  | truth value => exact .truth value
  | bits width value => exact .bits width value
  | float format pattern => exact .float format pattern
  | constant member => exact .constant (grown.bound.subset member)
  | unary tag _ case ih => exact .unary tag ih case
  | binary tag _ _ case rounding leftIh rightIh =>
      exact .binary tag leftIh rightIh case fun needed => grown.mode (rounding needed)

/-! ## Every formula is built -/

def Build.Assembles (step : Build (Option TypedTerm)) : Prop :=
  ∀ run events result final, step ⟨.opened run, events⟩ = .ok result final →
    ∃ later news, final = ⟨.opened later, news⟩ ∧ run.Grows later ∧
      ∀ term, result = some term → Built later term

theorem assembles_of_tells {step : Build (Option TypedTerm)} (tells : step.Tells none) :
    step.Assembles := by
  rintro run events result ⟨session, news⟩ built
  obtain ⟨rfl, same⟩ := tells _ _ _ built
  cases same
  exact ⟨run, news, rfl, .refl run, nofun⟩

theorem assembles_seq_tells {α : Type} {step : Build α} {answer : α} (tells : step.Tells answer)
    {next : α → Build (Option TypedTerm)} (assembles : (next answer).Assembles) :
    (step >>= next).Assembles := by
  intro run events result final built
  obtain ⟨told, ⟨session, news⟩, stepped, rested⟩ := Stateful.bind_ok built
  obtain ⟨rfl, same⟩ := tells _ _ _ stepped
  cases same
  exact assembles run news result final rested

theorem bind_assembles (key : Key) (type : SourceType) (name : String) :
    (Build.bind key type name).Assembles := by
  intro run events result final built
  rw [Build.bind_opened] at built
  cases built
  refine ⟨_, _, rfl, run.grows_bind key type name, ?_⟩
  intro term answered
  exact .constant (Bindings.mem_of_get? (Bindings.get?_bind answered))

theorem bindNamed_assembles (key : Key) (type : SourceType) (text : Json) (name : String) :
    (Build.bindNamed key type text name).Assembles := by
  intro run events result final built
  exact bind_assembles key type name run events result final (Build.bindNamed_ok built).2

theorem floatConstant_built {format : Format} {value : Json} {term : TypedTerm}
    (encoded : floatConstant format value = .ok (some term)) (run : Run) : Built run term := by
  unfold floatConstant at encoded
  split at encoded
  · cases encoded
  · split at encoded
    · cases encoded
      exact .float _ _
    · cases encoded

theorem encodeConstant_built {value : Json} {kind : Kind} {term : TypedTerm} {events : List Event}
    (encoded : encodeConstant value kind = .ok (some term, events)) (run : Run) :
    Built run term := by
  unfold encodeConstant at encoded
  split at encoded
  · split at encoded
    · cases encoded
      exact .truth _
    · cases encoded
  · obtain ⟨found, single, pair⟩ := map_ok encoded
    cases pair
    exact floatConstant_built single run
  · obtain ⟨found, double, pair⟩ := map_ok encoded
    cases pair
    exact floatConstant_built double run
  · split at encoded
    · next width known =>
        have mapped := (Prod.mk.inj (Except.ok.inj encoded)).1
        obtain ⟨number, -, rfl⟩ := Option.map_eq_some_iff.mp mapped
        exact .bits width _
    · cases encoded

theorem orElse_assembles (constant : Option Constant) {rest : Build (Option TypedTerm)}
    (assembles : rest.Assembles) : (orElse constant rest).Assembles := by
  intro run events result final built
  obtain ⟨found, ⟨session, news⟩, encoded, rested⟩ := Stateful.bind_ok built
  obtain ⟨same, -, -⟩ := constantTerm_value encoded
  cases same
  cases found with
  | none => exact assembles run news result final rested
  | some term =>
      obtain ⟨rfl, rfl⟩ := Stateful.pure_ok.mp rested
      refine ⟨run, news, rfl, .refl run, ?_⟩
      rintro other ⟨⟩
      cases constant with
      | none => cases encoded
      | some constant =>
          rw [constantTerm] at encoded
          cases answer : encodeConstant constant.value constant.kind with
          | error failure =>
              rw [answer] at encoded
              cases encoded
          | ok pair =>
              obtain ⟨found, reported⟩ := pair
              rw [answer] at encoded
              cases encoded
              exact encodeConstant_built answer _

theorem operandTerm_assembles (node : Expr) {step : Build (Option TypedTerm)}
    (assembles : step.Assembles) : (operandTerm node step).Assembles := by
  intro run events result final built
  obtain ⟨term, middle, stepped, rested⟩ := Stateful.bind_ok built
  obtain ⟨later, news, rfl, grown, laterBuilt⟩ := assembles run events term middle stepped
  cases term with
  | some term =>
      obtain ⟨rfl, rfl⟩ := Stateful.pure_ok.mp rested
      exact ⟨later, news, rfl, grown, laterBuilt⟩
  | none =>
      obtain ⟨last, more, rfl, grownMore, lastBuilt⟩ :=
        bindNamed_assembles _ _ _ _ later news result final rested
      exact ⟨last, more, rfl, grown.trans grownMore, lastBuilt⟩

theorem unary_assembles (operator : Operator) (tag : Tag) (text : Json)
    {step : Build (Option TypedTerm)} (assembles : step.Assembles) :
    (do match ← step with
        | none => pure none
        | some term => applyUnary operator tag text term :
      Build (Option TypedTerm)).Assembles := by
  intro run events result final built
  obtain ⟨term, middle, stepped, rested⟩ := Stateful.bind_ok built
  obtain ⟨later, news, rfl, grown, operandBuilt⟩ := assembles run events term middle stepped
  cases term with
  | none =>
      obtain ⟨rfl, rfl⟩ := Stateful.pure_ok.mp rested
      exact ⟨later, news, rfl, grown, nofun⟩
  | some term =>
      obtain ⟨same, -, case⟩ := applyUnary_case rested
      obtain ⟨session, more⟩ := final
      cases same
      exact ⟨later, more, rfl, grown, fun result found =>
        .unary tag (operandBuilt term rfl) (case result found)⟩

theorem binary_assembles (operator : Operator) (tag : Tag) (text : Json)
    {leftStep rightStep : Build (Option TypedTerm)} (leftAssembles : leftStep.Assembles)
    (rightAssembles : rightStep.Assembles) :
    (do match ← leftStep with
        | none => pure none
        | some leftTerm =>
          match ← rightStep with
          | none => pure none
          | some rightTerm => applyBinary operator tag text leftTerm rightTerm :
      Build (Option TypedTerm)).Assembles := by
  intro run events result final built
  obtain ⟨leftTerm, middle, stepped, rested⟩ := Stateful.bind_ok built
  obtain ⟨later, news, rfl, grown, leftBuilt⟩ := leftAssembles run events leftTerm middle stepped
  cases leftTerm with
  | none =>
      obtain ⟨rfl, rfl⟩ := Stateful.pure_ok.mp rested
      exact ⟨later, news, rfl, grown, nofun⟩
  | some leftTerm =>
      obtain ⟨rightTerm, middle, stepped, rested⟩ := Stateful.bind_ok rested
      obtain ⟨last, more, rfl, lastGrown, rightBuilt⟩ :=
        rightAssembles later news rightTerm middle stepped
      cases rightTerm with
      | none =>
          obtain ⟨rfl, rfl⟩ := Stateful.pure_ok.mp rested
          exact ⟨last, more, rfl, grown.trans lastGrown, nofun⟩
      | some rightTerm =>
          obtain ⟨ended, final, rfl, same, mode, -, case⟩ := applyBinary_case rested
          have applied : last.Grows ended := by
            constructor
            · exact same ▸ List.prefix_rfl
            · intro created
              rw [mode, created, Bool.true_or]
          refine ⟨ended, final, rfl, (grown.trans lastGrown).trans applied, ?_⟩
          intro term found
          have left := (leftBuilt leftTerm rfl).extend (lastGrown.trans applied)
          have right := (rightBuilt rightTerm rfl).extend applied
          refine .binary tag left right (case term found) ?_
          intro needed
          rw [mode, needed, Bool.or_true]

theorem nodeTerm_assembles (node : Expr) : ∀ depth, (nodeTerm node depth).Assembles := by
  induction node using Expr.operandInduction with
  | literal constant type text =>
      intro depth
      rw [nodeTerm]
      exact orElse_assembles _ (assembles_of_tells (Build.tells_pure none))
  | unmodelled shape type text children constant =>
      intro depth
      rw [nodeTerm]
      exact orElse_assembles _ (assembles_of_tells (Build.tells_remark _ _))
  | reference declaration type text constant =>
      intro depth
      rw [nodeTerm]
      refine orElse_assembles _ ?_
      cases declaration.filter (·.isVariable) with
      | none => exact assembles_of_tells (Build.tells_remark _ _)
      | some declaration => exact bindNamed_assembles _ _ _ _
  | unary resolution operand type text constant ih =>
      intro depth
      rw [nodeTerm]
      refine orElse_assembles _ (assembles_seq_tells (predefinedOperator_tells resolution text) ?_)
      cases resolution.predefined? with
      | none => exact assembles_of_tells (Build.tells_pure none)
      | some operator =>
          refine assembles_seq_tells (unaryTag_tells operator text) ?_
          cases operator.tag.filter isModelledUnary with
          | none => exact assembles_of_tells (Build.tells_pure none)
          | some tag =>
              cases depth with
              | zero => exact fun _ _ _ _ built => by cases built
              | succ depth =>
                  exact unary_assembles operator tag text (operandTerm_assembles _ (ih depth))
  | binary resolution left right type text constant leftIh rightIh =>
      intro depth
      rw [nodeTerm]
      refine orElse_assembles _ (assembles_seq_tells (predefinedOperator_tells resolution text) ?_)
      cases resolution.predefined? with
      | none => exact assembles_of_tells (Build.tells_pure none)
      | some operator =>
          refine assembles_seq_tells (binaryTag_tells operator text) ?_
          cases (Family.ofType? operator.returnType).bind fun family =>
              operator.tag.filter (binaryFamily? · = some family) with
          | none => exact assembles_of_tells (Build.tells_pure none)
          | some tag =>
              cases depth with
              | zero => exact fun _ _ _ _ built => by cases built
              | succ depth =>
                  exact binary_assembles operator tag text
                    (operandTerm_assembles _ (leftIh depth))
                    (operandTerm_assembles _ (rightIh depth))

/-- Every formula is built in the session it leaves. -/
theorem formulate_built [Limits] {root : Expr} {formula : TypedTerm} {progress : Progress}
    (made : Build.outcome (formulate root) .start = (.ok (some formula), progress)) :
    ∃ run news, progress = ⟨.opened run, news⟩ ∧ run.Consistent ∧ Built run formula := by
  have reached := formulate_follows root ⟨.start, []⟩
  have run := Build.outcome_ok.mp made
  rw [Build.after_ok run] at reached
  obtain ⟨term, middle, stepped, rested⟩ := Stateful.bind_ok run
  obtain ⟨later, news, rfl, -, built⟩ :=
    nodeTerm_assembles root Limits.formula _ _ term middle stepped
  cases term with
  | none => cases rested
  | some term =>
      obtain ⟨same, rfl⟩ := Stateful.pure_ok.mp rested
      cases same
      refine ⟨later, news, rfl, ?_, built formula rfl⟩
      refine Progress.Reaches.consistent reached ?_ later rfl
      rintro run ⟨⟩
      exact initial_consistent

/-! ## The constants of a formula -/

def Known (run : Run) (constant : String × ValueSort) : Prop :=
  (run.hasRoundingMode = true ∧ constant = (roundingModeName, .roundingMode)) ∨
  ∃ entry ∈ run.bindings.bound, constant = (entry.2.name, entry.2.sort)

theorem UnaryCase.constants {operand term : TypedTerm} {tag : Tag}
    (case : UnaryCase operand tag term) : term.term.constants = operand.term.constants := by
  cases case <;> rfl

theorem countTerm_constants (count : Term) (type : IntegerType) :
    (countTerm count type.width).constants = count.constants := by
  cases type <;> exact List.append_nil _

theorem BinaryCase.mem_constants {left right term : TypedTerm} {tag : Tag}
    (case : BinaryCase left right tag term) {constant : String × ValueSort} :
    constant ∈ term.term.constants ↔
      (rounds tag = true ∧ constant = (roundingModeName, .roundingMode)) ∨
      constant ∈ left.term.constants ∨ constant ∈ right.term.constants := by
  cases case with
  | connective op => cases op <;> simp [connectiveTerm, Term.constants, rounds]
  | comparison op type =>
      cases op <;> simp [comparisonTerm, Term.constants, rounds, or_comm]
  | enumEqual | enumUnequal | arithmetic | bitwise => simp [Term.constants, rounds]
  | shift op type => simp [Term.constants, countTerm_constants, rounds]
  | floatComparison op type => cases op <;> simp [floatComparisonTerm, Term.constants, rounds]
  | floatArithmetic op type =>
      cases op <;> simp [floatArithmeticTerm, Term.constants, roundingMode, rounds]

theorem Built.known {run : Run} (consistent : run.Consistent) {term : TypedTerm}
    (built : Built run term) :
    ∀ constant ∈ term.term.constants, Known run constant := by
  induction built with
  | truth value | bits width value | float format pattern => simp [Term.constants]
  | constant member =>
      intro constant inside
      rw [consistent.constants _ member] at inside
      rw [List.mem_singleton.mp inside]
      exact Or.inr ⟨_, member, rfl⟩
  | unary tag _ case ih =>
      rw [case.constants]
      exact ih
  | binary tag _ _ case rounding leftIh rightIh =>
      intro constant inside
      rcases case.mem_constants.mp inside with ⟨needed, rfl⟩ | inside | inside
      · exact Or.inl ⟨rounding needed, rfl⟩
      · exact leftIh constant inside
      · exact rightIh constant inside

end CondSat.Analysis
