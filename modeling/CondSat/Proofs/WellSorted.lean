import CondSat.Proofs.BuiltTerms

/-! # Formulas are well sorted

`Term.HasSort` states the sorting rules of the solver's logic, one constructor for
each kind of application, and `sort?` decides it.  A tree may contradict itself in
every way: its types, operators, constants and texts need not fit together, and a
constant that is found by its text may have a sort that has nothing to do with the
node.  Every term that is built is well sorted all the same, because operators
project their operands before they use them, and it carries its own sort. -/
set_option autoImplicit false
namespace CondSat

open Ieee (Format)

namespace Solver.Term

inductive HasSort : Term → ValueSort → Prop
  | const (name : String) (sort : ValueSort) : HasSort (.const name sort) sort
  | bool (value : Bool) : HasSort (.bool value) .bool
  | bits (width : Nat) (value : BitVec width) : HasSort (.bits width value) (.bits width)
  | float (format : Format) (pattern : BitVec format.width) :
      HasSort (.float format pattern) (.float format)
  | not {a : Term} (first : HasSort a .bool) : HasSort (.not a) .bool
  | and {a b : Term} (first : HasSort a .bool) (second : HasSort b .bool) :
      HasSort (.and a b) .bool
  | or {a b : Term} (first : HasSort a .bool) (second : HasSort b .bool) : HasSort (.or a b) .bool
  | xor {a b : Term} (first : HasSort a .bool) (second : HasSort b .bool) :
      HasSort (.xor a b) .bool
  | equal {a b : Term} {sort : ValueSort} (first : HasSort a sort) (second : HasSort b sort) :
      HasSort (.equal a b) .bool
  | distinct {a b : Term} {sort : ValueSort} (first : HasSort a sort) (second : HasSort b sort) :
      HasSort (.distinct a b) .bool
  | bitsBinary (op : BitsOp) {a b : Term} {width : Nat} (first : HasSort a (.bits width))
      (second : HasSort b (.bits width)) : HasSort (.bitsBinary op a b) (.bits width)
  | bitsUnary (op : BitsUnary) {a : Term} {width : Nat} (first : HasSort a (.bits width)) :
      HasSort (.bitsUnary op a) (.bits width)
  | bitsOrder (op : BitsOrder) {a b : Term} {width : Nat} (first : HasSort a (.bits width))
      (second : HasSort b (.bits width)) : HasSort (.bitsOrder op a b) .bool
  | zeroExtend (extra : Nat) {a : Term} {width : Nat} (first : HasSort a (.bits width)) :
      HasSort (.zeroExtend extra a) (.bits (width + extra))
  | extract {high low width : Nat} {a : Term} (ordered : low ≤ high) (inside : high < width)
      (first : HasSort a (.bits width)) :
      HasSort (.extract high low a) (.bits (high - low + 1))
  | floatBinary (op : FloatOp) {mode a b : Term} {format : Format}
      (rounding : HasSort mode .roundingMode) (first : HasSort a (.float format))
      (second : HasSort b (.float format)) : HasSort (.floatBinary op mode a b) (.float format)
  | floatRem {a b : Term} {format : Format} (first : HasSort a (.float format))
      (second : HasSort b (.float format)) : HasSort (.floatRem a b) (.float format)
  | floatNeg {a : Term} {format : Format} (first : HasSort a (.float format)) :
      HasSort (.floatNeg a) (.float format)
  | floatOrder (op : FloatOrder) {a b : Term} {format : Format} (first : HasSort a (.float format))
      (second : HasSort b (.float format)) : HasSort (.floatOrder op a b) .bool

theorem HasSort.sort? {term : Term} {sort : ValueSort} (sorted : term.HasSort sort) :
    term.sort? = some sort := by
  induction sorted with
  | const | bool | bits | float => rfl
  | extract ordered inside first ih => simp [Term.sort?, ih, ordered, inside]
  | not | and | or | xor | equal | distinct | bitsBinary | bitsUnary | bitsOrder | zeroExtend
  | floatBinary | floatRem | floatNeg | floatOrder => simp [Term.sort?, *]

end Solver.Term

namespace Analysis

open Solver (Term ValueSort)
open Source

/-- A term is well sorted, has the sort it is tagged with, and the sort has one of
the kinds that formulas use. -/
structure TypedTerm.WellSorted (t : TypedTerm) : Prop where
  sorted : t.term.HasSort t.sort
  kind : ∃ kind, t.sort.kind? = some kind

/-! ## Operators -/

theorem countTerm_hasSort {count : Term} (sorted : count.HasSort (.bits countWidth))
    (type : IntegerType) : (countTerm count type.width).HasSort (.bits type.width) := by
  have masked (mask : BitVec countWidth) :
      (Term.bitsBinary .and count (.bits countWidth mask)).HasSort (.bits countWidth) :=
    .bitsBinary _ sorted (.bits _ _)
  cases type with
  | int | uint => exact masked _
  | long | ulong => exact .zeroExtend 32 (masked _)

theorem connectiveTerm_hasSort {a b : Term} (op : Connective) (first : a.HasSort .bool)
    (second : b.HasSort .bool) : (connectiveTerm op a b).HasSort .bool := by
  cases op with
  | equal => exact .equal first second
  | unequal | xor => exact .xor first second
  | and | andAlso => exact .and first second
  | or | orElse => exact .or first second

theorem comparisonTerm_hasSort {a b : Term} {width : Nat} (op : Comparison) (signed : Bool)
    (first : a.HasSort (.bits width)) (second : b.HasSort (.bits width)) :
    (comparisonTerm op signed a b).HasSort .bool := by
  cases op with
  | equal => exact .equal first second
  | unequal => exact .distinct first second
  | greater | greaterEqual => exact .bitsOrder _ second first
  | less | lessEqual => exact .bitsOrder _ first second

theorem floatComparisonTerm_hasSort {a b : Term} {format : Format} (op : Comparison)
    (first : a.HasSort (.float format)) (second : b.HasSort (.float format)) :
    (floatComparisonTerm op a b).HasSort .bool := by
  cases op with
  | unequal => exact .not (.floatOrder _ first second)
  | equal | greater | greaterEqual | less | lessEqual => exact .floatOrder _ first second

theorem floatArithmeticTerm_hasSort {a b : Term} {format : Format} (op : Arithmetic)
    (first : a.HasSort (.float format)) (second : b.HasSort (.float format)) :
    (floatArithmeticTerm op a b).HasSort (.float format) := by
  have mode : roundingMode.term.HasSort .roundingMode := .const _ _
  cases op with
  | plus | minus | times | divide => exact .floatBinary _ mode first second
  | remainder => exact .floatRem first second

theorem UnaryCase.wellSorted {operand term : TypedTerm} {tag : Tag}
    (case : UnaryCase operand tag term) (operandSorted : operand.WellSorted) : term.WellSorted := by
  obtain ⟨a, sort⟩ := operand
  obtain ⟨first, kind⟩ := operandSorted
  cases case with
  | complement type sorted | minus type sorted =>
      cases sorted
      exact ⟨.bitsUnary _ first, kind⟩
  | negation sorted =>
      cases sorted
      exact ⟨.not first, kind⟩
  | plus type sorted =>
      cases sorted
      exact ⟨first, kind⟩
  | floatMinus type format sorted =>
      cases sorted
      exact ⟨.floatNeg first, kind⟩
  | floatPlus type format sorted => exact ⟨first, kind⟩

theorem BinaryCase.wellSorted {left right term : TypedTerm} {tag : Tag}
    (case : BinaryCase left right tag term) (leftSorted : left.WellSorted)
    (rightSorted : right.WellSorted) : term.WellSorted := by
  obtain ⟨a, leftSort⟩ := left
  obtain ⟨b, rightSort⟩ := right
  obtain ⟨first, kind⟩ := leftSorted
  obtain ⟨second, -⟩ := rightSorted
  cases case with
  | connective op leftSort rightSort =>
      cases leftSort
      cases rightSort
      exact ⟨connectiveTerm_hasSort op first second, kind⟩
  | comparison op type leftSort rightSort =>
      cases leftSort
      cases rightSort
      exact ⟨comparisonTerm_hasSort op _ first second, _, rfl⟩
  | enumEqual width leftSort rightSort =>
      cases leftSort
      cases rightSort
      exact ⟨.equal first second, _, rfl⟩
  | enumUnequal width leftSort rightSort =>
      cases leftSort
      cases rightSort
      exact ⟨.distinct first second, _, rfl⟩
  | arithmetic op type leftSort rightSort | bitwise op type leftSort rightSort =>
      cases leftSort
      cases rightSort
      exact ⟨.bitsBinary _ first second, kind⟩
  | shift op type leftSort rightSort =>
      cases leftSort
      cases rightSort
      exact ⟨.bitsBinary _ first (countTerm_hasSort second type), kind⟩
  | floatComparison op type format leftSort rightSort wide =>
      cases leftSort
      cases rightSort
      exact ⟨floatComparisonTerm_hasSort op first second, _, rfl⟩
  | floatArithmetic op type format leftSort rightSort wide =>
      cases leftSort
      cases rightSort
      exact ⟨floatArithmeticTerm_hasSort op first second, kind⟩

theorem Built.wellSorted {run : Run} {term : TypedTerm} (built : Built run term)
    (constants : ∀ entry ∈ run.bindings.bound, entry.2.WellSorted) : term.WellSorted := by
  induction built with
  | truth value => exact ⟨.bool value, _, rfl⟩
  | bits width value => exact ⟨.bits width value, _, rfl⟩
  | float format pattern => exact ⟨.float format pattern, _, rfl⟩
  | constant member => exact constants _ member
  | unary tag _ case ih => exact case.wellSorted ih
  | binary tag _ _ case _ leftIh rightIh => exact case.wellSorted leftIh rightIh

/-! ## Sessions -/

/-- Where the session is open, everything bound in it is well sorted. -/
def Progress.WellSorted (progress : Progress) : Prop :=
  ∀ run, progress.session = .opened run → ∀ entry ∈ run.bindings.bound, entry.2.WellSorted

theorem newConstant_wellSorted (bindings : Bindings) (key : Key) (name : String)
    {type : SourceType} {sort : ValueSort} (typed : type.sort? = some sort) :
    (bindings.newConstant key name sort).WellSorted := by
  refine ⟨.const _ _, ?_⟩
  change ∃ kind, sort.kind? = some kind
  unfold SourceType.sort? at typed
  cases kind : type.valueKind <;> rw [kind] at typed <;> cases typed <;> exact ⟨_, rfl⟩

/-- Binding keeps a session well sorted, whatever the key and the type. -/
theorem Bindings.bind_wellSorted {bindings : Bindings}
    (before : ∀ entry ∈ bindings.bound, entry.2.WellSorted) (key : Key) (type : SourceType)
    (name : String) :
    ∀ entry ∈ (bindings.bind key type name).2.1.bound, entry.2.WellSorted := by
  rcases bindings.bind_cases key type name with
    ⟨term, -, result⟩ | ⟨-, -, result⟩ | ⟨sort, -, typed, result⟩ <;> rw [result]
  · exact before
  · exact before
  · intro entry member
    rcases List.mem_append.mp member with member | member
    · exact before entry member
    · rw [List.mem_singleton.mp member]
      exact newConstant_wellSorted bindings key name typed

theorem Progress.Step.wellSorted {start final : Progress} (step : start.Step final)
    (before : start.WellSorted) : final.WellSorted := by
  intro run opened
  cases step with
  | report session earlier events quiet => exact before run opened
  | mode run' earlier =>
      cases opened
      exact before run' rfl
  | bind run' earlier key type name admits =>
      cases opened
      exact Bindings.bind_wellSorted (before run' rfl) key type name

theorem Progress.Reaches.wellSorted {start final : Progress} (reached : start.Reaches final)
    (before : start.WellSorted) : final.WellSorted := by
  induction reached with
  | refl => exact before
  | tail earlier step ih => exact step.wellSorted ih

theorem Operation.perform_wellSorted [Limits] (operation : Operation) {start : Progress}
    (before : start.WellSorted) : (operation.perform start).WellSorted := by
  obtain ⟨session, events⟩ := start
  cases operation with
  | openSession =>
      intro run opened
      cases session with
      | opened current => exact before run opened
      | closed =>
          cases opened
          exact fun entry member => absurd member List.not_mem_nil
  | closeSession =>
      intro run opened
      cases opened
  | bind key type name =>
      intro run opened
      cases session with
      | closed => cases opened
      | opened current =>
          -- No condition on the key is needed, so `Operation.follows` is not used here.
          cases opened
          exact Bindings.bind_wellSorted (before current rfl) key type name
  | bindDeclaration declaration =>
      exact (Build.follows_bindDeclaration declaration _).wellSorted before
  | bindUnmodelled node => exact (Build.follows_bindUnmodelled node _).wellSorted before
  | useRoundingMode => exact (Build.follows_useRoundingMode _).wellSorted before
  | formulate root => exact (formulate_follows root _).wellSorted before

theorem performAll_wellSorted [Limits] (operations : List Operation) {start : Progress}
    (before : start.WellSorted) : (performAll operations start).WellSorted := by
  induction operations generalizing start with
  | nil => exact before
  | cons operation rest ih => exact ih (operation.perform_wellSorted before)

/-! ## Formulas -/

theorem Build.Assembles.wellSorted {step : Build (Option TypedTerm)} (assembles : step.Assembles)
    (follows : step.Follows) {start final : Progress} {term : TypedTerm} {run : Run}
    (opened : start.session = .opened run) (before : start.WellSorted)
    (built : step start = .ok (some term) final) : term.WellSorted ∧ final.WellSorted := by
  have reached := follows start
  rw [Build.after_ok built] at reached
  have after := reached.wellSorted before
  obtain ⟨session, events⟩ := start
  cases opened
  obtain ⟨later, news, rfl, -, laterBuilt⟩ := assembles run events _ final built
  exact ⟨(laterBuilt term rfl).wellSorted (after later rfl), after⟩

theorem formulate_assembles [Limits] (root : Expr) : (formulate root).Assembles := by
  intro run events result final built
  obtain ⟨term, middle, stepped, rested⟩ := Stateful.bind_ok built
  obtain ⟨later, news, rfl, grown, laterBuilt⟩ :=
    nodeTerm_assembles root Limits.formula run events term middle stepped
  cases term with
  | some term =>
      obtain ⟨rfl, rfl⟩ := Stateful.pure_ok.mp rested
      exact ⟨later, news, rfl, grown, laterBuilt⟩
  | none =>
      cases rested
      exact ⟨later, _, rfl, grown, nofun⟩

/-- In every open session reached by any operations, with keys bound by hand at any
type, what is bound is well sorted, every formula of any tree is, and so is every
operand on the way to it. -/
theorem formulas_are_well_sorted [Limits] (operations : List Operation) (reached : Progress)
    (run : Run) (performed : performAll operations ⟨.closed, []⟩ = reached)
    (opened : reached.session = .opened run) :
    (∀ entry ∈ run.bindings.bound, entry.2.WellSorted) ∧
    (∀ root formula final, formulate root reached = .ok (some formula) final →
      formula.WellSorted ∧ formula.term.sort? = some formula.sort ∧ final.WellSorted) ∧
    (∀ middle, reached.Reaches middle → ∀ node depth term final,
      operandTerm node (nodeTerm node depth) middle = .ok (some term) final →
      term.WellSorted ∧ term.term.sort? = some term.sort) := by
  subst performed
  have closed : (⟨.closed, []⟩ : Progress).WellSorted := by
    intro run opened
    cases opened
  have sorted := performAll_wellSorted operations closed
  refine ⟨sorted run opened, ?_, ?_⟩
  · intro root formula final built
    obtain ⟨formulaSorted, finalSorted⟩ :=
      (formulate_assembles root).wellSorted (formulate_follows root) opened sorted built
    exact ⟨formulaSorted, formulaSorted.sorted.sort?, finalSorted⟩
  · intro middle steps node depth term final built
    obtain ⟨later, stillOpened, -⟩ := steps.extends opened
    obtain ⟨termSorted, -⟩ :=
      (operandTerm_assembles node (nodeTerm_assembles node depth)).wellSorted
        (operandTerm_follows node (nodeTerm_follows node depth)) stillOpened
        (steps.wellSorted sorted) built
    exact ⟨termSorted, termSorted.sorted.sort?⟩

/-- The tree of `f() && x`, where no two of its types agree. -/
def contradictoryTree : Expr :=
  .binary (.resolved ⟨"odd", .bool, some (.connective .andAlso), true⟩)
    (.unmodelled .invocation .int "f()" [] none)
    (.reference (some ⟨"x", .localVariable, .bool, 1⟩) .string "x" none)
    .double "f() && x" (some ⟨.str "no number", .int⟩)

/-- A session in which the text of a call of type `int` is bound as a truth value. -/
def contradictoryOperations : List Operation :=
  [.openSession,
    .bind (.unmodelled "f()") .bool "f",
    .bind (.declaration ⟨"y", .field, .int, 2⟩) .double "y"]

theorem formulas_are_well_sorted_contradictory :
    ∃ run formula final,
      (performAll contradictoryOperations ⟨.closed, []⟩).session = .opened run ∧
      formulate contradictoryTree (performAll contradictoryOperations ⟨.closed, []⟩) =
        .ok (some formula) final ∧
      formula = ⟨.and (.const "f" .bool) (.const "x" .bool), .bool⟩ ∧ formula.WellSorted := by
  refine ⟨_, _, _, rfl, rfl, rfl, ?_⟩
  exact ((formulas_are_well_sorted contradictoryOperations _ _ rfl rfl).2.1
    contradictoryTree _ _ rfl).1

end Analysis

end CondSat
