import CondSat.Proofs.OperatorValues
import CondSat.Proofs.Patterns
import CondSat.Proofs.SessionInvariant

/-! # Formulas mean what their trees mean

`nodeTerm_yields` follows the building of a formula through its session.  Two
facts about the session carry it: what is bound for a declaration has the sort of
its type, and what is bound for a label has the sort of a node that has this label
and no meaning of its own.  Where nodes without a meaning that share a label also
share a sort, a node has a term exactly when it has a `formulaSort?`, and the term
has this sort and the value of the node under every assignment that agrees with a
valuation on what is bound. -/
set_option autoImplicit false
namespace CondSat

namespace Analysis

open Ieee (Format)
open Solver (Assignment Term Value ValueSort)
open Source

/-! ## Sorts of values -/

def Valuation.operandValue? (V : Valuation) (node : Expr) : Option Value :=
  (V.value? node).or (V.unknown? node)

def operandSort? (node : Expr) : Option ValueSort := (formulaSort? node).or node.type.sort?

theorem sort_or {first second : Option Value} :
    (first.or second).map Value.sort = (first.map Value.sort).or (second.map Value.sort) := by
  cases first <;> rfl

section Sorts

variable {V : Valuation} {root : Expr} (fits : V.Fits root)
include fits

theorem sort_operandValue? {node : Expr} (inside : node ∈ root.preorder)
    (sorted : (V.value? node).map Value.sort = formulaSort? node) :
    (V.operandValue? node).map Value.sort = operandSort? node := by
  rw [Valuation.operandValue?, operandSort?, sort_or, sorted]
  cases missing : formulaSort? node with
  | some sort => rfl
  | none =>
      rw [Option.none_or, Option.none_or, Valuation.unknown?]
      cases typed : node.type.sort? with
      | none => rfl
      | some sort => exact congrArg some (fits.unknown node ⟨inside, missing⟩ sort typed)

/-- A node has a value exactly when it has a sort, and the value has this sort. -/
theorem sort_value? (node : Expr) (inside : node.preorder ⊆ root.preorder) :
    (V.value? node).map Value.sort = formulaSort? node := by
  induction node using Expr.operandInduction with
  | literal constant type text => rfl
  | unmodelled shape type text children constant => rfl
  | reference declaration type text constant =>
      rw [Valuation.value?, formulaSort?, sort_or]
      congr 1
      cases known : declaration.filter (·.isVariable) with
      | none => rfl
      | some declaration =>
          have isVariable := (Option.filter_eq_some_iff.mp known).2
          change (declaration.type.sort?.bind fun _ => some (V.declared declaration)).map Value.sort =
            declaration.type.sort?
          cases typed : declaration.type.sort? with
          | none => rfl
          | some sort => exact congrArg some (fits.declared declaration isVariable sort typed)
  | unary resolution operand type text constant ih =>
      have below := List.Subset.trans Expr.operand_preorder inside
      have sorted := sort_operandValue? fits (below operand.self_mem_preorder) (ih below)
      rw [Valuation.value?, formulaSort?, sort_or]
      congr 1
      cases unaryTag? resolution with
      | none => rfl
      | some tag =>
          change ((V.operandValue? operand).bind (unaryValue? tag)).map Value.sort =
            (operandSort? operand).bind (unarySort? tag)
          rw [← sorted]
          cases V.operandValue? operand with
          | none => rfl
          | some x => exact sort_unaryValue? tag x
  | binary resolution left right type text constant leftIh rightIh =>
      have leftBelow := List.Subset.trans Expr.left_preorder inside
      have rightBelow := List.Subset.trans Expr.right_preorder inside
      have leftSorted := sort_operandValue? fits (leftBelow left.self_mem_preorder) (leftIh leftBelow)
      have rightSorted :=
        sort_operandValue? fits (rightBelow right.self_mem_preorder) (rightIh rightBelow)
      rw [Valuation.value?, formulaSort?, sort_or]
      congr 1
      cases binaryTag? resolution with
      | none => rfl
      | some tag =>
          change ((V.operandValue? left).bind fun x =>
              (V.operandValue? right).bind fun y => binaryValue? V.mode tag x y).map Value.sort =
            (operandSort? left).bind fun s => (operandSort? right).bind fun t => binarySort? tag s t
          rw [← leftSorted, ← rightSorted]
          cases V.operandValue? left with
          | none => rfl
          | some x =>
              cases V.operandValue? right with
              | none => rfl
              | some y => exact sort_binaryValue? V.mode tag x y

end Sorts

/-! ## Steps that only report -/

def Build.Tells {α : Type} (step : Build α) (answer : α) : Prop :=
  ∀ (start final : Progress) (result : α), step start = .ok result final →
    result = answer ∧ final.session = start.session

namespace Build

theorem tells_pure {α : Type} (value : α) : (pure value : Build α).Tells value := by
  intro start final result run
  obtain ⟨same, rfl⟩ := Stateful.pure_ok.mp run
  exact ⟨same.symm, rfl⟩

theorem tells_remark {α : Type} (event : Event) (value : α) :
    (do report [event]; pure value : Build α).Tells value := by
  intro start final result run
  cases run
  exact ⟨rfl, rfl⟩

end Build

theorem predefinedOperator_tells (resolution : Resolution) (text : Json) :
    (predefinedOperator resolution text).Tells resolution.predefined? := by
  unfold predefinedOperator
  cases resolution.predefined? with
  | some operator => exact Build.tells_pure _
  | none => exact Build.tells_remark _ _

theorem unaryTag_tells (operator : Operator) (text : Json) :
    (unaryTag operator text).Tells (operator.tag.filter isModelledUnary) := by
  unfold unaryTag
  cases known : operator.tag with
  | none => exact Build.tells_remark _ _
  | some tag =>
      cases tag with
      | unmodelled op => exact Build.tells_remark _ _
      | complement _ | negation | minus _ | floatMinus _ | plus _ | floatPlus _ =>
          exact Build.tells_pure _
      | connective _ | arithmetic _ _ | bitwise _ _ | shift _ _ | comparison _ _
      | floatArithmetic _ _ | floatComparison _ _ | enumEqual | enumUnequal =>
          exact Build.tells_remark _ _

theorem binaryTag_tells (operator : Operator) (text : Json) :
    (binaryTag operator text).Tells
      ((Family.ofType? operator.returnType).bind fun family =>
        operator.tag.filter (binaryFamily? · = some family)) := by
  unfold binaryTag
  cases Family.ofType? operator.returnType with
  | none => exact Build.tells_remark _ _
  | some family =>
      change Build.Tells _ (operator.tag.filter (binaryFamily? · = some family))
      dsimp only
      split
      · next unmodelled =>
          have missing : operator.tag.filter (binaryFamily? · = some family) = none := by
            cases known : operator.tag with
            | none => rfl
            | some tag =>
                rw [known] at unmodelled
                cases tag <;> first | rfl | cases unmodelled
          rw [missing]
          exact Build.tells_remark _ _
      · cases operator.tag.filter (binaryFamily? · = some family) with
        | none => exact Build.tells_remark _ _
        | some tag => exact Build.tells_pure _

/-! ## Constants -/

theorem floatNumeral_eval {format : Format} (stored : format.Stored) (pattern : Nat)
    (assign : Assignment) :
    (floatNumeral format pattern).term.eval assign = some (.ofPattern format pattern) :=
  congrArg some (Value.ofPattern_canonical stored pattern)

theorem floatConstant_value {format : Format} (stored : format.Stored) {value : Json}
    {term : Option TypedTerm} (encoded : floatConstant format value = .ok term) :
    term.map (·.sort) = (floatValue? format value).map Value.sort ∧
    ∀ assign, term.bind (·.term.eval assign) = floatValue? format value := by
  unfold floatConstant at encoded
  unfold floatValue?
  cases read : number? value with
  | none =>
      rw [read] at encoded
      cases encoded
      exact ⟨rfl, fun _ => rfl⟩
  | some number =>
      rw [read] at encoded
      dsimp only at encoded
      cases rounded : number.toPattern format with
      | error fault =>
          rw [rounded] at encoded
          cases encoded
      | ok pattern =>
          rw [rounded] at encoded
          cases encoded
          simp only [Option.bind_eq_bind, Option.bind_some, rounded, Except.toOption]
          exact ⟨rfl, floatNumeral_eval stored pattern⟩

theorem encodeConstant_value {constant : Constant} {term : Option TypedTerm} {events : List Event}
    (encoded : encodeConstant constant.value constant.kind = .ok (term, events)) :
    term.map (·.sort) = (constantValue? constant).map Value.sort ∧
    ∀ assign, term.bind (·.term.eval assign) = constantValue? constant := by
  obtain ⟨value, kind⟩ := constant
  cases kind with
  | bool =>
      cases value with
      | bool truth =>
          cases encoded
          exact ⟨rfl, fun _ => rfl⟩
      | null | int _ | float _ | str _ | torn _ | arr _ | obj _ =>
          cases encoded
          exact ⟨rfl, fun _ => rfl⟩
  | float =>
      obtain ⟨found, single, pair⟩ := map_ok encoded
      cases pair
      exact floatConstant_value (Or.inl rfl) single
  | double =>
      obtain ⟨found, double, pair⟩ := map_ok encoded
      cases pair
      exact floatConstant_value (Or.inr rfl) double
  | decimal | string | null | enum | other =>
      cases encoded
      exact ⟨rfl, fun _ => rfl⟩
  | sbyte | byte | short | ushort | char | int | uint | long | ulong =>
      cases encoded
      constructor
      · simp only [constantValue?, Kind.integralWidth?, Option.bind_eq_bind, Option.bind_some]
        cases whole? _ value <;> rfl
      · intro assign
        simp only [constantValue?, Kind.integralWidth?, Option.bind_eq_bind, Option.bind_some]
        cases whole? _ value <;> rfl

theorem constantTerm_value {constant : Option Constant} {start final : Progress}
    {term : Option TypedTerm} (run : constantTerm constant start = .ok term final) :
    final.session = start.session ∧
    term.map (·.sort) = (constant.bind constantValue?).map Value.sort ∧
    ∀ assign, term.bind (·.term.eval assign) = constant.bind constantValue? := by
  cases constant with
  | none =>
      obtain ⟨rfl, rfl⟩ := Stateful.pure_ok.mp run
      exact ⟨rfl, rfl, fun _ => rfl⟩
  | some constant =>
      rw [constantTerm] at run
      cases encoded : encodeConstant constant.value constant.kind with
      | error failure =>
          rw [encoded] at run
          cases run
      | ok answer =>
          obtain ⟨found, events⟩ := answer
          rw [encoded] at run
          cases run
          exact ⟨rfl, encodeConstant_value encoded⟩

/-! ## Sessions and valuations -/

/-- Unknown nodes that share a label share a sort. -/
def SharesSorts (root : Expr) : Prop :=
  ∀ node other, IsUnknown root node → IsUnknown root other → node.label = other.label →
    node.type.sort? = other.type.sort?

/-- What is bound stands for a variable, or for an unknown node by its label. -/
structure Run.Explained (run : Run) (root : Expr) : Prop where
  consistent : run.Consistent
  entries : ∀ key term, (key, term) ∈ run.bindings.bound →
    (∃ declaration, key = .declaration declaration ∧ declaration.isVariable = true) ∨
    ∃ node, IsUnknown root node ∧ key = .unmodelled node.label ∧
      node.type.sort? = some term.sort

theorem Run.Explained.isVariable {run : Run} {root : Expr} (explained : run.Explained root)
    {declaration : Declaration} {term : TypedTerm}
    (member : (Key.declaration declaration, term) ∈ run.bindings.bound) :
    declaration.isVariable = true := by
  rcases explained.entries _ term member with ⟨other, same, isVariable⟩ | ⟨node, -, same, -⟩
  · cases same
    exact isVariable
  · cases same

theorem Run.Explained.unknown {run : Run} {root : Expr} (explained : run.Explained root)
    {label : Json} {term : TypedTerm}
    (member : (Key.unmodelled label, term) ∈ run.bindings.bound) :
    ∃ node, IsUnknown root node ∧ label = node.label ∧ node.type.sort? = some term.sort := by
  rcases explained.entries _ term member with ⟨other, same, -⟩ | ⟨node, isUnknown, same, typed⟩
  · cases same
  · exact ⟨node, isUnknown, Key.unmodelled.inj same, typed⟩

/-- An assignment gives to what is bound the values of a valuation. -/
structure Valuation.Agrees (V : Valuation) (root : Expr) (run : Run) (assign : Assignment) :
    Prop where
  declared : ∀ declaration term, (Key.declaration declaration, term) ∈ run.bindings.bound →
    term.term.eval assign = some (V.declared declaration)
  unknown : ∀ node, IsUnknown root node →
    ∀ term, (Key.unmodelled node.label, term) ∈ run.bindings.bound →
      term.term.eval assign = some (V.unknown node)
  mode : assign roundingModeName .roundingMode = some (.mode V.mode)

theorem Run.Explained.congr {run later : Run} {root : Expr} (explained : run.Explained root)
    (same : later.bindings = run.bindings) : later.Explained root := by
  obtain ⟨bindings, created⟩ := later
  cases same
  obtain ⟨⟨constants, keys, names, reserved, declared⟩, entries⟩ := explained
  exact ⟨⟨constants, keys, names, reserved, declared⟩, entries⟩

theorem initial_explained (root : Expr) : Run.initial.Explained root where
  consistent := initial_consistent
  entries := by simp [Run.initial]

theorem Valuation.Agrees.earlier {V : Valuation} {root : Expr} {run later : Run}
    {assign : Assignment} (agrees : V.Agrees root later assign)
    (grown : run.bindings.bound <+: later.bindings.bound) : V.Agrees root run assign where
  declared declaration term member := agrees.declared declaration term (grown.subset member)
  unknown node known term member := agrees.unknown node known term (grown.subset member)
  mode := agrees.mode

/-- A result has this sort, and these values wherever an assignment agrees with
a valuation on what is bound. -/
structure Denotes (root : Expr) (run : Run) (result : Option TypedTerm) (sort : Option ValueSort)
    (value : Valuation → Option Value) : Prop where
  sort : result.map (·.sort) = sort
  value : ∀ V assign, V.Fits root → V.Agrees root run assign →
    result.bind (·.term.eval assign) = value V

def Build.Yields (step : Build (Option TypedTerm)) (root : Expr) (sort : Option ValueSort)
    (value : Valuation → Option Value) : Prop :=
  ∀ run events result final, run.Explained root →
    step ⟨.opened run, events⟩ = .ok result final →
    ∃ later news, final = ⟨.opened later, news⟩ ∧ run.bindings.bound <+: later.bindings.bound ∧
      later.Explained root ∧ Denotes root later result sort value

theorem Denotes.extend {root : Expr} {run later : Run} {result : Option TypedTerm}
    {sort : Option ValueSort} {value : Valuation → Option Value}
    (denotes : Denotes root run result sort value)
    (grown : run.bindings.bound <+: later.bindings.bound) :
    Denotes root later result sort value :=
  ⟨denotes.sort, fun V assign fits agrees => denotes.value V assign fits (agrees.earlier grown)⟩

theorem denotes_none (root : Expr) (run : Run) : Denotes root run none none fun _ => none :=
  ⟨rfl, fun _ _ _ _ => rfl⟩

/-! ## Steps of a formula -/

section Steps

variable {root : Expr}

theorem yields_of_tells {step : Build (Option TypedTerm)} (tells : step.Tells none) :
    step.Yields root none fun _ => none := by
  rintro run events result ⟨session, news⟩ explained built
  obtain ⟨rfl, same⟩ := tells _ _ _ built
  cases same
  exact ⟨run, news, rfl, List.prefix_rfl, explained, denotes_none root run⟩

theorem yields_throw (failure : Failure) (sort : Option ValueSort)
    (value : Valuation → Option Value) :
    (throw failure : Build (Option TypedTerm)).Yields root sort value := by
  intro run events result final explained built
  cases built

theorem yields_seq_tells {α : Type} {step : Build α} {answer : α} (tells : step.Tells answer)
    {next : α → Build (Option TypedTerm)} {sort : Option ValueSort}
    {value : Valuation → Option Value} (yields : (next answer).Yields root sort value) :
    (step >>= next).Yields root sort value := by
  intro run events result final explained built
  obtain ⟨told, ⟨session, news⟩, stepped, rested⟩ := Stateful.bind_ok built
  obtain ⟨rfl, same⟩ := tells _ _ _ stepped
  cases same
  exact yields run news result final explained rested

theorem bindDeclaration_yields {declaration : Declaration}
    (isVariable : declaration.isVariable = true) :
    (Build.bindDeclaration declaration).Yields root declaration.type.sort? fun V =>
      declaration.type.sort?.bind fun _ => some (V.declared declaration) := by
  intro run events result final explained built
  have consistent := explained.consistent.bind declaration.name.display
    (show (Key.declaration declaration).Admits declaration.type from rfl)
  obtain ⟨-, built⟩ := Build.bindNamed_ok built
  rw [Build.bind_opened] at built
  cases built
  refine ⟨_, _, rfl, ?_⟩
  rcases run.bindings.bind_cases (.declaration declaration) declaration.type
      declaration.name.display with
    ⟨term, known, bound⟩ | ⟨-, untyped, bound⟩ | ⟨sort, -, typed, bound⟩ <;>
    rw [bound] at consistent ⊢
  · have member := Bindings.mem_of_get? known
    have typed := explained.consistent.declared declaration term member
    refine ⟨List.prefix_rfl, explained, typed.symm, ?_⟩
    intro V assign fits agrees
    rw [typed]
    exact agrees.declared declaration term member
  · rw [untyped]
    exact ⟨List.prefix_rfl, explained, denotes_none root run⟩
  · refine ⟨List.prefix_append _ _, ⟨consistent, ?_⟩, typed.symm, ?_⟩
    · intro key term member
      rcases List.mem_append.mp member with member | member
      · exact explained.entries key term member
      · cases List.mem_singleton.mp member
        exact Or.inl ⟨declaration, rfl, isVariable⟩
    · intro V assign fits agrees
      rw [typed]
      exact agrees.declared declaration _ (List.mem_append_right _ (by simp))

/-- An unknown node is bound at the sort of its type, by whichever node of its
label came first. -/
theorem bindUnmodelled_yields {node : Expr} (shares : SharesSorts root)
    (isUnknown : IsUnknown root node) :
    (Build.bindUnmodelled node).Yields root node.type.sort? fun V => V.unknown? node := by
  intro run events result final explained built
  have consistent := explained.consistent.bind (Build.unmodelledName node.text)
    (show (Key.unmodelled node.label).Admits node.type from trivial)
  obtain ⟨-, built⟩ := Build.bindNamed_ok built
  rw [Build.bind_opened] at built
  cases built
  refine ⟨_, _, rfl, ?_⟩
  rcases run.bindings.bind_cases (.unmodelled node.label) node.type
      (Build.unmodelledName node.text) with
    ⟨term, known, bound⟩ | ⟨-, untyped, bound⟩ | ⟨sort, -, typed, bound⟩ <;>
    rw [bound] at consistent ⊢
  · have member := Bindings.mem_of_get? known
    obtain ⟨other, otherUnknown, same, otherTyped⟩ := explained.unknown member
    have typed := (shares node other isUnknown otherUnknown same).trans otherTyped
    refine ⟨List.prefix_rfl, explained, typed.symm, ?_⟩
    intro V assign fits agrees
    rw [Valuation.unknown?, typed]
    exact agrees.unknown node isUnknown term member
  · refine ⟨List.prefix_rfl, explained, untyped.symm, ?_⟩
    intro V assign fits agrees
    rw [Valuation.unknown?, untyped]
    rfl
  · refine ⟨List.prefix_append _ _, ⟨consistent, ?_⟩, typed.symm, ?_⟩
    · intro key term member
      rcases List.mem_append.mp member with member | member
      · exact explained.entries key term member
      · cases List.mem_singleton.mp member
        exact Or.inr ⟨node, isUnknown, rfl, typed⟩
    · intro V assign fits agrees
      rw [Valuation.unknown?, typed]
      exact agrees.unknown node isUnknown _ (List.mem_append_right _ (by simp))

theorem orElse_yields {constant : Option Constant} {rest : Build (Option TypedTerm)}
    {sort : Option ValueSort} {value : Valuation → Option Value}
    (yields : rest.Yields root sort value) :
    (orElse constant rest).Yields root (((constant.bind constantValue?).map Value.sort).or sort)
      fun V => (constant.bind constantValue?).or (value V) := by
  intro run events result final explained built
  obtain ⟨term, ⟨session, news⟩, encoded, rested⟩ := Stateful.bind_ok built
  obtain ⟨same, sorted, valued⟩ := constantTerm_value encoded
  cases same
  cases term with
  | some term =>
      obtain ⟨rfl, rfl⟩ := Stateful.pure_ok.mp rested
      cases found : constant.bind constantValue? with
      | none =>
          rw [found] at sorted
          cases sorted
      | some x =>
          rw [found] at sorted valued
          exact ⟨run, news, rfl, List.prefix_rfl, explained, sorted, fun _ assign _ _ =>
            valued assign⟩
  | none =>
      have missing : constant.bind constantValue? = none := (valued fun _ _ => none).symm
      simp only [missing, Option.map_none, Option.none_or]
      exact yields run news result final explained rested

theorem operandTerm_yields {node : Expr} {step : Build (Option TypedTerm)}
    (shares : SharesSorts root) (inside : node.preorder ⊆ root.preorder)
    (yields : step.Yields root (formulaSort? node) fun V => V.value? node) :
    (operandTerm node step).Yields root (operandSort? node) fun V => V.operandValue? node := by
  intro run events result final explained built
  obtain ⟨term, middle, stepped, rested⟩ := Stateful.bind_ok built
  obtain ⟨later, news, rfl, grown, laterExplained, sorted, valued⟩ :=
    yields run events term middle explained stepped
  simp only [operandSort?, Valuation.operandValue?]
  cases term with
  | some term =>
      obtain ⟨rfl, rfl⟩ := Stateful.pure_ok.mp rested
      refine ⟨later, news, rfl, grown, laterExplained, ?_, ?_⟩
      · rw [← sorted]
        rfl
      · intro V assign fits agrees
        have exists_value := sort_value? fits node inside
        rw [← sorted] at exists_value
        obtain ⟨x, value, -⟩ := Option.map_eq_some_iff.mp exists_value
        rw [valued V assign fits agrees, value, Option.some_or]
  | none =>
      have missing : formulaSort? node = none := sorted.symm
      obtain ⟨last, more, rfl, grownMore, lastExplained, lastSorted, lastValued⟩ :=
        bindUnmodelled_yields shares ⟨inside node.self_mem_preorder, missing⟩ later news result
          final laterExplained rested
      refine ⟨last, more, rfl, grown.trans grownMore, lastExplained, ?_, ?_⟩
      · rw [missing, Option.none_or, lastSorted]
      · intro V assign fits agrees
        have none : V.value? node = none :=
          (valued V assign fits (agrees.earlier grownMore)).symm
        rw [none, Option.none_or, lastValued V assign fits agrees]

theorem applyUnary_case {operator : Operator} {tag : Tag} {text : Json} {operand : TypedTerm}
    {start final : Progress} {result : Option TypedTerm}
    (built : applyUnary operator tag text operand start = .ok result final) :
    final.session = start.session ∧ result.map (·.sort) = unarySort? tag operand.sort ∧
    ∀ term, result = some term → UnaryCase operand tag term := by
  unfold applyUnary at built
  rcases unaryTerm_cases tag operand with
    ⟨term, applied, case, sorted⟩ | ⟨applied | ⟨mismatch, applied⟩, unsorted⟩ <;>
    rw [applied] at built
  · obtain ⟨rfl, rfl⟩ := Stateful.pure_ok.mp built
    refine ⟨rfl, sorted.symm, ?_⟩
    rintro other ⟨⟩
    exact case
  · obtain ⟨rfl, rfl⟩ := Stateful.pure_ok.mp built
    exact ⟨rfl, unsorted.symm, nofun⟩
  · obtain ⟨rfl, same⟩ := Build.tells_remark _ _ _ _ _ built
    exact ⟨same, unsorted.symm, nofun⟩

/-- A binary operator is applied by its term alone; a rounding mode that is created
for it is not a binding. -/
theorem applyBinary_outcome {operator : Operator} {tag : Tag} {text : Json}
    {left right : TypedTerm} {run : Run} {events : List Event} {final : Progress}
    {result : Option TypedTerm}
    (built : applyBinary operator tag text left right ⟨.opened run, events⟩ = .ok result final) :
    ∃ later news, final = ⟨.opened later, news⟩ ∧ later.bindings = run.bindings ∧
      later.hasRoundingMode = (run.hasRoundingMode || rounds tag) ∧
      (binaryTerm tag left right = .ok result ∨
        (∃ mismatch, binaryTerm tag left right = .error mismatch) ∧ result = none) := by
  unfold applyBinary at built
  cases applied : binaryTerm tag left right with
  | ok term =>
      rw [applied] at built
      cases needed : rounds tag with
      | false =>
          rw [needed] at built
          obtain ⟨rfl, rfl⟩ := Stateful.pure_ok.mp built
          exact ⟨run, events, rfl, rfl, by simp, Or.inl rfl⟩
      | true =>
          rw [needed] at built
          obtain ⟨_, middle, created, rested⟩ := Stateful.bind_ok built
          rw [Build.useRoundingMode_opened] at created
          cases created
          obtain ⟨rfl, rfl⟩ := Stateful.pure_ok.mp rested
          exact ⟨_, _, rfl, rfl, by simp, Or.inl rfl⟩
  | error mismatch =>
      rw [applied] at built
      cases needed : rounds tag with
      | false =>
          rw [needed] at built
          cases built
          exact ⟨run, _, rfl, rfl, by simp, Or.inr ⟨⟨mismatch, rfl⟩, rfl⟩⟩
      | true =>
          rw [needed] at built
          obtain ⟨_, middle, created, rested⟩ := Stateful.bind_ok built
          rw [Build.useRoundingMode_opened] at created
          cases created
          cases rested
          exact ⟨_, _, rfl, rfl, by simp, Or.inr ⟨⟨mismatch, rfl⟩, rfl⟩⟩

theorem applyBinary_case {operator : Operator} {tag : Tag} {text : Json}
    {left right : TypedTerm} {run : Run} {events : List Event} {final : Progress}
    {result : Option TypedTerm}
    (built : applyBinary operator tag text left right ⟨.opened run, events⟩ = .ok result final) :
    ∃ later news, final = ⟨.opened later, news⟩ ∧ later.bindings = run.bindings ∧
      later.hasRoundingMode = (run.hasRoundingMode || rounds tag) ∧
      result.map (·.sort) = binarySort? tag left.sort right.sort ∧
      ∀ term, result = some term → BinaryCase left right tag term := by
  obtain ⟨later, news, rfl, same, mode, outcome⟩ := applyBinary_outcome built
  refine ⟨later, news, rfl, same, mode, ?_⟩
  rcases binaryTerm_cases tag left right with
    ⟨term, applied, case, sorted⟩ | ⟨applied | ⟨mismatch, applied⟩, unsorted⟩ <;>
    rw [applied] at outcome
  · rcases outcome with outcome | ⟨⟨_, ⟨⟩⟩, -⟩
    cases outcome
    refine ⟨sorted.symm, ?_⟩
    rintro other ⟨⟩
    exact case
  · rcases outcome with outcome | ⟨⟨_, ⟨⟩⟩, -⟩
    cases outcome
    exact ⟨unsorted.symm, nofun⟩
  · rcases outcome with outcome | ⟨-, rfl⟩
    · cases outcome
    · exact ⟨unsorted.symm, nofun⟩

theorem Denotes.operand {node : Expr} {run : Run} {term : TypedTerm} {V : Valuation}
    {assign : Assignment} (inside : node.preorder ⊆ root.preorder) (fits : V.Fits root)
    (denotes : Denotes root run (some term) (operandSort? node) fun V => V.operandValue? node)
    (agrees : V.Agrees root run assign) :
    ∃ x, V.operandValue? node = some x ∧ term.term.eval assign = some x ∧ x.sort = term.sort := by
  have sorted := sort_operandValue? fits (inside node.self_mem_preorder) (sort_value? fits node inside)
  rw [← denotes.sort] at sorted
  obtain ⟨x, value, same⟩ := Option.map_eq_some_iff.mp sorted
  have evaluated := denotes.value V assign fits agrees
  rw [value] at evaluated
  exact ⟨x, value, evaluated, same⟩

theorem unary_yields {operand : Expr} (operator : Operator) (tag : Tag) (text : Json)
    (inside : operand.preorder ⊆ root.preorder) {step : Build (Option TypedTerm)}
    (yields : step.Yields root (operandSort? operand) fun V => V.operandValue? operand) :
    (do match ← step with
        | none => pure none
        | some term => applyUnary operator tag text term : Build (Option TypedTerm)).Yields root
      ((operandSort? operand).bind (unarySort? tag))
      fun V => (V.operandValue? operand).bind (unaryValue? tag) := by
  intro run events result final explained built
  obtain ⟨term, middle, stepped, rested⟩ := Stateful.bind_ok built
  obtain ⟨later, news, rfl, grown, laterExplained, denotes⟩ :=
    yields run events term middle explained stepped
  cases term with
  | none =>
      obtain ⟨rfl, rfl⟩ := Stateful.pure_ok.mp rested
      refine ⟨later, news, rfl, grown, laterExplained, by rw [← denotes.sort]; rfl, ?_⟩
      intro V assign fits agrees
      rw [← denotes.value V assign fits agrees]
      rfl
  | some term =>
      obtain ⟨same, sorted, case⟩ := applyUnary_case rested
      obtain ⟨session, more⟩ := final
      cases same
      refine ⟨later, more, rfl, grown, laterExplained, by rw [sorted, ← denotes.sort]; rfl, ?_⟩
      intro V assign fits agrees
      obtain ⟨x, value, evaluated, valueSort⟩ := denotes.operand inside fits agrees
      rw [value, Option.bind_some]
      cases result with
      | some result => exact (case result rfl).eval evaluated valueSort
      | none =>
          have unsorted := sort_unaryValue? tag x
          rw [valueSort, ← sorted] at unsorted
          exact (Option.map_eq_none_iff.mp unsorted).symm

theorem binary_yields {left right : Expr} (operator : Operator) (tag : Tag) (text : Json)
    (leftInside : left.preorder ⊆ root.preorder) (rightInside : right.preorder ⊆ root.preorder)
    {leftStep rightStep : Build (Option TypedTerm)}
    (leftYields : leftStep.Yields root (operandSort? left) fun V => V.operandValue? left)
    (rightYields : rightStep.Yields root (operandSort? right) fun V => V.operandValue? right) :
    (do match ← leftStep with
        | none => pure none
        | some leftTerm =>
          match ← rightStep with
          | none => pure none
          | some rightTerm => applyBinary operator tag text leftTerm rightTerm :
      Build (Option TypedTerm)).Yields root
      ((operandSort? left).bind fun s => (operandSort? right).bind fun t => binarySort? tag s t)
      fun V => (V.operandValue? left).bind fun x =>
        (V.operandValue? right).bind fun y => binaryValue? V.mode tag x y := by
  intro run events result final explained built
  obtain ⟨leftTerm, middle, stepped, rested⟩ := Stateful.bind_ok built
  obtain ⟨later, news, rfl, grown, laterExplained, leftDenotes⟩ :=
    leftYields run events leftTerm middle explained stepped
  cases leftTerm with
  | none =>
      obtain ⟨rfl, rfl⟩ := Stateful.pure_ok.mp rested
      refine ⟨later, news, rfl, grown, laterExplained, by rw [← leftDenotes.sort]; rfl, ?_⟩
      intro V assign fits agrees
      rw [← leftDenotes.value V assign fits agrees]
      rfl
  | some leftTerm =>
      obtain ⟨rightTerm, middle, stepped, rested⟩ := Stateful.bind_ok rested
      obtain ⟨last, more, rfl, lastGrown, lastExplained, rightDenotes⟩ :=
        rightYields later news rightTerm middle laterExplained stepped
      have leftLast := leftDenotes.extend lastGrown
      have leftSorted : some leftTerm.sort = operandSort? left := leftDenotes.sort
      cases rightTerm with
      | none =>
          obtain ⟨rfl, rfl⟩ := Stateful.pure_ok.mp rested
          refine ⟨last, more, rfl, grown.trans lastGrown, lastExplained, ?_, ?_⟩
          · rw [← leftSorted, ← rightDenotes.sort]
            rfl
          · intro V assign fits agrees
            rw [← rightDenotes.value V assign fits agrees]
            cases V.operandValue? left <;> rfl
      | some rightTerm =>
          obtain ⟨ended, final, rfl, same, -, sorted, case⟩ := applyBinary_case rested
          have rightSorted : some rightTerm.sort = operandSort? right := rightDenotes.sort
          refine ⟨ended, final, rfl, ?_, lastExplained.congr same, ?_, ?_⟩
          · rw [same]
            exact grown.trans lastGrown
          · rw [sorted, ← leftSorted, ← rightSorted]
            rfl
          · intro V assign fits agrees
            have agreesLast : V.Agrees root last assign :=
              agrees.earlier (by simp [same])
            obtain ⟨x, leftValue, leftEval, leftSort⟩ :=
              leftLast.operand leftInside fits agreesLast
            obtain ⟨y, rightValue, rightEval, rightSort⟩ :=
              rightDenotes.operand rightInside fits agreesLast
            rw [leftValue, Option.bind_some, rightValue, Option.bind_some]
            cases result with
            | some result =>
                exact (case result rfl).eval (fun _ => agrees.mode) leftEval leftSort rightEval
                  rightSort
            | none =>
                have unsorted := sort_binaryValue? V.mode tag x y
                rw [leftSort, rightSort, ← sorted] at unsorted
                exact (Option.map_eq_none_iff.mp unsorted).symm

/-- A node is turned into a term of its sort and its value, at whatever depth. -/
theorem nodeTerm_yields (shares : SharesSorts root) (node : Expr)
    (inside : node.preorder ⊆ root.preorder) :
    ∀ depth, (nodeTerm node depth).Yields root (formulaSort? node) fun V => V.value? node := by
  induction node using Expr.operandInduction with
  | literal constant type text =>
      intro depth
      have yields : (orElse (some constant) (pure none)).Yields root _ _ :=
        orElse_yields (yields_of_tells (Build.tells_pure none))
      simp only [Option.or_none] at yields
      rw [nodeTerm]
      exact yields
  | unmodelled shape type text children constant =>
      intro depth
      have yields : (orElse constant (without (.unmodelledNode text))).Yields root _ _ :=
        orElse_yields (yields_of_tells (Build.tells_remark _ _))
      simp only [Option.or_none] at yields
      rw [nodeTerm]
      exact yields
  | reference declaration type text constant =>
      intro depth
      rw [nodeTerm]
      refine orElse_yields ?_
      cases known : declaration.filter (·.isVariable) with
      | none => exact yields_of_tells (Build.tells_remark _ _)
      | some declaration => exact bindDeclaration_yields (Option.filter_eq_some_iff.mp known).2
  | unary resolution operand type text constant ih =>
      intro depth
      have below := List.Subset.trans Expr.operand_preorder inside
      rw [nodeTerm]
      refine orElse_yields (yields_seq_tells (predefinedOperator_tells resolution text) ?_)
      unfold unaryTag?
      cases resolution.predefined? with
      | none => exact yields_of_tells (Build.tells_pure none)
      | some operator =>
          refine yields_seq_tells (unaryTag_tells operator text) ?_
          simp only [Option.bind_eq_bind, Option.bind_some]
          cases operator.tag.filter isModelledUnary with
          | none => exact yields_of_tells (Build.tells_pure none)
          | some tag =>
              cases depth with
              | zero => exact yields_throw _ _ _
              | succ depth =>
                  exact unary_yields operator tag text below
                    (operandTerm_yields shares below (ih below depth))
  | binary resolution left right type text constant leftIh rightIh =>
      intro depth
      have leftBelow := List.Subset.trans Expr.left_preorder inside
      have rightBelow := List.Subset.trans Expr.right_preorder inside
      rw [nodeTerm]
      refine orElse_yields (yields_seq_tells (predefinedOperator_tells resolution text) ?_)
      unfold binaryTag?
      cases resolution.predefined? with
      | none => exact yields_of_tells (Build.tells_pure none)
      | some operator =>
          refine yields_seq_tells (binaryTag_tells operator text) ?_
          simp only [Option.bind_eq_bind, Option.bind_some]
          cases (Family.ofType? operator.returnType).bind fun family =>
              operator.tag.filter (binaryFamily? · = some family) with
          | none => exact yields_of_tells (Build.tells_pure none)
          | some tag =>
              cases depth with
              | zero => exact yields_throw _ _ _
              | succ depth =>
                  exact binary_yields operator tag text leftBelow rightBelow
                    (operandTerm_yields shares leftBelow (leftIh leftBelow depth))
                    (operandTerm_yields shares rightBelow (rightIh rightBelow depth))

theorem formulate_yields [Limits] (shares : SharesSorts root) :
    (formulate root).Yields root (formulaSort? root) fun V => V.value? root := by
  intro run events result final explained built
  obtain ⟨term, middle, stepped, rested⟩ := Stateful.bind_ok built
  obtain ⟨later, news, rfl, grown, laterExplained, denotes⟩ :=
    nodeTerm_yields shares root (List.Subset.refl _) Limits.formula run events term middle explained
      stepped
  cases term with
  | some term =>
      obtain ⟨rfl, rfl⟩ := Stateful.pure_ok.mp rested
      exact ⟨later, news, rfl, grown, laterExplained, denotes⟩
  | none =>
      cases rested
      exact ⟨later, _, rfl, grown, laterExplained, denotes⟩

end Steps

end Analysis

end CondSat
