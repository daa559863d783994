import CondSat.Analysis.ConstantTerm
import CondSat.Analysis.OperatorMeaning
import CondSat.Limits

/-! # Formulas of expression trees

`formulate` turns a tree into a term.  A node with an encodable constant is
that constant, whatever its shape.  An operand without a term of its own is
replaced by an unknown of its static type; the root is not, so that a tree
which is not modelled at all has no formula. -/
set_option autoImplicit false
namespace CondSat.Analysis

open Source

/-- The constant when it has a term, else what the node means without it. -/
def orElse (constant : Option Constant) (rest : Build (Option TypedTerm)) :
    Build (Option TypedTerm) := do
  match ← constantTerm constant with
  | some term => pure (some term)
  | none => rest

/-- An operand without a term is replaced by an unknown. -/
def operandTerm (node : Expr) (term : Build (Option TypedTerm)) : Build (Option TypedTerm) := do
  match ← term with
  | some term => pure (some term)
  | none => Build.bindUnmodelled node

def without (event : Event) : Build (Option TypedTerm) := do
  Build.report [event]
  pure none

def predefinedOperator (resolution : Resolution) (text : Json) : Build (Option Operator) := do
  match resolution.predefined? with
  | some operator => pure (some operator)
  | none => do
    Build.report [.notPredefined text resolution.status]
    pure none

/-- The tag of a binary operator that has a meaning in the family of the type
it returns. -/
def binaryTag (operator : Operator) (text : Json) : Build (Option Tag) := do
  match Family.ofType? operator.returnType with
  | none => do
    Build.report [.unmodelledBinary operator.name operator.returnType text]
    pure none
  | some family =>
    if operator.tag.any isUnmodelled then do
      Build.report [.unmodelledBinary operator.name operator.returnType text]
      pure none
    else
      match operator.tag.filter (binaryFamily? · = some family) with
      | some tag => pure (some tag)
      | none => do
        Build.report [.unknownBinary family.name operator.name text]
        pure none

def unaryTag (operator : Operator) (text : Json) : Build (Option Tag) := do
  if operator.tag.any isUnmodelled then do
    Build.report [.unmodelledUnary operator.name text]
    pure none
  else
    match operator.tag.filter isModelledUnary with
    | some tag => pure (some tag)
    | none => do
      Build.report [.unknownUnary operator.name text]
      pure none

def applyBinary (operator : Operator) (tag : Tag) (text : Json) (left right : TypedTerm) :
    Build (Option TypedTerm) := do
  if rounds tag then Build.useRoundingMode
  match binaryTerm tag left right with
  | .ok term => pure term
  | .error mismatch => without (.operandsDoNotFit operator.name text mismatch)

def applyUnary (operator : Operator) (tag : Tag) (text : Json) (operand : TypedTerm) :
    Build (Option TypedTerm) := do
  match unaryTerm tag operand with
  | .ok term => pure term
  | .error mismatch => without (.operandDoesNotFit operator.name text mismatch)

/-- The term of a node, with `depth` levels of operators to go. -/
def nodeTerm : Expr → Nat → Build (Option TypedTerm)
  | .literal constant _ _, _ => orElse (some constant) (pure none)
  | .reference declaration _ text constant, _ => orElse constant do
    match declaration.filter (·.isVariable) with
    | some declaration => Build.bindDeclaration declaration
    | none => without (.unmodelledNode text)
  | .unmodelled _ _ text _ constant, _ => orElse constant (without (.unmodelledNode text))
  | .unary resolution operand _ text constant, depth => orElse constant do
    match ← predefinedOperator resolution text with
    | none => pure none
    | some operator =>
      match ← unaryTag operator text with
      | none => pure none
      | some tag =>
        match depth with
        | 0 => throw .tooDeep
        | depth + 1 =>
          match ← operandTerm operand (nodeTerm operand depth) with
          | none => pure none
          | some term => applyUnary operator tag text term
  | .binary resolution left right _ text constant, depth => orElse constant do
    match ← predefinedOperator resolution text with
    | none => pure none
    | some operator =>
      match ← binaryTag operator text with
      | none => pure none
      | some tag =>
        match depth with
        | 0 => throw .tooDeep
        | depth + 1 =>
          match ← operandTerm left (nodeTerm left depth) with
          | none => pure none
          | some leftTerm =>
            match ← operandTerm right (nodeTerm right depth) with
            | none => pure none
            | some rightTerm => applyBinary operator tag text leftTerm rightTerm

def formulate [Limits] (root : Expr) : Build (Option TypedTerm) := do
  match ← nodeTerm root Limits.formula with
  | some term => pure (some term)
  | none => without (.noFormula root.text)

def Build.outcome {α : Type} (step : Build α) (session : Session) : Except Failure α × Progress :=
  match EStateM.run step ⟨session, []⟩ with
  | .ok value progress => (.ok value, progress)
  | .error failure progress => (.error failure, progress)

end CondSat.Analysis
