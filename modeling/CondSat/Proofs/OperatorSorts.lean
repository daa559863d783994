import CondSat.Proofs.LargeNumbers
import CondSat.Proofs.Witness
import CondSat.Source.Decode

/-! # Sorts of operator nodes

The signature of an operator says which kind its operands are converted to and which type
its result has.  A node whose operands have the sorts of the signature has the sort of the
result.  Where they do not, the node has no term, with one exception: the signs of
floating-point numbers take a number of either width and give it back as it is.

The operands of a node are those that building its formula finds, in any session that
formulas are built in. -/
set_option autoImplicit false
namespace CondSat

open Solver (Value ValueSort)
open Source

/-! ## Sorts of values -/

def IsValueSort (sort : ValueSort) : Prop := ∃ kind : Kind, kind.sort? = some sort

namespace Source

theorem IntegerType.sort?_kind (type : IntegerType) :
    type.kind.sort? = some (.bits type.width) := by
  cases type <;> rfl

theorem IntegerType.sort?_type (type : IntegerType) :
    type.type.sort? = some (.bits type.width) := by
  cases type <;> rfl

theorem FloatType.sort?_type (type : FloatType) : type.type.sort? = type.kind.sort? := by
  cases type <;> rfl

theorem FloatType.sort?_eq_iff (type : FloatType) {format : Ieee.Format}
    (isValueSort : IsValueSort (.float format)) :
    type.kind.sort? = some (.float format) ↔ format.width = type.width := by
  obtain ⟨kind, sorted⟩ := isValueSort
  cases kind <;> cases sorted <;> cases type <;> decide

/-- Whether operands have the sorts that the signature of an operator asks for: an operator
on enumerations takes any two bit-vectors of one width, and a shift takes an `int` as its
count. -/
def Tag.fits (tag : Tag) (sorts : List ValueSort) : Bool :=
  match tag with
  | .enumEqual | .enumUnequal =>
    match sorts with
    | [.bits left, .bits right] => left == right
    | _ => false
  | .shift _ _ => sorts.map some == [tag.signature.operand.sort?, Kind.int.sort?]
  | _ => sorts.map some == List.replicate (if tag.isUnary then 1 else 2) tag.signature.operand.sort?

end Source

namespace Analysis

/-- What a sign in front of a floating-point number gives, whatever its width. -/
def signSort? (tag : Tag) (sorts : List ValueSort) : Option ValueSort :=
  match tag, sorts with
  | .floatMinus _, [.float format] | .floatPlus _, [.float format] => some (.float format)
  | _, _ => none

theorem fits_one {sort : ValueSort} {operand : Option ValueSort} :
    ([sort].map some == List.replicate 1 operand) = true ↔ some sort = operand := by
  simp [List.replicate]

theorem fits_two {left right : ValueSort} {operand : Option ValueSort} :
    ([left, right].map some == List.replicate 2 operand) = true ↔
      some left = operand ∧ some right = operand := by
  simp [List.replicate]

theorem unarySort?_eq {tag : Tag} {operand : ValueSort} (modelled : isModelledUnary tag = true) :
    unarySort? tag operand =
      if tag.fits [operand] then tag.signature.result.sort? else signSort? tag [operand] := by
  have fits : tag.fits [operand] = true ↔ some operand = tag.signature.operand.sort? := by
    cases tag with
    | complement | minus | plus | negation | floatMinus | floatPlus => exact fits_one
    | _ => cases modelled
  simp only [fits]
  cases tag with
  | complement type | plus type =>
      simp only [unarySort?, Tag.signature, type.sort?_kind, type.sort?_type, Option.some_inj,
        signSort?]
  | minus type =>
      simp only [unarySort?, Tag.signature, type.toInteger.sort?_kind, type.toInteger.sort?_type,
        Option.some_inj, signSort?]
  | negation =>
      have plain : Kind.bool.sort? = some .bool := rfl
      have result : SourceType.bool.sort? = some .bool := rfl
      simp only [unarySort?, Tag.signature, plain, result, Option.some_inj, signSort?]
  | floatMinus type | floatPlus type =>
      cases operand with
      | float format =>
          -- the sort of the operand is given back, which is that of the result if they agree
          simp only [unarySort?, Tag.signature, type.sort?_type, signSort?]
          split
          · next same => exact same
          · rfl
      | _ => cases type <;> rfl
  | _ => cases modelled

theorem floatPair_fits {type : FloatType} {format : Ieee.Format} {right : ValueSort}
    (isValueSort : IsValueSort (.float format)) :
    (some (.float format) = type.kind.sort? ∧ some right = type.kind.sort?) ↔
      right = .float format ∧ format.width = type.width := by
  rw [← type.sort?_eq_iff isValueSort]
  constructor
  · rintro ⟨same, other⟩
    exact ⟨Option.some_inj.mp (other.trans same.symm), same.symm⟩
  · rintro ⟨rfl, same⟩
    exact ⟨same.symm, same.symm⟩

theorem binarySort?_eq {tag : Tag} {family : Family} {left right : ValueSort}
    (modelled : binaryFamily? tag = some family) (isValueSort : IsValueSort left) :
    binarySort? tag left right =
      if tag.fits [left, right] then tag.signature.result.sort?
      else signSort? tag [left, right] := by
  have result : SourceType.bool.sort? = some .bool := rfl
  cases tag with
  | connective op =>
      have plain : Kind.bool.sort? = some .bool := rfl
      have fits : (Tag.connective op).fits [left, right] = true ↔ _ := fits_two
      simp only [binarySort?, fits, signSort?, Tag.signature, plain, result, Option.some_inj]
  | comparison op type =>
      have fits : (Tag.comparison op type).fits [left, right] = true ↔ _ := fits_two
      simp only [binarySort?, fits, signSort?, Tag.signature, type.sort?_kind, result,
        Option.some_inj]
  | arithmetic op type =>
      have fits : (Tag.arithmetic op type).fits [left, right] = true ↔ _ := fits_two
      simp only [binarySort?, fits, signSort?, Tag.signature, type.sort?_kind, type.sort?_type,
        Option.some_inj]
  | bitwise op type =>
      have fits : (Tag.bitwise op type).fits [left, right] = true ↔ _ := fits_two
      simp only [binarySort?, fits, signSort?, Tag.signature, type.sort?_kind, type.sort?_type,
        Option.some_inj]
  | shift op type =>
      have count : Kind.int.sort? = some (.bits countWidth) := rfl
      have fits : (Tag.shift op type).fits [left, right] = true ↔
          left = .bits type.width ∧ right = .bits countWidth := by
        simp [Tag.fits, Tag.signature, type.sort?_kind, count]
      simp only [binarySort?, fits, signSort?, Tag.signature, type.sort?_type]
  | enumEqual | enumUnequal =>
      cases left with
      | bits m =>
          cases right with
          | bits n =>
              have same : ValueSort.bits n = .bits m ↔ m = n := by simp [eq_comm]
              simp only [binarySort?, Tag.fits, signSort?, Tag.signature, result, same, beq_iff_eq]
          | _ => rfl
      | _ => rfl
  | floatComparison op type =>
      have fits : (Tag.floatComparison op type).fits [left, right] = true ↔ _ := fits_two
      simp only [fits, Tag.signature, result, signSort?]
      cases left with
      | float format => simp only [binarySort?, floatPair_fits isValueSort]
      | _ => cases type <;> rfl
  | floatArithmetic op type =>
      have fits : (Tag.floatArithmetic op type).fits [left, right] = true ↔ _ := fits_two
      simp only [fits, Tag.signature, type.sort?_type, signSort?]
      cases left with
      | float format =>
          simp only [binarySort?, floatPair_fits isValueSort]
          split
          · next same => exact ((type.sort?_eq_iff isValueSort).mpr same.2).symm
          · rfl
      | _ => cases type <;> rfl
  | _ => cases modelled

/-! ## Operator nodes -/

theorem nodeTerm_eq_orElse (node : Expr) (depth : Nat) :
    ∃ rest, nodeTerm node depth = orElse node.constant? rest := by
  cases node <;> exact ⟨_, by rw [nodeTerm]; rfl⟩

def nodeTag? : Expr → Option Tag
  | .unary resolution _ _ _ _ => unaryTag? resolution
  | .binary resolution _ _ _ _ _ => binaryTag? resolution
  | _ => none

/-- The terms of operands one after the other, up to the first that has none. -/
def operandTerms : List Expr → Nat → Build (Option (List TypedTerm))
  | [], _ => pure (some [])
  | node :: rest, depth => do
    match ← operandTerm node (nodeTerm node depth) with
    | none => pure none
    | some term =>
      match ← operandTerms rest depth with
      | none => pure none
      | some terms => pure (some (term :: terms))

def appliedSort? (tag : Tag) : List ValueSort → Option ValueSort
  | [operand] => unarySort? tag operand
  | [left, right] => binarySort? tag left right
  | _ => none

section

variable {run : Run} {events : List Event} {result : Option TypedTerm} {final : Progress}

theorem Build.Tells.next {α : Type} {step : Build α} {answer : α} (tells : step.Tells answer)
    {next : α → Build (Option TypedTerm)}
    (built : (step >>= next) ⟨.opened run, events⟩ = .ok result final) :
    ∃ news, next answer ⟨.opened run, news⟩ = .ok result final := by
  obtain ⟨told, ⟨session, news⟩, stepped, rested⟩ := Stateful.bind_ok built
  obtain ⟨rfl, same⟩ := tells _ _ _ stepped
  cases same
  exact ⟨news, rested⟩

theorem orElse_cases {constant : Option Constant} {rest : Build (Option TypedTerm)}
    (built : orElse constant rest ⟨.opened run, events⟩ = .ok result final) :
    (∃ term, result = some term ∧ constant.bind constantSort? = some term.sort) ∨
      constant.bind constantSort? = none ∧
        ∃ news, rest ⟨.opened run, news⟩ = .ok result final := by
  obtain ⟨found, ⟨session, news⟩, told, rested⟩ := Stateful.bind_ok built
  obtain ⟨same, sorted, -⟩ := constantTerm_value told
  cases same
  have encoded : (constant.bind constantValue?).map Value.sort = constant.bind constantSort? := by
    cases constant with
    | none => rfl
    | some constant => exact constantValue?_sort (encodes_of_constantTerm told)
  rw [encoded] at sorted
  cases found with
  | some term =>
      obtain ⟨rfl, -⟩ := Stateful.pure_ok.mp rested
      exact Or.inl ⟨term, rfl, sorted.symm⟩
  | none => exact Or.inr ⟨sorted.symm, news, rested⟩

/-- The way to the operator of a node: past its constant, to an operator that is resolved,
predefined and modelled. -/
theorem modelled_cases {constant : Option Constant} {resolution : Resolution} {text : Json}
    {tagStep : Operator → Json → Build (Option Tag)} {tagOf : Operator → Option Tag}
    {apply : Operator → Tag → Build (Option TypedTerm)}
    (tells : ∀ operator, (tagStep operator text).Tells (tagOf operator))
    (bare : constant.bind constantSort? = none)
    (built : orElse constant (do
        match ← predefinedOperator resolution text with
        | none => pure none
        | some operator =>
          match ← tagStep operator text with
          | none => pure none
          | some tag => apply operator tag) ⟨.opened run, events⟩ = .ok result final) :
    (resolution.predefined?.bind tagOf = none ∧ result = none) ∨
      ∃ operator tag news, resolution.predefined?.bind tagOf = some tag ∧
        apply operator tag ⟨.opened run, news⟩ = .ok result final := by
  rcases orElse_cases built with ⟨term, -, encoded⟩ | ⟨-, news, built⟩
  · rw [bare] at encoded
    cases encoded
  · obtain ⟨news, built⟩ := (predefinedOperator_tells resolution text).next built
    cases resolved : resolution.predefined? with
    | none =>
        rw [resolved] at built
        obtain ⟨rfl, -⟩ := Stateful.pure_ok.mp built
        exact Or.inl ⟨rfl, rfl⟩
    | some operator =>
        rw [resolved] at built
        obtain ⟨news, built⟩ := (tells operator).next built
        rw [Option.bind_some]
        cases tagged : tagOf operator with
        | none =>
            rw [tagged] at built
            obtain ⟨rfl, -⟩ := Stateful.pure_ok.mp built
            exact Or.inl ⟨rfl, rfl⟩
        | some tag =>
            rw [tagged] at built
            exact Or.inr ⟨operator, tag, news, rfl, built⟩

theorem unary_cases {resolution : Resolution} {operand : Expr} {type : SourceType} {text : Json}
    {constant : Option Constant} {depth : Nat} (bare : constant.bind constantSort? = none)
    (built : nodeTerm (.unary resolution operand type text constant) depth ⟨.opened run, events⟩ =
      .ok result final) :
    (unaryTag? resolution = none ∧ result = none) ∨
      ∃ tag level news operands middle, unaryTag? resolution = some tag ∧ depth = level + 1 ∧
        operandTerms [operand] level ⟨.opened run, news⟩ = .ok operands middle ∧
        result.map (·.sort) = operands.bind fun terms => appliedSort? tag (terms.map (·.sort)) := by
  rw [nodeTerm] at built
  rcases modelled_cases (unaryTag_tells · text) bare built with
    unmodelled | ⟨operator, tag, news, tagged, built⟩
  · exact Or.inl unmodelled
  · cases depth with
    | zero => cases built
    | succ level =>
        obtain ⟨term, middle, stepped, rested⟩ := Stateful.bind_ok built
        have alone : operandTerms [operand] level ⟨.opened run, news⟩ =
            .ok (term.map ([·])) middle := by
          rw [operandTerms, Stateful.bind_apply, stepped]
          cases term <;> rfl
        refine Or.inr ⟨tag, level, news, _, middle, tagged, rfl, alone, ?_⟩
        cases term with
        | none =>
            obtain ⟨rfl, -⟩ := Stateful.pure_ok.mp rested
            rfl
        | some term => exact (applyUnary_case rested).2.1

theorem binary_cases {resolution : Resolution} {left right : Expr} {type : SourceType}
    {text : Json} {constant : Option Constant} {depth : Nat}
    (bare : constant.bind constantSort? = none)
    (built : nodeTerm (.binary resolution left right type text constant) depth
      ⟨.opened run, events⟩ = .ok result final) :
    (binaryTag? resolution = none ∧ result = none) ∨
      ∃ tag level news operands middle, binaryTag? resolution = some tag ∧ depth = level + 1 ∧
        operandTerms [left, right] level ⟨.opened run, news⟩ = .ok operands middle ∧
        result.map (·.sort) = operands.bind fun terms => appliedSort? tag (terms.map (·.sort)) := by
  rw [nodeTerm] at built
  rcases modelled_cases (binaryTag_tells · text) bare built with
    unmodelled | ⟨operator, tag, news, tagged, built⟩
  · exact Or.inl unmodelled
  · cases depth with
    | zero => cases built
    | succ level =>
        obtain ⟨leftTerm, middle, leftBuilt, rested⟩ := Stateful.bind_ok built
        cases leftTerm with
        | none =>
            obtain ⟨rfl, -⟩ := Stateful.pure_ok.mp rested
            refine Or.inr ⟨tag, level, news, none, middle, tagged, rfl, ?_, rfl⟩
            rw [operandTerms, Stateful.bind_apply, leftBuilt]
            rfl
        | some leftTerm =>
            obtain ⟨rightTerm, last, rightBuilt, rested⟩ := Stateful.bind_ok rested
            have both : operandTerms [left, right] level ⟨.opened run, news⟩ =
                .ok (rightTerm.map ([leftTerm, ·])) last := by
              rw [operandTerms, Stateful.bind_apply, leftBuilt]
              dsimp only
              rw [operandTerms, Stateful.bind_apply, Stateful.bind_apply, rightBuilt]
              cases rightTerm <;> rfl
            refine Or.inr ⟨tag, level, news, _, last, tagged, rfl, both, ?_⟩
            cases rightTerm with
            | none =>
                obtain ⟨rfl, -⟩ := Stateful.pure_ok.mp rested
                rfl
            | some rightTerm =>
                -- the session is still open after both operands
                obtain ⟨later, more, rfl⟩ :=
                  (operandTerm_follows left (nodeTerm_follows left level)).opened leftBuilt
                obtain ⟨ended, latest, rfl⟩ :=
                  (operandTerm_follows right (nodeTerm_follows right level)).opened rightBuilt
                obtain ⟨_, _, -, -, -, sorted, -⟩ := applyBinary_case rested
                exact sorted

end

/-- What an operator node does in an open session: it has no term when its operator is not
modelled, and else what the operator makes of its operands. -/
theorem operator_cases {node : Expr} {resolution : Resolution} {depth : Nat} {run : Run}
    {events : List Event} {result : Option TypedTerm} {final : Progress}
    (isOperator : node.operator? = some resolution)
    (bare : node.constant?.bind constantSort? = none)
    (built : nodeTerm node depth ⟨.opened run, events⟩ = .ok result final) :
    (nodeTag? node = none ∧ result = none) ∨
      ∃ tag level news operands middle, nodeTag? node = some tag ∧ depth = level + 1 ∧
        operandTerms node.children level ⟨.opened run, news⟩ = .ok operands middle ∧
        result.map (·.sort) = operands.bind fun terms => appliedSort? tag (terms.map (·.sort)) := by
  cases node with
  | unary => exact unary_cases bare built
  | binary => exact binary_cases bare built
  | _ => cases isOperator

/-! ## Sorts of operands -/

/-- A session in which only constants of the sorts of types are bound. -/
def Run.TypeSorted (run : Run) : Prop := ∀ entry ∈ run.bindings.bound, IsTypeSort entry.2.sort

theorem IsTypeSort.isValueSort {sort : ValueSort} (isTypeSort : IsTypeSort sort) :
    IsValueSort sort := by
  obtain ⟨type, sorted⟩ := isTypeSort
  exact ⟨type.valueKind, sorted⟩

theorem Build.Follows.typeSorted {α : Type} {step : Build α} (follows : step.Follows) {run : Run}
    {events : List Event} {value : α} {final : Progress} (sorted : run.TypeSorted)
    (built : step ⟨.opened run, events⟩ = .ok value final) :
    ∃ later news, final = ⟨.opened later, news⟩ ∧ later.TypeSorted := by
  obtain ⟨later, news, rfl⟩ := follows.opened built
  have reached := follows ⟨.opened run, events⟩
  rw [Build.after_ok built] at reached
  refine ⟨later, news, rfl, reached.typeSorts ?_ later rfl⟩
  rintro _ ⟨⟩
  exact sorted

def Build.Sorts (step : Build (Option TypedTerm)) : Prop :=
  ∀ run events term final, run.TypeSorted → step ⟨.opened run, events⟩ = .ok (some term) final →
    IsValueSort term.sort

theorem bind_sorts (key : Key) (type : SourceType) (name : String) :
    (Build.bind key type name).Sorts := by
  intro run events term final sorted built
  rw [Build.bind_opened] at built
  rcases run.bindings.bind_cases key type name with
    ⟨known, found, bound⟩ | ⟨-, -, bound⟩ | ⟨sort, -, typed, bound⟩ <;> rw [bound] at built
  · cases built
    exact (sorted _ (Bindings.mem_of_get? found)).isValueSort
  · cases built
  · cases built
    exact ⟨type.valueKind, typed⟩

theorem bindNamed_sorts (key : Key) (type : SourceType) (text : Json) (name : String) :
    (Build.bindNamed key type text name).Sorts := by
  intro run events term final sorted built
  exact bind_sorts key type name run events term final sorted (Build.bindNamed_ok built).2

theorem constantSort?_isValueSort {constant : Option Constant} {sort : ValueSort}
    (encoded : constant.bind constantSort? = some sort) : IsValueSort sort := by
  obtain ⟨known, -, sorted⟩ := Option.bind_eq_some_iff.mp encoded
  rw [constantSort?] at sorted
  split at sorted
  · exact ⟨known.kind, sorted⟩
  · cases sorted

theorem orElse_sorts (constant : Option Constant) {rest : Build (Option TypedTerm)}
    (sorts : rest.Sorts) : (orElse constant rest).Sorts := by
  intro run events term final sorted built
  rcases orElse_cases built with ⟨found, same, encoded⟩ | ⟨-, news, rested⟩
  · cases same
    exact constantSort?_isValueSort encoded
  · exact sorts run news term final sorted rested

theorem operandTerm_sorts {node : Expr} {depth : Nat} (sorts : (nodeTerm node depth).Sorts) :
    (operandTerm node (nodeTerm node depth)).Sorts := by
  intro run events term final sorted built
  obtain ⟨found, middle, stepped, rested⟩ := Stateful.bind_ok built
  cases found with
  | some found =>
      obtain ⟨same, -⟩ := Stateful.pure_ok.mp rested
      cases same
      exact sorts run events term middle sorted stepped
  | none =>
      obtain ⟨later, news, rfl, laterSorted⟩ :=
        (nodeTerm_follows node depth).typeSorted sorted stepped
      exact bindNamed_sorts _ _ _ _ later news term final laterSorted rested

theorem operandTerms_sorts {depth : Nat} {nodes : List Expr} :
    (∀ node ∈ nodes, (nodeTerm node depth).Sorts) →
      ∀ {run : Run} {events : List Event} {terms : List TypedTerm} {final : Progress},
        run.TypeSorted → operandTerms nodes depth ⟨.opened run, events⟩ = .ok (some terms) final →
        terms.length = nodes.length ∧ ∀ term ∈ terms, IsValueSort term.sort := by
  induction nodes with
  | nil =>
      intro each run events terms final sorted built
      cases built
      exact ⟨rfl, by simp⟩
  | cons node rest ih =>
      intro each run events terms final sorted built
      obtain ⟨term, middle, stepped, built⟩ := Stateful.bind_ok built
      cases term with
      | none => cases built
      | some term =>
          have first := operandTerm_sorts (each node List.mem_cons_self) run events term middle
            sorted stepped
          obtain ⟨later, news, rfl, laterSorted⟩ :=
            (operandTerm_follows node (nodeTerm_follows node depth)).typeSorted sorted stepped
          obtain ⟨others, last, followed, built⟩ := Stateful.bind_ok built
          cases others with
          | none => cases built
          | some others =>
              obtain ⟨same, -⟩ := Stateful.pure_ok.mp built
              cases same
              obtain ⟨length, rested⟩ :=
                ih (fun other member => each other (List.mem_cons_of_mem _ member)) laterSorted
                  followed
              exact ⟨by simp [length], List.forall_mem_cons.mpr ⟨first, rested⟩⟩

/-- What an operator makes of sorts of values: the sort of its result where they fit. -/
theorem appliedSort?_eq {node : Expr} {tag : Tag} {sorts : List ValueSort}
    (tagged : nodeTag? node = some tag) (length : sorts.length = node.children.length)
    (valueSorts : ∀ sort ∈ sorts, IsValueSort sort) :
    appliedSort? tag sorts =
      if tag.fits sorts then tag.signature.result.sort? else signSort? tag sorts := by
  cases node with
  | unary resolution operand type text constant =>
      obtain ⟨operand, rfl⟩ := List.length_eq_one_iff.mp length
      obtain ⟨operator, -, found⟩ := Option.bind_eq_some_iff.mp tagged
      exact unarySort?_eq (Option.filter_eq_some_iff.mp found).2
  | binary resolution left right type text constant =>
      obtain ⟨left, right, rfl⟩ := List.length_eq_two.mp length
      obtain ⟨operator, -, found⟩ := Option.bind_eq_some_iff.mp tagged
      obtain ⟨family, -, found⟩ := Option.bind_eq_some_iff.mp found
      have modelled := (Option.filter_eq_some_iff.mp found).2
      exact binarySort?_eq (of_decide_eq_true modelled) (valueSorts left List.mem_cons_self)
  | _ => cases tagged

theorem signSort?_isValueSort {tag : Tag} {sorts : List ValueSort} {sort : ValueSort}
    (valueSorts : ∀ sort ∈ sorts, IsValueSort sort) (signed : signSort? tag sorts = some sort) :
    IsValueSort sort := by
  unfold signSort? at signed
  split at signed
  · cases signed
    exact valueSorts _ List.mem_cons_self
  · cases signed
    exact valueSorts _ List.mem_cons_self
  · cases signed

theorem operator_sorts {node : Expr} {resolution : Resolution} (depth : Nat)
    (isOperator : node.operator? = some resolution)
    (each : ∀ level, ∀ child ∈ node.children, (nodeTerm child level).Sorts) :
    (nodeTerm node depth).Sorts := by
  intro run events term final sorted built
  have answered := built
  obtain ⟨rest, same⟩ := nodeTerm_eq_orElse node depth
  rw [same] at answered
  rcases orElse_cases answered with ⟨found, ⟨⟩, encoded⟩ | ⟨bare, -⟩
  · exact constantSort?_isValueSort encoded
  · rcases operator_cases isOperator bare built with
      ⟨-, ⟨⟩⟩ | ⟨tag, level, news, operands, middle, tagged, -, found, applied⟩
    obtain ⟨terms, rfl, given⟩ := Option.bind_eq_some_iff.mp applied.symm
    obtain ⟨length, valueSorts⟩ := operandTerms_sorts (each level) sorted found
    have mapped : ∀ sort ∈ terms.map (·.sort), IsValueSort sort := by
      simpa using valueSorts
    rw [appliedSort?_eq tagged (by simpa using length) mapped] at given
    split at given
    · exact ⟨_, given⟩
    · exact signSort?_isValueSort mapped given

/-- Every term has the sort of some values, in whatever session it is built. -/
theorem nodeTerm_sorts (node : Expr) : ∀ depth, (nodeTerm node depth).Sorts := by
  induction node using Expr.operandInduction with
  | literal constant type text =>
      intro depth
      rw [nodeTerm]
      exact orElse_sorts _ fun _ _ _ _ _ built => by cases built
  | unmodelled shape type text children constant =>
      intro depth
      rw [nodeTerm]
      exact orElse_sorts _ fun _ _ _ _ _ built => by cases built
  | reference declaration type text constant =>
      intro depth
      rw [nodeTerm]
      refine orElse_sorts _ ?_
      cases declaration.filter (·.isVariable) with
      | none => exact fun _ _ _ _ _ built => by cases built
      | some declaration => exact bindNamed_sorts _ _ _ _
  | unary resolution operand type text constant ih =>
      intro depth
      refine operator_sorts depth rfl fun level child member => ?_
      rw [List.mem_singleton.mp member]
      exact ih level
  | binary resolution left right type text constant leftIh rightIh =>
      intro depth
      refine operator_sorts depth rfl fun level child member => ?_
      rcases List.mem_cons.mp member with rfl | member
      · exact leftIh level
      · rw [List.mem_singleton.mp member]
        exact rightIh level

/-! ## The sort of an operator node -/

theorem nodeTag?_cases {node : Expr} {resolution : Resolution} {tag : Tag}
    (isOperator : node.operator? = some resolution) (tagged : nodeTag? node = some tag) :
    (∃ operator, resolution.predefined? = some operator ∧ operator.tag = some tag) ∧
      ∃ sort, tag.signature.result.sort? = some sort := by
  have modelled : (∃ operator, resolution.predefined? = some operator ∧ operator.tag = some tag) ∧
      (isModelledUnary tag = true ∨ ∃ family, binaryFamily? tag = some family) := by
    cases node with
    | unary resolution operand type text constant =>
        cases isOperator
        obtain ⟨operator, resolved, found⟩ := Option.bind_eq_some_iff.mp tagged
        obtain ⟨isTag, unary⟩ := Option.filter_eq_some_iff.mp found
        exact ⟨⟨operator, resolved, isTag⟩, Or.inl unary⟩
    | binary resolution left right type text constant =>
        cases isOperator
        obtain ⟨operator, resolved, found⟩ := Option.bind_eq_some_iff.mp tagged
        obtain ⟨family, -, found⟩ := Option.bind_eq_some_iff.mp found
        obtain ⟨isTag, binary⟩ := Option.filter_eq_some_iff.mp found
        exact ⟨⟨operator, resolved, isTag⟩, Or.inr ⟨family, of_decide_eq_true binary⟩⟩
    | _ => cases isOperator
  refine ⟨modelled.1, ?_⟩
  cases tag with
  | connective | comparison | floatComparison | enumEqual | enumUnequal | negation => exact ⟨_, rfl⟩
  | arithmetic op type | bitwise op type | shift op type => exact ⟨_, type.sort?_type⟩
  | complement type | plus type => exact ⟨_, type.sort?_type⟩
  | minus type => exact ⟨_, type.toInteger.sort?_type⟩
  | floatArithmetic op type => cases type <;> exact ⟨_, rfl⟩
  | floatMinus type | floatPlus type => cases type <;> exact ⟨_, rfl⟩
  | unmodelled op =>
      rcases modelled.2 with unary | ⟨family, binary⟩
      · cases unary
      · cases binary

/-- In every session that formulas have been built in, an operator node without a constant of
its own has the sort of the result of its operator where the sorts of its operands fit the
operator, and has no term where they do not; only a sign in front of a floating-point number
gives back what it gets. -/
theorem operator_node_has_sort_of_signature {state : Progress}
    (reached : (⟨.start, []⟩ : Progress).Reaches state) {node : Expr} {resolution : Resolution}
    (isOperator : node.operator? = some resolution)
    (bare : node.constant?.bind constantSort? = none) {depth : Nat} {result : Option TypedTerm}
    {final : Progress} (built : nodeTerm node depth state = .ok result final) :
    (nodeTag? node = none ∧ result = none) ∨
    ∃ operator tag level before operands middle,
      resolution.predefined? = some operator ∧ operator.tag = some tag ∧ depth = level + 1 ∧
      before.session = state.session ∧
      operandTerms node.children level before = .ok operands middle ∧
      (operands = none → result = none) ∧
      ∀ terms, operands = some terms →
        (tag.fits (terms.map (·.sort)) = true → ∃ term, result = some term ∧
          tag.signature.result.sort? = some term.sort ∧ term.WellSorted) ∧
        (tag.fits (terms.map (·.sort)) = false →
          result.map (·.sort) = signSort? tag (terms.map (·.sort))) := by
  have start : (⟨.start, []⟩ : Progress).session = .opened .initial := rfl
  obtain ⟨run, opened, -⟩ := reached.extends start
  -- both invariants hold of the empty table that a session starts with
  have sorted : run.TypeSorted := by
    refine reached.typeSorts ?_ run opened
    rintro _ ⟨⟩ entry member
    exact absurd member List.not_mem_nil
  have fresh : (⟨.start, []⟩ : Progress).WellSorted := by
    rintro _ ⟨⟩ entry member
    exact absurd member List.not_mem_nil
  have wellSorted := reached.wellSorted fresh
  rw [Progress.eq_of_session opened] at built
  rcases operator_cases isOperator bare built with
    unmodelled | ⟨tag, level, news, operands, middle, tagged, rfl, found, applied⟩
  · exact Or.inl unmodelled
  · obtain ⟨⟨operator, resolved, isTag⟩, sort, resultSort⟩ := nodeTag?_cases isOperator tagged
    refine Or.inr ⟨operator, tag, level, ⟨.opened run, news⟩, operands, middle, resolved, isTag,
      rfl, opened.symm, found, ?_, ?_⟩
    · rintro rfl
      exact Option.map_eq_none_iff.mp applied
    · rintro terms rfl
      obtain ⟨length, valueSorts⟩ :=
        operandTerms_sorts (fun child _ => nodeTerm_sorts child level) sorted found
      have mapped : ∀ sort ∈ terms.map (·.sort), IsValueSort sort := by
        simpa using valueSorts
      rw [Option.bind_some, appliedSort?_eq tagged (by simpa using length) mapped] at applied
      constructor
      · intro fits
        rw [if_pos fits, resultSort] at applied
        obtain ⟨term, rfl, same⟩ := Option.map_eq_some_iff.mp applied
        refine ⟨term, rfl, by rw [resultSort, same], ?_⟩
        exact ((nodeTerm_assembles node _).wellSorted (nodeTerm_follows node _) rfl
          (Progress.eq_of_session opened ▸ wellSorted) built).1
      · intro fits
        rw [fits, if_neg Bool.false_ne_true] at applied
        exact applied

def negatedDouble : Expr :=
  .unary (.ofTag (.floatMinus .float))
    (.reference (some ⟨"x", .localVariable, .double, 1⟩) .double "x" none) .float "-x" none

def nextInt : Expr :=
  .binary (.ofTag (.arithmetic .plus .int))
    (.reference (some ⟨"i", .parameter, .int, 2⟩) .int "i" none)
    (.literal ⟨.int 1, .int⟩ .int "1") .int "i + 1" none

/-- A sum that is built after another formula in the same session. -/
theorem operator_node_has_sort_of_signature_sum :
    (⟨.start, []⟩ : Progress).Reaches ((formulate negatedDouble).after ⟨.start, []⟩) ∧
    nextInt.operator? = some (.ofTag (.arithmetic .plus .int)) ∧
    nextInt.constant?.bind constantSort? = none ∧
    ∃ term final, nodeTerm nextInt 1 ((formulate negatedDouble).after ⟨.start, []⟩) =
      .ok (some term) final ∧ term.sort = .bits 32 ∧ term.WellSorted := by
  have reached := formulate_follows negatedDouble ⟨.start, []⟩
  have isOperator : nextInt.operator? = some (.ofTag (.arithmetic .plus .int)) := rfl
  have bare : nextInt.constant?.bind constantSort? = none := rfl
  obtain ⟨result, final, built⟩ : ∃ result final,
      nodeTerm nextInt 1 ((formulate negatedDouble).after ⟨.start, []⟩) = .ok result final :=
    ⟨_, _, rfl⟩
  refine ⟨reached, isOperator, bare, ?_⟩
  rcases operator_node_has_sort_of_signature reached isOperator bare built with
    ⟨⟨⟩, -⟩ | ⟨operator, tag, level, before, operands, middle, ⟨⟩, ⟨⟩, ⟨⟩, same, found, -, each⟩
  obtain ⟨session, events⟩ := before
  cases same
  cases found
  obtain ⟨term, rfl, sorted, wellSorted⟩ := (each _ rfl).1 rfl
  exact ⟨term, final, built, (Option.some_inj.mp sorted).symm, wellSorted⟩

/-- The negation on `float` takes a `double` and gives one. -/
theorem negation_on_float_gives_double :
    Expr.ofJson (.obj [("node", .str "unary"), ("operator", .str "UnaryMinusFloat"),
        ("operand", .obj [("node", .str "variable"), ("name", .str "x"), ("kind", .str "local"),
          ("type", .str "double")]),
        ("type", .str "float")]) 1 = (.ok negatedDouble, 2) ∧
      (Tag.floatMinus .float).fits [.float .double] = false ∧
      (Tag.floatMinus .float).signature.result.sort? = some (.float .single) ∧
      ∃ term final, nodeTerm negatedDouble Limits.formula ⟨.start, []⟩ = .ok (some term) final ∧
        term.sort = .float .double :=
  ⟨rfl, by decide, rfl, _, _, rfl, rfl⟩

end Analysis

end CondSat
