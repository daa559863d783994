import CondSat.Proofs.BuiltTerms
import CondSat.Proofs.Renumbering
import Mathlib.Logic.Equiv.Basic

/-! # Formulas of renamed trees

A declaration is known by its number; its name only suggests what its constant is
called.  Where no unknown stands for a node, texts do not matter, as long as they are
texts.  So the
formula of a tree with other names is the formula of the tree with its constants
renamed, one to one and at the same sorts, and one of the two is satisfiable
exactly when the other one is.

Two builds are compared from sessions that mirror each other: the same
declarations are bound in the same order, and the constants are called as a
permutation `σ` of all names says.  Which names are handed out depends on what
was asked for before, so `σ` is read off the two sessions at the end: it is enough
that it is right about every declaration that is bound in both of them. -/
set_option autoImplicit false
namespace CondSat

/-! ## Terms under other names -/

namespace Solver.Term

def rename (σ : String → String) : Term → Term
  | const name sort => const (σ name) sort
  | bool value => bool value
  | bits width value => bits width value
  | float format pattern => float format pattern
  | not a => not (rename σ a)
  | and a b => and (rename σ a) (rename σ b)
  | or a b => or (rename σ a) (rename σ b)
  | xor a b => xor (rename σ a) (rename σ b)
  | equal a b => equal (rename σ a) (rename σ b)
  | distinct a b => distinct (rename σ a) (rename σ b)
  | bitsBinary op a b => bitsBinary op (rename σ a) (rename σ b)
  | bitsUnary op a => bitsUnary op (rename σ a)
  | bitsOrder op a b => bitsOrder op (rename σ a) (rename σ b)
  | zeroExtend extra a => zeroExtend extra (rename σ a)
  | extract high low a => extract high low (rename σ a)
  | floatBinary op mode a b => floatBinary op (rename σ mode) (rename σ a) (rename σ b)
  | floatRem a b => floatRem (rename σ a) (rename σ b)
  | floatNeg a => floatNeg (rename σ a)
  | floatOrder op a b => floatOrder op (rename σ a) (rename σ b)

theorem eval_rename (σ : String → String) (assign : Assignment) (term : Term) :
    (term.rename σ).eval assign = term.eval fun name sort => assign (σ name) sort := by
  induction term with
  | const | bool | bits | float => rfl
  | not | and | or | xor | equal | distinct | bitsBinary | bitsUnary | bitsOrder | zeroExtend
  | extract | floatBinary | floatRem | floatNeg | floatOrder => simp only [rename, eval, *]

theorem constants_rename (σ : String → String) (term : Term) :
    (term.rename σ).constants = term.constants.map (Prod.map σ id) := by
  induction term with
  | const | bool | bits | float => rfl
  | not | and | or | xor | equal | distinct | bitsBinary | bitsUnary | bitsOrder | zeroExtend
  | extract | floatBinary | floatRem | floatNeg | floatOrder =>
      simp only [rename, constants, List.map_append, *]

theorem rename_eq_self {σ : String → String} {term : Term}
    (fixed : ∀ constant ∈ term.constants, σ constant.1 = constant.1) : term.rename σ = term := by
  induction term with
  | const name sort => rw [rename, fixed (name, sort) (by simp [constants])]
  | bool | bits | float => rfl
  | not _ ih | bitsUnary _ _ ih | zeroExtend _ _ ih | extract _ _ _ ih | floatNeg _ ih =>
      rw [rename, ih fixed]
  | and _ _ left right | or _ _ left right | xor _ _ left right | equal _ _ left right
  | distinct _ _ left right | bitsBinary _ _ _ left right | bitsOrder _ _ _ left right
  | floatRem _ _ left right | floatOrder _ _ _ left right =>
      obtain ⟨leftFixed, rightFixed⟩ := List.forall_mem_append.mp fixed
      rw [rename, left leftFixed, right rightFixed]
  | floatBinary _ _ _ _ mode left right =>
      obtain ⟨others, rightFixed⟩ := List.forall_mem_append.mp fixed
      obtain ⟨modeFixed, leftFixed⟩ := List.forall_mem_append.mp others
      rw [rename, mode modeFixed, left leftFixed, right rightFixed]

theorem rename_rename (σ τ : String → String) (term : Term) :
    (term.rename τ).rename σ = term.rename (σ ∘ τ) := by
  induction term with
  | const | bool | bits | float => rfl
  | not | and | or | xor | equal | distinct | bitsBinary | bitsUnary | bitsOrder | zeroExtend
  | extract | floatBinary | floatRem | floatNeg | floatOrder => simp only [rename, *]

theorem rename_surjective (σ : Equiv.Perm String) : Function.Surjective (rename σ) := by
  intro term
  refine ⟨term.rename σ.symm, ?_⟩
  rw [rename_rename]
  exact rename_eq_self fun constant _ => σ.apply_symm_apply constant.1

def Satisfiable (term : Term) : Prop := ∃ assign : Assignment, term.eval assign = some (.bool true)

theorem satisfiable_rename (σ : Equiv.Perm String) (term : Term) :
    (term.rename σ).Satisfiable ↔ term.Satisfiable := by
  constructor
  · rintro ⟨assign, holds⟩
    rw [eval_rename] at holds
    exact ⟨_, holds⟩
  · rintro ⟨assign, holds⟩
    refine ⟨fun name sort => assign (σ.symm name) sort, ?_⟩
    rw [eval_rename]
    simpa using holds

end Solver.Term

namespace Analysis

open Source
open Solver (Term)

def TypedTerm.rename (σ : String → String) (t : TypedTerm) : TypedTerm := ⟨t.term.rename σ, t.sort⟩

theorem TypedTerm.rename_surjective (σ : Equiv.Perm String) :
    Function.Surjective (TypedTerm.rename σ) := by
  rintro ⟨term, sort⟩
  obtain ⟨before, rfl⟩ := Term.rename_surjective σ term
  exact ⟨⟨before, sort⟩, rfl⟩

variable {σ : String → String}

theorem TypedTerm.asBool_rename (t : TypedTerm) :
    (t.rename σ).asBool = t.asBool.map (Term.rename σ) := by
  obtain ⟨term, sort⟩ := t
  cases sort <;> rfl

theorem TypedTerm.asBits_rename (t : TypedTerm) (width : Option Nat) :
    (t.rename σ).asBits width = (t.asBits width).map (Term.rename σ) := by
  obtain ⟨term, sort⟩ := t
  cases width with
  | none => cases sort <;> rfl
  | some width =>
      cases sort with
      | bits actual =>
          simp only [asBits, rename]
          split <;> rfl
      | bool | float _ | roundingMode | integer | real => cases width <;> rfl

theorem TypedTerm.asFloat_rename (t : TypedTerm) (like : Option TypedTerm) (width : Option Nat) :
    (t.rename σ).asFloat (like.map (rename σ)) width = (t.asFloat like width).map (Term.rename σ) := by
  obtain ⟨term, sort⟩ := t
  cases sort with
  | float format =>
      cases like with
      | none =>
        cases width with
        | none => rfl
        | some width =>
            by_cases wide : format.width = width <;> simp [asFloat, rename, wide, Except.map]
      | some other =>
        by_cases same : other.sort = .float format
        · cases width with
          | none => simp [asFloat, rename, same, Except.map]
          | some width =>
              by_cases wide : format.width = width <;> simp [asFloat, rename, same, wide, Except.map]
        · simp [asFloat, rename, same, Except.map]
  | bool | bits _ | roundingMode | integer | real => rfl

theorem connectiveTerm_rename (op : Connective) (a b : Term) :
    connectiveTerm op (a.rename σ) (b.rename σ) = (connectiveTerm op a b).rename σ := by
  cases op <;> rfl

theorem comparisonTerm_rename (op : Comparison) (signed : Bool) (a b : Term) :
    comparisonTerm op signed (a.rename σ) (b.rename σ) =
      (comparisonTerm op signed a b).rename σ := by
  cases op <;> rfl

theorem floatComparisonTerm_rename (op : Comparison) (a b : Term) :
    floatComparisonTerm op (a.rename σ) (b.rename σ) = (floatComparisonTerm op a b).rename σ := by
  cases op <;> rfl

theorem floatArithmeticTerm_rename (fixed : σ roundingModeName = roundingModeName)
    (op : Arithmetic) (a b : Term) :
    floatArithmeticTerm op (a.rename σ) (b.rename σ) = (floatArithmeticTerm op a b).rename σ := by
  cases op <;> simp [floatArithmeticTerm, roundingMode, Term.rename, fixed]

theorem bitsPair_rename (left right : TypedTerm) (width : Nat) :
    bitsPair (left.rename σ) (right.rename σ) width =
      (bitsPair left right width).map (Prod.map (Term.rename σ) (Term.rename σ)) := by
  simp only [bitsPair, TypedTerm.asBits_rename]
  cases left.asBits (some width) with
  | error mismatch => rfl
  | ok a => cases right.asBits (some width) <;> rfl

theorem enumPair_rename (left right : TypedTerm) :
    enumPair (left.rename σ) (right.rename σ) =
      (enumPair left right).map (Prod.map (Term.rename σ) (Term.rename σ)) := by
  have width : (left.rename σ).sort.width? = left.sort.width? := rfl
  simp only [enumPair, TypedTerm.asBits_rename, width]
  cases left.asBits none with
  | error mismatch => rfl
  | ok a => cases right.asBits left.sort.width? <;> rfl

theorem floatPair_rename (left right : TypedTerm) (width : Nat) :
    floatPair (left.rename σ) (right.rename σ) width =
      (floatPair left right width).map (Prod.map (Term.rename σ) (Term.rename σ)) := by
  have first := @TypedTerm.asFloat_rename σ left none (some width)
  have second := @TypedTerm.asFloat_rename σ right (some left) none
  rw [Option.map_none] at first
  rw [Option.map_some] at second
  simp only [floatPair, first, second]
  cases left.asFloat none (some width) with
  | error mismatch => rfl
  | ok a => cases right.asFloat (some left) none <;> rfl

theorem shiftCount_rename (count : TypedTerm) (width : Nat) :
    shiftCount (count.rename σ) width = (shiftCount count width).map (Term.rename σ) := by
  simp only [shiftCount, TypedTerm.asBits_rename]
  cases count.asBits (some countWidth) with
  | error mismatch => rfl
  | ok term =>
      by_cases wide : countWidth < width
      · simp only [wide, if_true]
        rfl
      · by_cases narrow : width < countWidth
        · simp only [wide, narrow, if_true, if_false]
          rfl
        · simp only [wide, narrow, if_false]
          rfl

theorem unaryTerm_rename (tag : Tag) (operand : TypedTerm) :
    unaryTerm tag (operand.rename σ) =
      (unaryTerm tag operand).map (Option.map (TypedTerm.rename σ)) := by
  cases tag with
  | negation =>
      simp only [unaryTerm, TypedTerm.asBool_rename]
      cases operand.asBool <;> rfl
  | complement type | plus type | minus type =>
      simp only [unaryTerm, TypedTerm.asBits_rename]
      cases operand.asBits _ <;> rfl
  | floatMinus type | floatPlus type =>
      have projected := @TypedTerm.asFloat_rename σ operand none none
      rw [Option.map_none] at projected
      simp only [unaryTerm, projected]
      cases operand.asFloat none none <;> rfl
  | connective _ | comparison _ _ | floatComparison _ _ | enumEqual | enumUnequal | arithmetic _ _
  | bitwise _ _ | shift _ _ | floatArithmetic _ _ | unmodelled _ => rfl

theorem binaryTerm_rename (fixed : σ roundingModeName = roundingModeName) (tag : Tag)
    (left right : TypedTerm) :
    binaryTerm tag (left.rename σ) (right.rename σ) =
      (binaryTerm tag left right).map (Option.map (TypedTerm.rename σ)) := by
  cases tag with
  | connective op =>
      simp only [binaryTerm, TypedTerm.asBool_rename]
      cases left.asBool with
      | error mismatch => rfl
      | ok a =>
          cases right.asBool with
          | error mismatch => rfl
          | ok b => simp [Except.map, bind, Except.bind, pure, Except.pure, connectiveTerm_rename,
              TypedTerm.rename]
  | comparison op type =>
      simp only [binaryTerm, bitsPair_rename]
      cases bitsPair left right type.width with
      | error mismatch => rfl
      | ok pair => simp [Except.map, bind, Except.bind, pure, Except.pure, comparisonTerm_rename,
          TypedTerm.rename]
  | arithmetic op type | bitwise op type =>
      simp only [binaryTerm, bitsPair_rename]
      cases bitsPair left right type.width <;> rfl
  | enumEqual | enumUnequal =>
      simp only [binaryTerm, enumPair_rename]
      cases enumPair left right <;> rfl
  | shift op type =>
      simp only [binaryTerm, TypedTerm.asBits_rename, shiftCount_rename]
      cases left.asBits (some type.width) with
      | error mismatch => rfl
      | ok a => cases shiftCount right type.width <;> rfl
  | floatComparison op type =>
      simp only [binaryTerm, floatPair_rename]
      cases floatPair left right type.width with
      | error mismatch => rfl
      | ok pair => simp [Except.map, bind, Except.bind, pure, Except.pure,
          floatComparisonTerm_rename, TypedTerm.rename]
  | floatArithmetic op type =>
      simp only [binaryTerm, floatPair_rename]
      cases floatPair left right type.width with
      | error mismatch => rfl
      | ok pair => simp [Except.map, bind, Except.bind, pure, Except.pure,
          floatArithmeticTerm_rename fixed, TypedTerm.rename]
  | complement _ | negation | minus _ | plus _ | floatMinus _ | floatPlus _ | unmodelled _ => rfl

/-! ## Sessions that mirror each other -/

def Key.called (name : Declaration → Json) : Key → Key
  | declaration declared => declaration (declared.called name)
  | unmodelled text => unmodelled text
  | roundingMode => roundingMode
  | label value => label value

section Mirrored

variable (root : Expr) (name : Declaration → Json) (σ : String → String)

structure Bindings.Mirrors (bindings bindings' : Bindings) : Prop where
  keys : ∀ entry ∈ bindings.bound, ∃ declaration ∈ root.declarations,
    entry.1 = .declaration declaration
  bound : bindings'.bound = bindings.bound.map fun entry => (entry.1.called name, entry.2.rename σ)

/-- What a permutation has to know about the bindings with which two builds end. -/
structure Dictionary (last last' : Bindings) : Prop where
  mode : σ roundingModeName = roundingModeName
  names : ∀ declaration ∈ root.declarations, ∀ term term',
    last.get? (.declaration declaration) = some term →
    last'.get? (.declaration (declaration.called name)) = some term' →
    term' = term.rename σ
  /-- No unknown has been bound. -/
  modelled : ∀ label, last.get? (.unmodelled label) = none

/-- From mirrored sessions on and on the way to the last bindings, the second step answers
what the first one answers, under other names, and the sessions stay mirrored. -/
def Build.Mirrors (last last' : Bindings) {α : Type} (f : α → α) (step step' : Build α) : Prop :=
  ∀ start start' run run', start.session = .opened run → start'.session = .opened run' →
    run.bindings.Mirrors root name σ run'.bindings →
    ∀ later later', (step.after start).session = .opened later →
      (step'.after start').session = .opened later' →
      later.bindings.bound <+: last.bound → later'.bindings.bound <+: last'.bound →
      step'.answer start' = (step.answer start).map f ∧
      later.bindings.Mirrors root name σ later'.bindings

end Mirrored

def NumbersApart (root : Expr) : Prop :=
  ∀ first ∈ root.declarations, ∀ second ∈ root.declarations, first.id = second.id → first = second

variable {root : Expr} {name : Declaration → Json} {bindings bindings' last last' : Bindings}
  {α β : Type}

theorem NumbersApart.called (apart : NumbersApart root) {first second : Declaration}
    (member : first ∈ root.declarations) (other : second ∈ root.declarations)
    (same : first.called name = second.called name) : first = second := by
  have numbers : first.id = second.id := congrArg (·.id) same
  exact apart first member second other numbers

namespace Bindings.Mirrors

variable (mirrored : bindings.Mirrors root name σ bindings')
include mirrored

theorem get?_declaration (apart : NumbersApart root) {declaration : Declaration}
    (member : declaration ∈ root.declarations) :
    bindings'.get? (.declaration (declaration.called name)) =
      (bindings.get? (.declaration declaration)).map (TypedTerm.rename σ) := by
  unfold get?
  rw [mirrored.bound]
  refine lookup_map_entries (Key.called name) (TypedTerm.rename σ) bindings.bound
    (.declaration declaration) ?_
  intro entry inside same
  obtain ⟨known, knownIn, key⟩ := mirrored.keys entry inside
  rw [key] at same ⊢
  rw [apart.called member knownIn (Key.declaration.inj same)]

theorem get?_unmodelled (label label' : Json) :
    bindings.get? (.unmodelled label) = none ∧ bindings'.get? (.unmodelled label') = none := by
  constructor
  · refine List.lookup_eq_none_iff.mpr fun entry member => ?_
    obtain ⟨declaration, -, key⟩ := mirrored.keys entry member
    simp [key]
  · refine List.lookup_eq_none_iff.mpr fun entry' member => ?_
    rw [mirrored.bound] at member
    obtain ⟨entry, inside, rfl⟩ := List.mem_map.mp member
    obtain ⟨declaration, -, key⟩ := mirrored.keys entry inside
    simp [key, Key.called]

variable (dictionary : Dictionary root name σ last last')
include dictionary

/-- A declaration that is new on one side is new on the other one, and the dictionary
translates between the two constants that are made for it. -/
theorem bind_declaration (apart : NumbersApart root) {declaration : Declaration}
    (member : declaration ∈ root.declarations) {type : SourceType} {text text' : String}
    (grown : (bindings.bind (.declaration declaration) type text).2.1.bound <+: last.bound)
    (grown' : (bindings'.bind (.declaration (declaration.called name)) type text').2.1.bound <+:
      last'.bound) :
    (bindings'.bind (.declaration (declaration.called name)) type text').1 =
      (bindings.bind (.declaration declaration) type text).1.map (TypedTerm.rename σ) ∧
    (bindings.bind (.declaration declaration) type text).2.1.Mirrors root name σ
      (bindings'.bind (.declaration (declaration.called name)) type text').2.1 := by
  have found := mirrored.get?_declaration apart member
  rcases bindings.bind_cases (.declaration declaration) type text with
    ⟨term, known, result⟩ | ⟨missing, unsorted, result⟩ | ⟨sort, missing, sorted, result⟩
  · have result' : bindings'.bind (.declaration (declaration.called name)) type text' =
        (some (term.rename σ), bindings', []) := by
      rw [Bindings.bind, found, known]
      rfl
    rw [result, result']
    exact ⟨rfl, mirrored⟩
  · have result' : bindings'.bind (.declaration (declaration.called name)) type text' =
        (none, bindings', [.noSort type text']) := by
      rw [Bindings.bind, found, missing, unsorted]
      rfl
    rw [result, result']
    exact ⟨rfl, mirrored⟩
  · rw [missing] at found
    rcases bindings'.bind_cases (.declaration (declaration.called name)) type text' with
      ⟨_, known, -⟩ | ⟨-, unsorted, -⟩ | ⟨_, -, same, result'⟩
    · rw [found] at known
      cases known
    · rw [sorted] at unsorted
      cases unsorted
    · cases sorted.symm.trans same
      have made := get?_bind (congrArg Prod.fst result)
      have made' := get?_bind (congrArg Prod.fst result')
      have renamed := dictionary.names declaration member _ _ (get?_of_isPrefix grown made)
        (get?_of_isPrefix grown' made')
      rw [result, result', renamed]
      refine ⟨rfl, ?_, ?_⟩
      · intro entry inside
        rcases List.mem_append.mp inside with inside | inside
        · exact mirrored.keys entry inside
        · exact ⟨declaration, member, by rw [List.mem_singleton.mp inside]⟩
      · simp [mirrored.bound, Key.called]

theorem bind_unmodelled {label label' : Json} {shown shown' : String} {type : SourceType}
    (grown : (bindings.bind (.unmodelled label) type shown).2.1.bound <+: last.bound) :
    bindings.bind (.unmodelled label) type shown = (none, bindings, [.noSort type shown]) ∧
    bindings'.bind (.unmodelled label') type shown' =
      (none, bindings', [.noSort type shown']) := by
  obtain ⟨missing, missing'⟩ := mirrored.get?_unmodelled label label'
  rcases bindings.bind_cases (.unmodelled label) type shown with
    ⟨_, known, -⟩ | ⟨-, unsorted, result⟩ | ⟨sort, -, -, result⟩
  · rw [missing] at known
    cases known
  · refine ⟨result, ?_⟩
    rw [Bindings.bind, missing', unsorted]
  · have made := get?_of_isPrefix grown (get?_bind (congrArg Prod.fst result))
    rw [dictionary.modelled label] at made
    cases made

end Bindings.Mirrors

/-! ## Steps on mirrored sessions -/

namespace Build

theorem mirrors_still {f : α → α} {step step' : Build α}
    (stays : ∀ start, (step.after start).session = start.session)
    (stays' : ∀ start, (step'.after start).session = start.session)
    (answers : ∀ start start', step'.answer start' = (step.answer start).map f) :
    Build.Mirrors root name σ last last' f step step' := by
  intro start start' run run' opened opened' mirrored later later' ended ended' _ _
  cases opened.symm.trans ((stays start).symm.trans ended)
  cases opened'.symm.trans ((stays' start').symm.trans ended')
  exact ⟨answers start start', mirrored⟩

theorem mirrors_seq {f : α → α} {g : β → β} {step step' : Build α} {next next' : α → Build β}
    (first : Build.Mirrors root name σ last last' f step step')
    (followed : step.Follows) (followed' : step'.Follows)
    (follows : ∀ value, (next value).Follows) (follows' : ∀ value, (next' value).Follows)
    (rest : ∀ value, Build.Mirrors root name σ last last' g (next value) (next' (f value))) :
    Build.Mirrors root name σ last last' g (step >>= next) (step' >>= next') := by
  intro start start' run run' opened opened' mirrored later later' ended ended' grown grown'
  obtain ⟨middle, reached, -⟩ := (followed start).extends opened
  obtain ⟨middle', reached', -⟩ := (followed' start').extends opened'
  -- what the first steps have bound is a part of what is bound in the end
  obtain ⟨_, still, more⟩ := (reaches_bind step follows start).extends reached
  cases still.symm.trans ended
  obtain ⟨_, still', more'⟩ := (reaches_bind step' follows' start').extends reached'
  cases still'.symm.trans ended'
  obtain ⟨same, middleMirrored⟩ := first start start' run run' opened opened' mirrored middle middle'
    reached reached' (more.trans grown) (more'.trans grown')
  cases answered : step.answer start with
  | ok value =>
      rw [answered] at same
      have went := ok_of_answer answered
      have went' := ok_of_answer same
      rw [after_bind_ok went] at ended
      rw [after_bind_ok went'] at ended'
      rw [answer_bind_ok went, answer_bind_ok went']
      exact rest value _ _ middle middle' reached reached' middleMirrored later later' ended ended'
        grown grown'
  | error failure =>
      rw [answered] at same
      have went := error_of_answer answered
      have went' := error_of_answer same
      rw [after_bind_error went] at ended
      rw [after_bind_error went'] at ended'
      cases reached.symm.trans ended
      cases reached'.symm.trans ended'
      rw [answer_bind_error went, answer_bind_error went']
      exact ⟨rfl, middleMirrored⟩

theorem mirrors_useRoundingMode :
    Build.Mirrors root name σ last last' id useRoundingMode useRoundingMode := by
  rintro ⟨_, events⟩ ⟨_, events'⟩ run run' ⟨⟩ ⟨⟩ mirrored later later' ended ended' _ _
  rw [after_ok (useRoundingMode_opened run events)] at ended
  rw [after_ok (useRoundingMode_opened run' events')] at ended'
  cases ended
  cases ended'
  rw [answer, answer, useRoundingMode_opened, useRoundingMode_opened]
  exact ⟨rfl, mirrored⟩

theorem mirrors_bind {key key' : Key} {type : SourceType} {text text' : String}
    (binds : ∀ bindings bindings' : Bindings, bindings.Mirrors root name σ bindings' →
      (bindings.bind key type text).2.1.bound <+: last.bound →
      (bindings'.bind key' type text').2.1.bound <+: last'.bound →
      (bindings'.bind key' type text').1 =
        (bindings.bind key type text).1.map (TypedTerm.rename σ) ∧
      (bindings.bind key type text).2.1.Mirrors root name σ (bindings'.bind key' type text').2.1) :
    Build.Mirrors root name σ last last' (Option.map (TypedTerm.rename σ))
      (Build.bind key type text) (Build.bind key' type text') := by
  rintro ⟨_, events⟩ ⟨_, events'⟩ run run' ⟨⟩ ⟨⟩ mirrored later later' ended ended' grown grown'
  have went := bind_opened run events key type text
  have went' := bind_opened run' events' key' type text'
  rw [after_ok went] at ended
  rw [after_ok went'] at ended'
  cases ended
  cases ended'
  obtain ⟨same, still⟩ := binds run.bindings run'.bindings mirrored grown grown'
  rw [answer, answer, went, went', same]
  exact ⟨rfl, still⟩

theorem nameFault?_eq {text text' : Json} (alike : FareAlike text text') (type : SourceType) :
    nameFault? text type = nameFault? text' type := by
  rw [nameFault?, nameFault?, alike.1, alike.2]

theorem mirrors_bindNamed {key key' : Key} {type : SourceType} {text text' : Json}
    {shown shown' : String} (alike : FareAlike text text')
    (binds : ∀ bindings bindings' : Bindings, bindings.Mirrors root name σ bindings' →
      (bindings.bind key type shown).2.1.bound <+: last.bound →
      (bindings'.bind key' type shown').2.1.bound <+: last'.bound →
      (bindings'.bind key' type shown').1 =
        (bindings.bind key type shown).1.map (TypedTerm.rename σ) ∧
      (bindings.bind key type shown).2.1.Mirrors root name σ
        (bindings'.bind key' type shown').2.1) :
    Build.Mirrors root name σ last last' (Option.map (TypedTerm.rename σ))
      (Build.bindNamed key type text shown) (Build.bindNamed key' type text' shown') := by
  rintro ⟨_, events⟩ ⟨_, events'⟩ run run' ⟨⟩ ⟨⟩ mirrored later later' ended ended' grown grown'
  rw [after, bindNamed_opened] at ended
  rw [after, bindNamed_opened, ← nameFault?_eq alike] at ended'
  rw [answer, answer, bindNamed_opened, bindNamed_opened, ← nameFault?_eq alike]
  cases fault : nameFault? text type with
  | some failure =>
      rw [fault] at ended ended'
      cases ended
      cases ended'
      exact ⟨rfl, mirrored⟩
  | none =>
      rw [fault] at ended ended'
      exact mirrors_bind binds ⟨.opened run, events⟩ ⟨.opened run', events'⟩ run run' rfl rfl mirrored
        later later' ended ended' grown grown'

end Build

theorem encodeConstant_rename (fixed : σ roundingModeName = roundingModeName) {value : Json}
    {kind : Kind} {term : TypedTerm} {events : List Event}
    (encoded : encodeConstant value kind = .ok (some term, events)) : term.rename σ = term := by
  have built := encodeConstant_built encoded .initial
  have same : term.term.rename σ = term.term := by
    refine Term.rename_eq_self fun constant member => ?_
    rcases built.known initial_consistent constant member with ⟨-, rfl⟩ | ⟨_, bound, -⟩
    · exact fixed
    · cases bound
  rw [TypedTerm.rename, same]

theorem constantTerm_mirrors (fixed : σ roundingModeName = roundingModeName)
    (constant : Option Constant) :
    Build.Mirrors root name σ last last' (Option.map (TypedTerm.rename σ))
      (constantTerm constant) (constantTerm constant) := by
  cases constant with
  | none => exact Build.mirrors_still (fun _ => rfl) (fun _ => rfl) fun _ _ => rfl
  | some constant =>
      rw [constantTerm]
      cases encoded : encodeConstant constant.value constant.kind with
      | error failure => exact Build.mirrors_still (fun _ => rfl) (fun _ => rfl) fun _ _ => rfl
      | ok answer =>
          refine Build.mirrors_still (fun _ => rfl) (fun _ => rfl) fun _ _ => ?_
          obtain ⟨_ | term, events⟩ := answer
          · rfl
          · change Except.ok (some term) = Except.ok (some (term.rename σ))
            rw [encodeConstant_rename fixed encoded]

section Walk

variable {σ : Equiv.Perm String} (dictionary : Dictionary root name σ last last')
include dictionary

theorem mirrors_law :
    Build.Law (fun {α : Type} (f : α → α) (step step' : Build α) =>
      step.Follows ∧ step'.Follows ∧ Build.Mirrors root name σ last last' f step step')
      FareAlike (TypedTerm.rename σ) where
  pure f value := ⟨Build.follows_pure _, Build.follows_pure _,
    Build.mirrors_still (fun _ => rfl) (fun _ => rfl) fun _ _ => rfl⟩
  seq {_ _ f g step step' next next'} onto first rest := by
    obtain ⟨followed, followed', mirrors⟩ := first
    have follows : ∀ value, (next value).Follows := fun value => (rest value).1
    have follows' : ∀ value, (next' value).Follows := onto.forall.mpr fun value => (rest value).2.1
    exact ⟨Build.follows_seq followed follows, Build.follows_seq followed' follows',
      Build.mirrors_seq mirrors followed followed' follows follows' fun value => (rest value).2.2⟩
  report event quiet _ _ _ :=
    ⟨Build.follows_report [event _] (by simpa using quiet _),
      Build.follows_report [event _] (by simpa using quiet _),
      Build.mirrors_still (fun _ => rfl) (fun _ => rfl) fun _ _ => rfl⟩
  mode := ⟨Build.follows_useRoundingMode, Build.follows_useRoundingMode,
    Build.mirrors_useRoundingMode⟩
  onto := TypedTerm.rename_surjective σ
  unary tag operand := unaryTerm_rename tag operand
  binary tag left right := binaryTerm_rename dictionary.mode tag left right

theorem formulate_mirrors [Limits] (apart : NumbersApart root) {other : Expr}
    (names : ∀ declaration ∈ root.declarations, FareAlike declaration.name (name declaration))
    (renamed : root.Matches (Declaration.called name) FareAlike other) :
    Build.Mirrors root name σ last last' (Option.map (TypedTerm.rename σ)) (formulate root)
      (formulate other) := by
  have kinds : ∀ declaration : Declaration,
      (declaration.called name).isVariable = declaration.isVariable := fun _ => rfl
  refine (formulate_related (mirrors_law dictionary) kinds renamed ?_ fun _ =>
    ⟨Build.follows_throw _, Build.follows_throw _,
      Build.mirrors_still (fun _ => rfl) (fun _ => rfl) fun _ _ => rfl⟩).2.2
  constructor
  · intro node member
    exact ⟨constantTerm_follows _, constantTerm_follows _, constantTerm_mirrors dictionary.mode _⟩
  · intro declaration member _
    refine ⟨Build.follows_bindDeclaration _, Build.follows_bindDeclaration _, ?_⟩
    refine Build.mirrors_bindNamed (names declaration member)
      fun bindings bindings' mirrored grown grown' => ?_
    exact mirrored.bind_declaration dictionary apart member grown grown'
  · intro parent _ node _ node' type alike
    refine ⟨Build.follows_bindUnmodelled _, Build.follows_bindUnmodelled _, ?_⟩
    rw [Build.bindUnmodelled, Build.bindUnmodelled, ← type]
    refine Build.mirrors_bindNamed alike fun bindings bindings' mirrored grown _ => ?_
    obtain ⟨result, result'⟩ := mirrored.bind_unmodelled dictionary grown
    rw [result, result']
    exact ⟨rfl, mirrored⟩

end Walk

/-! ## The permutation -/

/-- Finitely many values can be sent to given ones by a permutation, if equal ones go to
equal ones and different ones to different ones. -/
theorem exists_perm_of_pairs {γ : Type} [DecidableEq γ] (pairs : List (γ × γ))
    (agree : ∀ first ∈ pairs, ∀ second ∈ pairs, first.1 = second.1 ↔ first.2 = second.2) :
    ∃ σ : Equiv.Perm γ, ∀ pair ∈ pairs, σ pair.1 = pair.2 := by
  induction pairs with
  | nil => exact ⟨Equiv.refl γ, nofun⟩
  | cons pair rest ih =>
      obtain ⟨σ, sent⟩ := ih fun first member second other =>
        agree first (by simp [member]) second (by simp [other])
      refine ⟨σ.trans (Equiv.swap (σ pair.1) pair.2), ?_⟩
      intro other member
      rcases List.mem_cons.mp member with rfl | member
      · exact Equiv.swap_apply_left _ _
      · rw [Equiv.trans_apply, sent other member]
        by_cases same : other.1 = pair.1
        · -- the pair was there already, and nothing is swapped
          have target := (agree other (by simp [member]) pair (by simp)).mp same
          rw [← same, sent other member, target]
          exact Equiv.swap_apply_right _ _
        · refine Equiv.swap_apply_of_ne_of_ne ?_ ?_
          · rw [← sent other member]
            exact fun met => same (σ.injective met)
          · exact fun met => same ((agree other (by simp [member]) pair (by simp)).mpr met)

namespace Run.Consistent

variable {run : Run} (consistent : run.Consistent)
include consistent

theorem held_of_get? {key : Key} {term : TypedTerm} (known : run.bindings.get? key = some term) :
    run.bindings.reserved.lookup key = some term.name := by
  refine lookup_of_nodup ?_ ?_
  · simpa [consistent.reserved, Function.comp_def] using consistent.keys
  · rw [consistent.reserved]
    exact List.mem_cons_of_mem _ (List.mem_map.mpr ⟨_, Bindings.mem_of_get? known, rfl⟩)

theorem name_eq_iff {first second : Key} {name name' : String}
    (held : run.bindings.reserved.lookup first = some name)
    (held' : run.bindings.reserved.lookup second = some name') : name = name' ↔ first = second := by
  constructor
  · intro same
    have member := mem_of_lookup held
    have member' := mem_of_lookup held'
    have distinct : (run.bindings.reserved.map (·.2)).Nodup := by
      simpa [consistent.reserved, Function.comp_def] using consistent.names
    exact congrArg Prod.fst (List.inj_on_of_nodup_map distinct member member' same)
  · rintro rfl
    exact Option.some.inj (held.symm.trans held')

theorem eq_constant {key : Key} {term : TypedTerm} (known : run.bindings.get? key = some term) :
    term = ⟨.const term.name term.sort, term.sort⟩ := by
  rw [← consistent.constants _ (Bindings.mem_of_get? known)]

end Run.Consistent

theorem NumbersApart.called_key (apart : NumbersApart root) {first second : Key}
    (member : first ∈ Key.roundingMode :: root.declarations.map Key.declaration)
    (other : second ∈ Key.roundingMode :: root.declarations.map Key.declaration) :
    first.called name = second.called name ↔ first = second := by
  refine ⟨fun same => ?_, fun same => by rw [same]⟩
  rcases List.mem_cons.mp member with rfl | member <;>
    rcases List.mem_cons.mp other with rfl | other
  · rfl
  · obtain ⟨declaration, -, rfl⟩ := List.mem_map.mp other
    cases same
  · obtain ⟨declaration, -, rfl⟩ := List.mem_map.mp member
    cases same
  · obtain ⟨declaration, inside, rfl⟩ := List.mem_map.mp member
    obtain ⟨declaration', inside', rfl⟩ := List.mem_map.mp other
    rw [apart.called inside inside' (Key.declaration.inj same)]

/-- There is a dictionary for any two sessions, because keys hold different names in both. -/
theorem exists_dictionary (apart : NumbersApart root) {run run' : Run}
    (consistent : run.Consistent) (consistent' : run'.Consistent)
    (modelled : ∀ label, run.bindings.get? (.unmodelled label) = none) :
    ∃ σ : Equiv.Perm String, Dictionary root name σ run.bindings run'.bindings := by
  let keys : List Key := .roundingMode :: root.declarations.map .declaration
  let pair? : Key → Option (String × String) := fun key =>
    (run.bindings.reserved.lookup key).bind fun held =>
      (run'.bindings.reserved.lookup (key.called name)).map fun held' => (held, held')
  have pair?_eq_some : ∀ key pair, pair? key = some pair ↔
      run.bindings.reserved.lookup key = some pair.1 ∧
      run'.bindings.reserved.lookup (key.called name) = some pair.2 := by
    intro key pair
    simp only [pair?, Option.bind_eq_some_iff, Option.map_eq_some_iff]
    constructor
    · rintro ⟨held, found, held', found', rfl⟩
      exact ⟨found, found'⟩
    · rintro ⟨found, found'⟩
      exact ⟨_, found, _, found', rfl⟩
  obtain ⟨σ, sent⟩ := exists_perm_of_pairs (keys.filterMap pair?) (by
    intro first member second other
    obtain ⟨key, inside, paired⟩ := List.mem_filterMap.mp member
    obtain ⟨key', inside', paired'⟩ := List.mem_filterMap.mp other
    obtain ⟨held, called⟩ := (pair?_eq_some key first).mp paired
    obtain ⟨held', called'⟩ := (pair?_eq_some key' second).mp paired'
    rw [consistent.name_eq_iff held held', consistent'.name_eq_iff called called',
      apart.called_key inside inside'])
  have sent : ∀ key ∈ keys, ∀ held held', run.bindings.reserved.lookup key = some held →
      run'.bindings.reserved.lookup (key.called name) = some held' → σ held = held' := by
    intro key inside held held' found found'
    exact sent (held, held')
      (List.mem_filterMap.mpr ⟨key, inside, (pair?_eq_some key (held, held')).mpr ⟨found, found'⟩⟩)
  refine ⟨σ, ?_, ?_, modelled⟩
  · refine sent .roundingMode (by simp [keys]) _ _ ?_ ?_
    · rw [consistent.reserved]
      rfl
    · rw [consistent'.reserved]
      rfl
  · intro declaration member term term' known known'
    have names := sent (.declaration declaration) (by simp [keys, member]) _ _
      (consistent.held_of_get? known) (consistent'.held_of_get? known')
    have sorts : term.sort = term'.sort := by
      have sorted := consistent.declared declaration term (Bindings.mem_of_get? known)
      have sorted' := consistent'.declared _ term' (Bindings.mem_of_get? known')
      exact Option.some.inj (sorted.symm.trans sorted')
    rw [consistent.eq_constant known, consistent'.eq_constant known']
    simp only [TypedTerm.rename, Term.rename, names, sorts]

/-! ## Renamed trees -/

/-- Formulating the tree in a fresh session binds no unknown for a node. -/
def BindsNoUnknown [Limits] (root : Expr) : Prop :=
  ∀ run, ((formulate root).after ⟨.start, []⟩).session = .opened run →
    ∀ label, run.bindings.get? (.unmodelled label) = none

theorem formulated_eq [Limits] {run : Run}
    (ended : ((formulate root).after ⟨.start, []⟩).session = .opened run) :
    formulated root = ((formulate root).answer ⟨.start, []⟩, run.bindings.declarations) := by
  rw [formulated, Build.outcome_eq]
  dsimp only
  rw [ended]
  rfl

/-- Only declarations matter, their names do not.  A tree under other names has a formula
exactly when the tree has one, it is the same formula up to a permutation of names that keeps
the rounding mode, and one is satisfiable exactly when the other one is. -/
theorem renamed_tree_has_renamed_formula [Limits] (root other : Expr)
    (renamed : root.RenamesTo other) (apart : NumbersApart root) (known : BindsNoUnknown root) :
    ∃ σ : Equiv.Perm String, σ roundingModeName = roundingModeName ∧
      (formulated other).1 = (formulated root).1.map (Option.map (TypedTerm.rename σ)) ∧
      (formulated other).2 = (formulated root).2.map (Prod.map σ id) ∧
      ∀ formula, (formulated root).1 = .ok (some formula) →
        ∃ formula', (formulated other).1 = .ok (some formula') ∧
          (formula'.term.Satisfiable ↔ formula.term.Satisfiable) := by
  obtain ⟨name, names, matched⟩ := renamed
  have fresh : ∀ run, (⟨.start, []⟩ : Progress).session = .opened run → run.Consistent := by
    rintro run ⟨⟩
    exact initial_consistent
  have reached := formulate_follows root ⟨.start, []⟩
  have reached' := formulate_follows other ⟨.start, []⟩
  obtain ⟨run, ended, -⟩ := reached.extends (rfl : (⟨.start, []⟩ : Progress).session = _)
  obtain ⟨run', ended', -⟩ := reached'.extends (rfl : (⟨.start, []⟩ : Progress).session = _)
  obtain ⟨σ, dictionary⟩ := @exists_dictionary root name apart _ _
    (reached.consistent fresh run ended) (reached'.consistent fresh run' ended') (known run ended)
  have start : Run.initial.bindings.Mirrors root name σ Run.initial.bindings :=
    ⟨by simp [Run.initial], rfl⟩
  obtain ⟨answers, mirrored⟩ := formulate_mirrors dictionary apart names matched _ _ _ _ rfl rfl start
    run run' ended ended' List.prefix_rfl List.prefix_rfl
  rw [formulated_eq ended, formulated_eq ended']
  refine ⟨σ, dictionary.mode, answers, ?_, ?_⟩
  · simp only [Bindings.declarations, mirrored.bound, List.flatMap_map, List.map_flatMap,
      TypedTerm.rename, Term.constants_rename]
  · intro formula made
    refine ⟨formula.rename σ, ?_, Term.satisfiable_rename σ formula.term⟩
    have answered : (formulate root).answer ⟨.start, []⟩ = .ok (some formula) := made
    rw [answers, answered]
    rfl

/-- The tree of `x + x < y` over `double`, where the two `x` are different variables, under
any names. -/
def comparedSum (name : Nat → String) : Expr :=
  .binary (.ofTag (.floatComparison .less .double))
    (.binary (.ofTag (.floatArithmetic .plus .double))
      (.reference (some ⟨name 1, .localVariable, .double, 1⟩) .double (name 1) none)
      (.reference (some ⟨name 2, .parameter, .double, 2⟩) .double (name 2) none) .double
      (.str (name 1 ++ " + " ++ name 2)) none)
    (.reference (some ⟨name 3, .parameter, .double, 3⟩) .double (name 3) none) .bool "compared" none

def plainNames : Nat → String
  | 3 => "y"
  | _ => "x"

/-- Names that are also those of the rounding mode, of a second `x` and of an unknown. -/
def awkwardNames : Nat → String
  | 1 => "roundingmode"
  | 2 => "x!1"
  | _ => "variable from expr: 'y'"

theorem renamed_tree_has_renamed_formula_awkward :
    (comparedSum plainNames).RenamesTo (comparedSum awkwardNames) ∧
    NumbersApart (comparedSum plainNames) ∧ BindsNoUnknown (comparedSum plainNames) ∧
    (formulated (comparedSum plainNames)).2.map (·.1) = ["x", "x!1", "y"] ∧
    (formulated (comparedSum awkwardNames)).2.map (·.1) =
      ["roundingmode!1", "x!1", "variable from expr: 'y'"] ∧
    ∃ σ : Equiv.Perm String, σ roundingModeName = roundingModeName ∧
      (formulated (comparedSum awkwardNames)).1 =
        (formulated (comparedSum plainNames)).1.map (Option.map (TypedTerm.rename σ)) := by
  have alike : ∀ text text' : String, FareAlike text text' := fun _ _ => ⟨rfl, rfl⟩
  have renamed : (comparedSum plainNames).RenamesTo (comparedSum awkwardNames) :=
    ⟨fun declaration => awkwardNames declaration.id, by simp [comparedSum, alike],
      .binary _ _ _ (alike _ _)
        (.binary _ _ _ (alike _ _) (.reference _ _ _ (alike _ _)) (.reference _ _ _ (alike _ _)))
        (.reference _ _ _ (alike _ _))⟩
  have apart : NumbersApart (comparedSum plainNames) := by
    unfold NumbersApart
    decide +kernel
  have known : BindsNoUnknown (comparedSum plainNames) := by
    rintro run ⟨⟩ label
    rfl
  obtain ⟨σ, mode, same, -⟩ := renamed_tree_has_renamed_formula _ _ renamed apart known
  exact ⟨renamed, apart, known, by decide +kernel, by decide +kernel, σ, mode, same⟩

end Analysis

end CondSat
