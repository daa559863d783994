import CondSat.Analysis.Analyzer
import CondSat.Proofs.FormulaValue
import CondSat.Proofs.TermValues

/-! # What an unsatisfiable verdict says

A condition is called unsatisfiable when no assignment makes its formula true.
Unknown nodes are bound by their texts, numbers among them by their value: by their
labels.  So the assignments of a formula are the
valuations that give unknown nodes of one label one value, no more and no less: the
verdict is right about these and says nothing about the others.  Where two
different nodes share a text, a condition that can hold may be called
unsatisfiable. -/
set_option autoImplicit false
namespace CondSat.Analysis

open Ieee (RoundingMode)
open Solver (Answer Assignment Oracle Term Value ValueSort)
open Source

/-! ## Analyses with a verdict -/

theorem analyze_verdict [Limits] {oracle : Oracle} {options : Options} {node : Expr}
    {verdict : Verdict} (decided : (analyze oracle options node).outcome = .ok (some verdict)) :
    ∃ formula run news,
      Build.outcome (formulate node) .start = (.ok (some formula), ⟨.opened run, news⟩) ∧
      formula.sort = .bool ∧ run.Consistent ∧ Built run formula ∧
      (analyze oracle options node).outcome =
        .ok (some (check oracle options formula.term run.bindings.declarations).verdict) ∧
      (analyze oracle options node).witness =
        (check oracle options formula.term run.bindings.declarations).witness := by
  unfold analyze at decided ⊢
  split at decided
  · cases decided
  · next candidate =>
      rw [if_neg candidate]
      cases made : Build.outcome (formulate node) .start with
      | mk result progress =>
          rw [made] at decided
          cases result with
          | error failure => cases failure <;> cases decided
          | ok result =>
              cases result with
              | none => cases decided
              | some formula =>
                  obtain ⟨run, news, rfl, consistent, built⟩ := formulate_built made
                  rcases formula.asBool_cases with ⟨sorted, projected⟩ | ⟨-, mismatch, projected⟩
                  · exact ⟨formula, run, news, rfl, sorted, consistent, built,
                      by simp [projected], by simp [projected]⟩
                  · simp [projected] at decided

/-! ## Valuations by texts -/

/-- Unknown nodes that share a label share a value. -/
def Valuation.SharesTexts (V : Valuation) (root : Expr) : Prop :=
  ∀ node other, IsUnknown root node → IsUnknown root other → node.label = other.label →
    V.unknown? node = V.unknown? other

theorem Valuation.SharesTexts.sorts {V : Valuation} {root : Expr} (shares : V.SharesTexts root)
    (fits : V.Fits root) : SharesSorts root := by
  have sorted : ∀ node, IsUnknown root node →
      (V.unknown? node).map Value.sort = node.type.sort? := by
    intro node isUnknown
    rw [Valuation.unknown?]
    cases typed : node.type.sort? with
    | none => rfl
    | some sort => exact congrArg some (fits.unknown node isUnknown sort typed)
  intro node other isUnknown otherUnknown same
  rw [← sorted node isUnknown, ← sorted other otherUnknown,
    shares node other isUnknown otherUnknown same]

/-- The value of a label: that of an unknown node that has it. -/
def Valuation.textValue (V : Valuation) (root : Expr) (label : Json) : Value :=
  ((root.preorder.find? fun node =>
    (formulaSort? node).isNone && node.label == label && node.type.sort?.isSome).map V.unknown).getD
      (.bool false)

theorem Valuation.SharesTexts.textValue {V : Valuation} {root : Expr}
    (shares : V.SharesTexts root) {node : Expr} (isUnknown : IsUnknown root node)
    (typed : node.type.sort?.isSome = true) : V.textValue root node.label = V.unknown node := by
  unfold Valuation.textValue
  cases found : root.preorder.find? fun other =>
      (formulaSort? other).isNone && other.label == node.label && other.type.sort?.isSome with
  | none =>
      have excluded := List.find?_eq_none.mp found node isUnknown.1
      simp [isUnknown.2, typed] at excluded
  | some other =>
      have chosen := List.find?_some found
      simp only [Bool.and_eq_true, Option.isNone_iff_eq_none, beq_iff_eq] at chosen
      obtain ⟨⟨missing, same⟩, otherTyped⟩ := chosen
      have shared := shares other node ⟨List.mem_of_find?_eq_some found, missing⟩ isUnknown same
      obtain ⟨sort, typed⟩ := Option.isSome_iff_exists.mp typed
      obtain ⟨otherSort, otherTyped⟩ := Option.isSome_iff_exists.mp otherTyped
      rw [Valuation.unknown?, Valuation.unknown?, typed, otherTyped] at shared
      exact Option.some.inj shared

theorem Valuation.SharesTexts.agrees {V : Valuation} {root : Expr} (shares : V.SharesTexts root)
    (fits : V.Fits root) {run : Run} (explained : run.Explained root) :
    V.Agrees root run (run.assignment (keyValue V.declared (V.textValue root)) V.mode) :=
  explained.agrees (shares.sorts fits) fits (fun _ => rfl) fun _ isUnknown typed =>
    shares.textValue isUnknown typed

/-! ## Valuations of assignments -/

def Run.keyValue (run : Run) (assign : Assignment) (key : Key) (type : SourceType) : Value :=
  ((run.bindings.get? key).bind (·.term.eval assign)).getD (anyValue type)

/-- The valuation that an assignment of a formula stands for. -/
def Run.valuation (run : Run) (assign : Assignment) : Valuation where
  declared declaration := run.keyValue assign (.declaration declaration) declaration.type
  unknown node := run.keyValue assign (.unmodelled node.label) node.type
  mode :=
    match assign roundingModeName .roundingMode with
    | some (.mode mode) => mode
    | _ => .nearestEven

section Valuations

variable {run : Run} {root : Expr} {assign : Assignment}

theorem Run.Consistent.eval_sort (consistent : run.Consistent) {key : Key} {term : TypedTerm}
    (known : run.bindings.get? key = some term) {x : Value}
    (evaluated : term.term.eval assign = some x) : x.sort = term.sort :=
  (Built.constant (Bindings.mem_of_get? known)).sort consistent evaluated

theorem Run.keyValue_sort (consistent : run.Consistent) {key : Key} {type : SourceType}
    {sort : ValueSort} (typed : type.sort? = some sort)
    (sorted : ∀ term, run.bindings.get? key = some term → term.sort = sort) :
    (run.keyValue assign key type).sort = sort := by
  unfold Run.keyValue
  cases known : run.bindings.get? key with
  | none => exact sort_anyValue typed
  | some term =>
      cases evaluated : term.term.eval assign with
      | none => simpa [evaluated] using sort_anyValue typed
      | some x => simpa [evaluated, sorted term known] using consistent.eval_sort known evaluated

theorem Run.Explained.valuation_fits (explained : run.Explained root) (shares : SharesSorts root) :
    (run.valuation assign).Fits root where
  declared declaration _ sort typed := by
    refine Run.keyValue_sort explained.consistent typed ?_
    intro term known
    have bound := explained.consistent.declared declaration term (Bindings.mem_of_get? known)
    exact Option.some.inj (bound.symm.trans typed)
  unknown node isUnknown sort typed := by
    refine Run.keyValue_sort explained.consistent typed ?_
    intro term known
    obtain ⟨other, otherUnknown, same, bound⟩ := explained.unknown (Bindings.mem_of_get? known)
    rw [shares node other isUnknown otherUnknown same] at typed
    exact Option.some.inj (bound.symm.trans typed)

theorem Run.valuation_sharesTexts (run : Run) (assign : Assignment) (shares : SharesSorts root) :
    (run.valuation assign).SharesTexts root := by
  intro node other isUnknown otherUnknown same
  have sorts := shares node other isUnknown otherUnknown same
  have values : anyValue node.type = anyValue other.type := by rw [anyValue, anyValue, sorts]
  simp only [Valuation.unknown?, Run.valuation, Run.keyValue, same, sorts, values]

theorem Run.Explained.valuation_keeps (explained : run.Explained root) {later : Assignment}
    (agrees : (run.valuation assign).Agrees root run later) {constant : String × ValueSort}
    (known : Known run constant) {v : Value}
    (evaluated : (Term.const constant.1 constant.2).eval assign = some v) :
    (Term.const constant.1 constant.2).eval later = some v := by
  rcases known with ⟨-, rfl⟩ | ⟨⟨key, term⟩, member, rfl⟩
  · obtain ⟨assigned, sorted⟩ := Option.filter_eq_some_iff.mp evaluated
    cases v with
    | mode mode =>
        have kept := agrees.mode
        rw [Run.valuation, assigned] at kept
        exact Option.filter_eq_some_iff.mpr ⟨kept, sorted⟩
    | bool _ | bits _ _ | float _ _ => simp [Value.sort] at sorted
  · rw [← explained.consistent.constants _ member] at evaluated ⊢
    have found := explained.consistent.lookup_eq_some member
    rcases explained.entries key term member with ⟨declaration, rfl, -⟩ | ⟨node, isUnknown, rfl, -⟩
    · rw [agrees.declared declaration term member]
      simp [Run.valuation, Run.keyValue, found, evaluated]
    · rw [agrees.unknown node isUnknown term member]
      simp [Run.valuation, Run.keyValue, found, evaluated]

end Valuations

/-! ## The verdict -/

/-- A solver that calls formulas unsatisfiable only if nothing makes them true. -/
def Sound (oracle : Oracle) : Prop :=
  ∀ timeout formula, oracle timeout formula = .unsat →
    ∀ assign, formula.eval assign ≠ some (.bool true)

def Complete (oracle : Oracle) : Prop :=
  ∀ timeout formula, (∀ assign, Term.eval assign formula ≠ some (.bool true)) →
    oracle timeout formula = .unsat

theorem check_unsatisfiable {oracle : Oracle} {options : Options} {formula : Term}
    {declared : List Solver.Constant} :
    (check oracle options formula declared).verdict = .unsatisfiable ↔
      oracle options.timeout formula = .unsat := by
  unfold check
  cases oracle options.timeout formula <;> simp

/-- The verdict "unsatisfiable" is right about every valuation that gives unknown
nodes of one text one value; so it is right about all valuations where unknown
nodes of one text are one node.  Nothing more is claimed by it: a complete solver
gives this verdict as soon as these valuations make the condition false. -/
theorem unsatisfiable_iff_false_by_texts [Limits] (oracle : Oracle) (sound : Sound oracle)
    (options : Options) (node : Expr) :
    ((analyze oracle options node).outcome = .ok (some .unsatisfiable) →
      (∀ V : Valuation, V.Fits node → V.SharesTexts node → V.value? node = some (.bool false)) ∧
      ((∀ first second, IsUnknown node first → IsUnknown node second →
          first.label = second.label → first = second) →
        ∀ V : Valuation, V.Fits node → V.value? node = some (.bool false))) ∧
    (Complete oracle → SharesSorts node →
      (∃ verdict, (analyze oracle options node).outcome = .ok (some verdict)) →
      (∀ V : Valuation, V.Fits node → V.SharesTexts node → V.value? node = some (.bool false)) →
      (analyze oracle options node).outcome = .ok (some .unsatisfiable)) := by
  constructor
  · intro decided
    obtain ⟨formula, run, news, made, sorted, -, -, outcome, -⟩ := analyze_verdict decided
    rw [outcome] at decided
    have refuted := check_unsatisfiable.mp (Option.some.inj (Except.ok.inj decided))
    have right : ∀ V : Valuation, V.Fits node → V.SharesTexts node →
        V.value? node = some (.bool false) := by
      intro V fits shares
      obtain ⟨later, more, same, -, explained, denotes⟩ :=
        formulate_yields (shares.sorts fits) _ _ _ _ (initial_explained node)
          (Build.outcome_ok.mp made)
      have value := denotes.value V _ fits (shares.agrees fits explained)
      have valueSort := sort_value? fits node (List.Subset.refl _)
      rw [← denotes.sort, Option.map_some, sorted] at valueSort
      obtain ⟨x, valued, isBool⟩ := Option.map_eq_some_iff.mp valueSort
      obtain ⟨truth, rfl⟩ := Value.eq_bool isBool
      cases truth with
      | false => exact valued
      | true =>
          rw [valued] at value
          exact absurd value (sound _ _ refuted _)
    refine ⟨right, ?_⟩
    intro identified V fits
    refine right V fits ?_
    intro first second firstUnknown secondUnknown same
    rw [identified first second firstUnknown secondUnknown same]
  · rintro complete shares ⟨verdict, decided⟩ false
    obtain ⟨formula, run, news, made, sorted, consistent, built, outcome, -⟩ :=
      analyze_verdict decided
    obtain ⟨later, more, same, -, explained, denotes⟩ :=
      formulate_yields shares _ _ _ _ (initial_explained node) (Build.outcome_ok.mp made)
    cases same
    have refuted : ∀ assign, formula.term.eval assign ≠ some (.bool true) := by
      intro assign evaluated
      have fits : (run.valuation assign).Fits node := explained.valuation_fits shares
      have texts := run.valuation_sharesTexts assign shares
      have agrees := texts.agrees fits explained
      obtain ⟨x, kept, like⟩ := built.like consistent (fun constant inside v value =>
        ⟨v, explained.valuation_keeps agrees (built.known consistent constant inside) value,
          .same v⟩) evaluated
      rw [← like.eq nofun] at kept
      have value := denotes.value _ _ fits agrees
      rw [Option.bind_some, kept, false _ fits texts] at value
      cases value
    rw [outcome, check_unsatisfiable.mpr (complete _ _ refuted)]

/-! ## Two fields of one name -/

/-- A reference to a field called `count`, of the class with this number. -/
def countField (number : Nat) : Expr :=
  .reference (some ⟨"count", .field, .int, number⟩) .int "count" none

/-- The tree of `(count == 1) && (count == 2)`, where the two fields are
different ones. -/
def twoCounts : Expr :=
  .binary (.ofTag (.connective .andAlso))
    (.binary (.ofTag (.comparison .equal .int)) (countField 1)
      (.literal ⟨.int 1, .int⟩ .int "1") .bool "count == 1" none)
    (.binary (.ofTag (.comparison .equal .int)) (countField 2)
      (.literal ⟨.int 2, .int⟩ .int "2") .bool "count == 2" none)
    .bool "(count == 1) && (count == 2)" none

def twoCountsFormula : Term :=
  let count := Term.const "variable from expr: 'count'" (.bits 32)
  .and (.equal count (.bits 32 1)) (.equal count (.bits 32 2))

def refuting (refuted : Term) : Oracle := fun _ formula =>
  if formula = refuted then .unsat else .unknown "timeout"

theorem refuting_sound {refuted : Term} (never : ∀ assign, refuted.eval assign ≠ some (.bool true)) :
    Sound (refuting refuted) := by
  intro timeout formula answered
  unfold refuting at answered
  split at answered
  · next same =>
      rw [same]
      exact never
  · cases answered

theorem twoCountsFormula_false (assign : Assignment) :
    twoCountsFormula.eval assign ≠ some (.bool true) := by
  intro holds
  cases value : (Term.const "variable from expr: 'count'" (.bits 32)).eval assign with
  | none =>
      rw [twoCountsFormula, Term.eval, Term.eval, value] at holds
      cases holds
  | some x =>
      have sorted := (Option.filter_eq_some_iff.mp value).2
      obtain ⟨word, rfl⟩ := Value.eq_bits (by simpa using sorted)
      rw [twoCountsFormula, Term.eval, equal_eval value rfl, equal_eval value rfl] at holds
      have both : word = 1 ∧ word = 2 := by simpa [Value.bool2] using holds
      exact absurd (both.1.symm.trans both.2) (by decide)

theorem twoCounts_outcome :
    (analyze (refuting twoCountsFormula) {} twoCounts).outcome = .ok (some .unsatisfiable) := by
  rfl

/-- Under valuations that give both fields one value the condition is false. -/
theorem unsatisfiable_iff_false_by_texts_two_counts :
    Sound (refuting twoCountsFormula) ∧
    (analyze (refuting twoCountsFormula) {} twoCounts).outcome = .ok (some .unsatisfiable) ∧
    ∀ V : Valuation, V.Fits twoCounts → V.SharesTexts twoCounts →
      V.value? twoCounts = some (.bool false) := by
  have sound := refuting_sound twoCountsFormula_false
  refine ⟨sound, twoCounts_outcome, ?_⟩
  exact ((unsatisfiable_iff_false_by_texts _ sound {} twoCounts).1 twoCounts_outcome).1

def numberedFields : Valuation where
  declared declaration := anyValue declaration.type
  unknown
    | .reference (some declaration) _ _ _ => .bits 32 (BitVec.ofNat 32 declaration.id)
    | node => anyValue node.type
  mode := .nearestEven

/-- The verdict is wrong about the two fields: the condition holds when the first
is 1 and the second is 2. -/
theorem two_counts_called_unsatisfiable :
    Sound (refuting twoCountsFormula) ∧
    (analyze (refuting twoCountsFormula) {} twoCounts).outcome = .ok (some .unsatisfiable) ∧
    numberedFields.Fits twoCounts ∧
    numberedFields.value? twoCounts = some (.bool true) := by
  refine ⟨refuting_sound twoCountsFormula_false, rfl, ⟨?_, ?_⟩, by decide⟩
  · intro declaration _ sort typed
    exact sort_anyValue typed
  · rintro node ⟨member, isUnknown⟩ sort typed
    simp only [twoCounts, countField, Expr.preorder, List.cons_append, List.nil_append,
      List.mem_cons, List.not_mem_nil, or_false] at member
    rcases member with rfl | rfl | rfl | rfl | rfl | rfl | rfl
    all_goals
      cases typed
      rfl

end CondSat.Analysis
