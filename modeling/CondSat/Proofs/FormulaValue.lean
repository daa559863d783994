import CondSat.Proofs.FormulaMeaning

/-! # The value of a formula under a valuation

A valuation gives every bound constant the value of what it stands for.  Since no
two constants of a session share a name, this is one assignment, and under it a
formula has the value of its tree. -/
set_option autoImplicit false
namespace CondSat.Analysis

open Ieee (RoundingMode)
open Solver (Assignment Term Value ValueSort)
open Source

def Run.assignment (run : Run) (value : Key → Value) (mode : RoundingMode) : Assignment :=
  fun name sort =>
    if name = roundingModeName then some (.mode mode)
    else
      (run.bindings.bound.find? fun entry => entry.2.name == name && entry.2.sort == sort).map
        fun entry => value entry.1

theorem Run.Consistent.find_eq_some {run : Run} (consistent : run.Consistent) {key : Key}
    {term : TypedTerm} (member : (key, term) ∈ run.bindings.bound) :
    run.bindings.bound.find? (fun entry => entry.2.name == term.name && entry.2.sort == term.sort) =
      some (key, term) := by
  obtain ⟨before, after, split⟩ := List.append_of_mem member
  have distinct := (List.nodup_cons.mp consistent.names).2
  rw [split, List.map_append, List.map_cons] at distinct
  have disjoint := List.disjoint_of_nodup_append distinct
  refine List.find?_eq_some_iff_append.mpr ⟨by simp, before, after, split, ?_⟩
  intro entry earlier
  have apart : entry.2.name ≠ term.name := by
    intro same
    exact disjoint (List.mem_map_of_mem earlier) (by simp [same])
  simp [apart]

theorem Run.Consistent.eval_assignment {run : Run} (consistent : run.Consistent) {key : Key}
    {term : TypedTerm} (member : (key, term) ∈ run.bindings.bound) {value : Key → Value}
    (mode : RoundingMode) (sorted : (value key).sort = term.sort) :
    term.term.eval (run.assignment value mode) = some (value key) := by
  have named : term.name ≠ roundingModeName := by
    rintro same
    refine (List.nodup_cons.mp consistent.names).1 (List.mem_map.mpr ⟨(key, term), member, same⟩)
  rw [consistent.constants (key, term) member]
  change (run.assignment value mode term.name term.sort).filter _ = _
  rw [Run.assignment, if_neg named, consistent.find_eq_some member]
  simp [sorted]

theorem Run.Explained.agrees {run : Run} {root : Expr} (explained : run.Explained root)
    (shares : SharesSorts root) {V : Valuation} (fits : V.Fits root) {value : Key → Value}
    (declared : ∀ declaration, value (.declaration declaration) = V.declared declaration)
    (unknown : ∀ node, IsUnknown root node → node.type.sort?.isSome = true →
      value (.unmodelled node.label) = V.unknown node) :
    V.Agrees root run (run.assignment value V.mode) where
  declared declaration term member := by
    have typed := explained.consistent.declared declaration term member
    have isVariable := explained.isVariable member
    rw [← declared declaration]
    refine explained.consistent.eval_assignment member V.mode ?_
    rw [declared]
    exact fits.declared declaration isVariable term.sort typed
  unknown node isUnknown term member := by
    obtain ⟨other, otherUnknown, same, otherTyped⟩ := explained.unknown member
    have typed : node.type.sort? = some term.sort :=
      (shares node other isUnknown otherUnknown same).trans otherTyped
    have valued := unknown node isUnknown (by rw [typed]; rfl)
    rw [← valued]
    refine explained.consistent.eval_assignment member V.mode ?_
    rw [valued]
    exact fits.unknown node isUnknown term.sort typed
  mode := if_pos rfl

def keyValue (declared : Declaration → Value) (unknown : Json → Value) : Key → Value
  | .declaration declaration => declared declaration
  | .unmodelled label => unknown label
  | .roundingMode | .label _ => .bool false

/-- The valuation that gives every unknown node the value of its label. -/
def Valuation.ofTexts (declared : Declaration → Value) (unknown : Json → Value)
    (mode : RoundingMode) : Valuation :=
  ⟨declared, fun node => unknown node.label, mode⟩

/-- The formula of a tree has the value of the tree: with every bound constant
set to the value of what it was bound for, and the rounding mode to the mode of
the valuation, the formula evaluates to what the tree means. -/
theorem formula_has_value_of_tree [Limits] (root : Expr)
    (texts : ∀ node ∈ root.preorder, ∀ other ∈ root.preorder, node.label = other.label →
      node.type = other.type)
    (declared : Declaration → Value) (unknown : Json → Value) (mode : RoundingMode)
    (fits : (Valuation.ofTexts declared unknown mode).Fits root)
    (formula : TypedTerm) (progress : Progress)
    (built : Build.outcome (formulate root) .start = (.ok (some formula), progress)) :
    ∃ run value, progress.session = .opened run ∧
      formula.term.eval (run.assignment (keyValue declared unknown) mode) = some value ∧
      (Valuation.ofTexts declared unknown mode).value? root = some value ∧
      value.sort = formula.sort := by
  have shares : SharesSorts root := by
    intro node other isUnknown otherUnknown same
    rw [texts node isUnknown.1 other otherUnknown.1 same]
  obtain ⟨run, news, rfl, -, explained, denotes⟩ :=
    formulate_yields shares _ _ _ _ (initial_explained root) (Build.outcome_ok.mp built)
  have agrees : Valuation.Agrees _ root run (run.assignment (keyValue declared unknown) mode) :=
    explained.agrees shares fits (fun _ => rfl) (fun _ _ _ => rfl)
  have sorted := sort_value? fits root (List.Subset.refl _)
  rw [← denotes.sort] at sorted
  obtain ⟨value, valued, same⟩ := Option.map_eq_some_iff.mp sorted
  refine ⟨run, value, rfl, ?_, valued, same⟩
  rw [← valued]
  exact denotes.value _ _ fits agrees

def anyValue (type : SourceType) : Value := (type.sort?.bind Value.default?).getD (.bool false)

theorem sort_anyValue {type : SourceType} {sort : ValueSort} (typed : type.sort? = some sort) :
    (anyValue type).sort = sort := by
  rw [anyValue, typed]
  unfold SourceType.sort? at typed
  cases kind : type.valueKind <;> rw [kind] at typed <;> cases typed <;> rfl

/-- The tree of `((a >> b) + 1) < f(a)`, where the call is not modelled. -/
def shiftedTree : Expr :=
  .binary (.ofTag (.comparison .less .int))
    (.binary (.ofTag (.arithmetic .plus .int))
      (.binary (.ofTag (.shift .right .int))
        (.reference (some ⟨"a", .localVariable, .int, 1⟩) .int "a" none)
        (.reference (some ⟨"b", .parameter, .int, 2⟩) .int "b" none) .int "a >> b" none)
      (.literal ⟨.int 1, .int⟩ .int "1") .int "(a >> b) + 1" none)
    (.unmodelled .invocation .int "f(a)" [] none) .bool "((a >> b) + 1) < f(a)" none

def shiftedValue (declaration : Declaration) : Value :=
  if declaration.type = .int then .bits 32 (if declaration.id = 1 then -9 else 33)
  else anyValue declaration.type

/-- A count of 33 shifts by one place: `-5 + 1` is less than `-3`. -/
theorem formula_has_value_of_tree_shifted :
    ∃ formula progress run,
      Build.outcome (formulate shiftedTree) .start = (.ok (some formula), progress) ∧
      progress.session = .opened run ∧
      formula.term.eval (run.assignment (keyValue shiftedValue fun _ => .bits 32 (-3)) .nearestEven) =
        some (.bool true) := by
  have texts : ∀ node ∈ shiftedTree.preorder, ∀ other ∈ shiftedTree.preorder,
      node.label = other.label → node.type = other.type := by
    simp [shiftedTree, Expr.preorder, Expr.preorders, Expr.label, Expr.text, Expr.type]
  have fits : (Valuation.ofTexts shiftedValue (fun _ => .bits 32 (-3)) .nearestEven).Fits
      shiftedTree := by
    constructor
    · intro declaration _ sort typed
      change (shiftedValue declaration).sort = sort
      unfold shiftedValue
      split
      · next int =>
          rw [int] at typed
          cases typed
          rfl
      · exact sort_anyValue typed
    · rintro node ⟨member, isUnknown⟩ sort typed
      simp only [shiftedTree, Expr.preorder, Expr.preorders, List.cons_append, List.nil_append,
        List.mem_cons, List.not_mem_nil, or_false] at member
      rcases member with rfl | rfl | rfl | rfl | rfl | rfl | rfl
      all_goals first | (cases typed; rfl) | cases isUnknown
  obtain ⟨run, value, opened, evaluated, valued, -⟩ :=
    formula_has_value_of_tree shiftedTree texts shiftedValue (fun _ => .bits 32 (-3)) .nearestEven
      fits _ _ rfl
  have meaning : (Valuation.ofTexts shiftedValue (fun _ => .bits 32 (-3)) .nearestEven).value?
      shiftedTree = some (.bool true) := by decide
  rw [← valued, meaning] at evaluated
  exact ⟨_, _, run, rfl, opened, evaluated⟩

end CondSat.Analysis
