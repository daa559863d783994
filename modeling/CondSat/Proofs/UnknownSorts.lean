import CondSat.Proofs.Repetition

/-! # The sort of an unknown

The unknown that stands for a node is found by the text of the node, or by its value where
it is a number: by the label.  Where the label has no unknown yet, a new one gets the sort of
the node's type; where it has one, this is the answer, whatever sort the node's type has.
A text under which no constant can be made has neither.

After any trees have been formulated in a session, the unknown of a label has the sort of a
node with this label in one of the trees.  So an answer differs in sort from the type of its
node only where a tree has a node of the same label and of another sort. -/
set_option autoImplicit false
namespace CondSat.Analysis

open Source

def SortOfNode (trees : List Expr) (key : Key) (term : TypedTerm) : Prop :=
  ∀ label, key = .unmodelled label → ∃ tree ∈ trees, ∃ other ∈ tree.preorder,
    other.label = label ∧ other.type.sort? = some term.sort

theorem formulate_sortOfNode [Limits] {trees : List Expr} {tree : Expr} (member : tree ∈ trees) :
    (formulate tree).BindsOnly (SortOfNode trees) := by
  apply formulate_bindsOnly
  · intro declaration _ name sort _ label same
    cases same
  · intro node found name sort sorted label same
    cases same
    exact ⟨tree, member, node, found, rfl, sorted⟩

/-- Wherever a failed tree leaves the session, the next one goes on from there. -/
theorem formulateAll_sortOfNode [Limits] {all trees : List Expr} (inside : trees ⊆ all)
    {start : Progress} (bound : start.Binds (SortOfNode all)) :
    (performAll (trees.map .formulate) start).Binds (SortOfNode all) := by
  induction trees generalizing start with
  | nil => exact bound
  | cons tree rest ih =>
      have first : tree ∈ all := inside (by simp)
      apply ih
      · exact fun other member => inside (by simp [member])
      · exact formulate_sortOfNode first start bound

theorem formulateAll_opened [Limits] (trees : List Expr) :
    ∃ run, (performAll (trees.map .formulate) ⟨.start, []⟩).session = .opened run ∧
      run.Consistent := by
  have permitted : ∀ operation ∈ trees.map Operation.formulate, operation.Permitted := by
    intro operation member
    obtain ⟨tree, -, rfl⟩ := List.mem_map.mp member
    trivial
  have unclosed : Operation.closeSession ∉ trees.map Operation.formulate := by simp
  obtain ⟨run, opened, -⟩ := performAll_extends permitted unclosed
    (rfl : (⟨.start, []⟩ : Progress).session = .opened .initial)
  refine ⟨run, opened, performAll_consistent permitted ?_ run opened⟩
  intro initial same
  cases same
  exact initial_consistent

theorem Bindings.bind_sort {bindings : Bindings} {key : Key} (missing : bindings.get? key = none)
    (type : SourceType) (name : String) :
    (bindings.bind key type name).1.map (·.sort) = type.sort? := by
  rcases bindings.bind_cases key type name with
    ⟨term, found, -⟩ | ⟨-, unsorted, result⟩ | ⟨sort, -, sorted, result⟩
  · rw [missing] at found
    cases found
  · rw [result, unsorted]
    rfl
  · rw [result, sorted]
    rfl

theorem Run.Consistent.bind_constant {run : Run} (consistent : run.Consistent) {key : Key}
    {type : SourceType} {name : String} {constant : TypedTerm}
    (answered : (run.bindings.bind key type name).1 = some constant) :
    constant.term = .const constant.name constant.sort := by
  rcases run.bindings.bind_cases key type name with
    ⟨term, found, result⟩ | ⟨-, -, result⟩ | ⟨sort, -, -, result⟩ <;>
    rw [result] at answered <;> cases answered
  · exact consistent.constants _ (Bindings.mem_of_get? found)
  · rfl

/-- Trees are formulated one after the other in a fresh session, and then the unknown of
some node is asked for.  There is an answer unless no constant can be called by the text of
the node.  The answer has the sort of the node's type, and is missing when the
type has no sort, exactly when the label of the node has no unknown of another sort; an
unknown that the label has already is the answer and has the sort of a node of one of the
trees with this label. -/
theorem unknown_has_sort_of_type_iff [Limits] (trees : List Expr) (node : Expr) :
    ∃ run, (performAll (trees.map .formulate) ⟨.start, []⟩).session = .opened run ∧
      ((∃ failure, Build.nameFault? node.text node.type = some failure ∧
        Build.bindUnmodelled node (performAll (trees.map .formulate) ⟨.start, []⟩) =
          .error failure (performAll (trees.map .formulate) ⟨.start, []⟩)) ∨
      (Build.nameFault? node.text node.type = none ∧ ∃ answer final,
        Build.bindUnmodelled node (performAll (trees.map .formulate) ⟨.start, []⟩) =
          .ok answer final ∧
        (∀ constant, answer = some constant →
          constant.term = .const constant.name constant.sort) ∧
        (answer.map (·.sort) = node.type.sort? ↔
          ∀ known, run.bindings.get? (.unmodelled node.label) = some known →
            node.type.sort? = some known.sort) ∧
        (∀ known, run.bindings.get? (.unmodelled node.label) = some known →
          answer = some known ∧ ∃ tree ∈ trees, ∃ other ∈ tree.preorder,
            other.label = node.label ∧ other.type.sort? = some known.sort) ∧
        ((∀ tree ∈ trees, ∀ other ∈ tree.preorder, other.label = node.label →
            other.type.sort? = node.type.sort?) →
          answer.map (·.sort) = node.type.sort?))) := by
  obtain ⟨run, opened, consistent⟩ := formulateAll_opened trees
  have origin := formulateAll_sortOfNode (List.Subset.refl trees) (initial_binds _) run opened
  generalize performAll (trees.map .formulate) ⟨.start, []⟩ = reached at opened origin
  obtain ⟨session, events⟩ := reached
  cases opened
  have asked := Build.bindNamed_opened run events (.unmodelled node.label) node.type node.text
    (Build.unmodelledName node.text)
  refine ⟨run, rfl, ?_⟩
  by_cases named : Build.nameFault? node.text node.type = none
  swap
  · obtain ⟨failure, fault⟩ := Option.ne_none_iff_exists'.mp named
    rw [fault] at asked
    exact Or.inl ⟨failure, fault, asked⟩
  rw [named] at asked
  let answer := (run.bindings.bind (.unmodelled node.label) node.type
    (Build.unmodelledName node.text)).1
  have known : ∀ term, run.bindings.get? (.unmodelled node.label) = some term →
      answer = some term ∧ ∃ tree ∈ trees, ∃ other ∈ tree.preorder,
        other.label = node.label ∧ other.type.sort? = some term.sort := by
    intro term found
    refine ⟨?_, origin _ (Bindings.mem_of_get? found) node.label rfl⟩
    change (run.bindings.bind _ _ _).1 = some term
    rw [Bindings.bind, found]
  have sorted : answer.map (·.sort) = node.type.sort? ↔
      ∀ term, run.bindings.get? (.unmodelled node.label) = some term →
        node.type.sort? = some term.sort := by
    cases found : run.bindings.get? (.unmodelled node.label) with
    | none =>
        have fresh : answer.map (·.sort) = node.type.sort? := Bindings.bind_sort found _ _
        simp [fresh]
    | some term =>
        rw [(known term found).1]
        simp [eq_comm]
  refine Or.inr ⟨named, answer, _, asked.trans (Build.bind_opened run events _ _ _),
    fun constant => consistent.bind_constant, sorted, known, ?_⟩
  intro agree
  apply sorted.mpr
  intro term found
  obtain ⟨-, tree, member, other, inside, same, otherSorted⟩ := known term found
  rw [← agree tree member other inside same]
  exact otherSorted

def defaultFlag : Expr :=
  .binary (.ofTag (.connective .andAlso)) (.unmodelled .other .bool "default" [] none)
    (.reference (some ⟨"ready", .localVariable, .bool, 1⟩) .bool "ready" none) .bool
    "default && ready" none

/-- Once `default` stands for a truth value, it does so where it is a text or a number. -/
theorem default_stays_a_truth_value :
    let flag : TypedTerm := ⟨.const "variable from expr: 'default'" .bool, .bool⟩
    let reached := performAll [.formulate defaultFlag] ⟨.start, []⟩
    (SourceType.string.sort? = none ∧ ∃ final,
      Build.bindUnmodelled (.unmodelled .other .string "default" [] none) reached =
        .ok (some flag) final) ∧
    (SourceType.int.sort? = some (.bits 32) ∧ ∃ final,
      Build.bindUnmodelled (.unmodelled .other .int "default" [] none) reached =
        .ok (some flag) final) :=
  ⟨⟨rfl, _, rfl⟩, rfl, _, rfl⟩

end CondSat.Analysis
