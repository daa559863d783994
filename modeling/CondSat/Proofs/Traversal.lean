import CondSat.Analysis.Highlighting
import CondSat.Proofs.DocumentNodes
import CondSat.Proofs.Steps
import Mathlib.Computability.StateTransition

/-! # The order in which a tree is visited

A tree is walked with a stack of nodes that are still to be visited: the last one is taken
off, and its children are put on in reverse.  What has been visited, followed by the trees
of the nodes on the stack from the last to the first, is the same after every turn, so the
walk is the recursive order.  By positions this is the order in which a node comes before
the nodes below it and these in the order of their parts.  Highlightings are shown in this
order, at most one for a position. -/
set_option autoImplicit false
namespace CondSat

namespace Source

/-! ## The order of positions -/

/-- Whether a position comes before another: it is above it, or where they part it goes
into an earlier part. -/
def Earlier (first second : List Step) : Prop :=
  first <+: second ∧ first ≠ second ∨ Precedes first second

theorem earlier_nil (step : Step) (steps : List Step) : Earlier [] (step :: steps) :=
  Or.inl ⟨List.nil_prefix, by simp⟩

theorem not_earlier_nil (steps : List Step) : ¬ Earlier steps [] := by
  cases steps <;> simp [Earlier, Precedes]

theorem earlier_cons {step other : Step} {steps otherSteps : List Step} :
    Earlier (step :: steps) (other :: otherSteps) ↔
      step.rank < other.rank ∨ step = other ∧ Earlier steps otherSteps := by
  simp only [Earlier, Precedes, List.cons_prefix_cons, ne_eq, List.cons.injEq]
  tauto

theorem Earlier.asymm {first second : List Step} (before : Earlier first second) :
    ¬ Earlier second first := by
  induction first generalizing second with
  | nil => exact not_earlier_nil second
  | cons step steps ih =>
      cases second with
      | nil => exact absurd before (not_earlier_nil _)
      | cons other otherSteps =>
          rw [earlier_cons] at before ⊢
          rintro (smaller | ⟨rfl, later⟩)
          · rcases before with less | ⟨rfl, -⟩ <;> omega
          · rcases before with less | ⟨-, sooner⟩
            · omega
            · exact ih sooner later

namespace Expr

/-! ## The recursive order -/

theorem preorder_eq (node : Expr) : node.preorder = node :: node.children.flatMap preorder := by
  cases node <;> simp [preorder, children, preorders_eq_flatMap]

theorem visit_eq (pending : List Expr) : visit pending = pending.flatMap preorder := by
  induction pending using visit.induct with
  | case1 => rw [visit]; rfl
  | case2 node pending ih =>
      rw [visit, ih, List.flatMap_append, List.flatMap_cons, preorder_eq, List.cons_append]

theorem walk_eq_preorder (root : Expr) : root.walk = root.preorder := by
  rw [walk, visit_eq, List.flatMap_singleton]

/-! ## The loop -/

/-- A turn of the walk: the stack, with the next node last, and the nodes visited so far. -/
def walkTurn : List Expr × List Expr → Option (List Expr × List Expr)
  | (stack, visited) => stack.getLast?.map fun node =>
    (stack.dropLast ++ node.children.reverse, visited ++ [node])

theorem walkTurn_concat (stack visited : List Expr) (node : Expr) :
    walkTurn (stack ++ [node], visited) =
      some (stack ++ node.children.reverse, visited ++ [node]) := by
  simp [walkTurn]

theorem sizes_reverse (nodes : List Expr) : sizes nodes.reverse = sizes nodes := by
  induction nodes with
  | nil => rfl
  | cons node rest ih => simp [sizes_append, sizes, ih]; omega

/-- What has been visited and what is still to come. -/
def walkOrder (state : List Expr × List Expr) : List Expr :=
  state.2 ++ state.1.reverse.flatMap preorder

theorem walkOrder_concat (stack visited : List Expr) (node : Expr) :
    walkOrder (stack ++ node.children.reverse, visited ++ [node]) =
      walkOrder (stack ++ [node], visited) := by
  simp [walkOrder, preorder_eq node]

theorem walkTurn_keeps {state next : List Expr × List Expr} (turned : walkTurn state = some next) :
    walkOrder next = walkOrder state := by
  obtain ⟨stack, visited⟩ := state
  rcases List.eq_nil_or_concat stack with rfl | ⟨rest, node, rfl⟩
  · simp [walkTurn] at turned
  · rw [List.concat_eq_append, walkTurn_concat] at turned
    cases turned
    rw [walkOrder_concat, List.concat_eq_append]

theorem walk_keeps {state later : List Expr × List Expr}
    (reached : StateTransition.Reaches walkTurn state later) :
    walkOrder later = walkOrder state := by
  induction reached with
  | refl => rfl
  | tail _ turned ih => exact (walkTurn_keeps turned).trans ih

theorem walk_ends (stack visited : List Expr) :
    ∃ all, StateTransition.Reaches walkTurn (stack, visited) ([], all) := by
  induction left : sizes stack using Nat.strong_induction_on generalizing stack visited with
  | _ count ih =>
      rcases List.eq_nil_or_concat stack with rfl | ⟨rest, node, rfl⟩
      · exact ⟨visited, .refl⟩
      · rw [List.concat_eq_append] at left ⊢
        have fewer : sizes (rest ++ node.children.reverse) < count := by
          have := sizes_children_lt node
          rw [sizes_append] at left ⊢
          rw [sizes_reverse]
          simp only [sizes] at left
          omega
        obtain ⟨all, reached⟩ := ih _ fewer _ (visited ++ [node]) rfl
        exact ⟨all, reached.head (walkTurn_concat rest visited node)⟩

theorem walk_eval (root : Expr) :
    StateTransition.eval walkTurn ([root], []) = Part.some ([], root.preorder) := by
  obtain ⟨all, reached⟩ := walk_ends [root] []
  have order := walk_keeps reached
  simp only [walkOrder, List.reverse_nil, List.flatMap_nil, List.append_nil, List.reverse_singleton,
    List.flatMap_singleton, List.nil_append] at order
  rw [order] at reached
  exact Part.eq_some_iff.mpr (StateTransition.mem_eval.mpr ⟨reached, rfl⟩)

/-! ## Positions -/

def parts : Expr → List (Step × Expr)
  | unary _ operand _ _ _ => [(.operand, operand)]
  | binary _ left right _ _ _ => [(.left, left), (.right, right)]
  | unmodelled _ _ _ children _ => children.zipIdx.map fun entry => (.child entry.2, entry.1)
  | _ => []

theorem parts_nodes (node : Expr) : node.parts.map (·.2) = node.children := by
  cases node <;> simp [parts, children, Function.comp_def]

theorem mem_parts {node part : Expr} {step : Step} :
    (step, part) ∈ node.parts ↔ node.part? step = some part := by
  cases node with
  | literal | reference => simp [parts, part?]
  | unary | binary => cases step <;> simp [parts, part?, eq_comm]
  | unmodelled =>
      cases step <;> simp [parts, part?, List.mem_zipIdx_iff_getElem?]

theorem parts_ordered (node : Expr) :
    node.parts.Pairwise fun first second => first.1.rank < second.1.rank := by
  cases node with
  | literal | reference | unary => simp [parts]
  | binary => simp [parts, Step.rank]
  | unmodelled shape type text children constant =>
      have indexes : (children.zipIdx.map (·.2)).Pairwise (· < ·) := by
        rw [List.zipIdx_map_snd]
        exact List.pairwise_lt_range'
      rw [parts, List.pairwise_map]
      exact List.pairwise_map.mp indexes

/-- Induction in which all parts of a node are alike. -/
@[elab_as_elim]
theorem partInduction {motive : Expr → Prop}
    (node : ∀ root : Expr, (∀ step part, root.part? step = some part → motive part) → motive root)
    (root : Expr) : motive root := by
  induction root using treeInduction with
  | literal | reference => exact node _ fun step part found => by cases step <;> cases found
  | unary operator operand type text constant ih =>
      refine node _ fun step part found => ?_
      cases step <;> cases found
      exact ih
  | binary operator left right type text constant leftIh rightIh =>
      refine node _ fun step part found => ?_
      cases step <;> cases found
      · exact leftIh
      · exact rightIh
  | unmodelled shape type text children constant ih =>
      refine node _ fun step part found => ?_
      cases step with
      | child index => exact ih part (List.mem_of_getElem? found)
      | _ => cases found

mutual

/-- The positions of a tree, in the order in which its nodes are visited. -/
def positions : Expr → List (List Step)
  | unary _ operand _ _ _ => [] :: (positions operand).map (.operand :: ·)
  | binary _ left right _ _ _ =>
    [] :: ((positions left).map (.left :: ·) ++ (positions right).map (.right :: ·))
  | unmodelled _ _ _ children _ => [] :: childPositions 0 children
  | _ => [[]]

def childPositions (start : Nat) : List Expr → List (List Step)
  | [] => []
  | child :: rest => (positions child).map (.child start :: ·) ++ childPositions (start + 1) rest

end

theorem childPositions_eq (start : Nat) (nodes : List Expr) :
    childPositions start nodes =
      (nodes.zipIdx start).flatMap fun entry => (positions entry.1).map (.child entry.2 :: ·) := by
  induction nodes generalizing start with
  | nil => rfl
  | cons node rest ih => rw [childPositions, ih, List.zipIdx_cons, List.flatMap_cons]

theorem positions_eq (node : Expr) :
    node.positions = [] :: node.parts.flatMap fun entry => entry.2.positions.map (entry.1 :: ·) := by
  cases node with
  | literal | reference => rfl
  | unary | binary => simp [positions, parts]
  | unmodelled => rw [positions, childPositions_eq, parts, List.flatMap_map]

theorem mem_positions {root : Expr} {steps : List Step} :
    steps ∈ root.positions ↔ (root.at? steps).isSome := by
  induction root using partInduction generalizing steps with
  | node root ih =>
      rw [positions_eq]
      cases steps with
      | nil => simp [at?]
      | cons step rest =>
          constructor
          · intro member
            obtain ⟨entry, inside, below⟩ := List.mem_flatMap.mp (List.mem_of_ne_of_mem (by simp) member)
            obtain ⟨_, lower, same⟩ := List.mem_map.mp below
            cases same
            have found := mem_parts.mp inside
            rw [at?, found]
            exact (ih _ _ found).mp lower
          · intro leads
            rw [at?] at leads
            cases found : root.part? step with
            | none => simp [found] at leads
            | some part =>
                rw [found] at leads
                refine List.mem_cons_of_mem _ (List.mem_flatMap.mpr ⟨_, mem_parts.mpr found, ?_⟩)
                exact List.mem_map_of_mem ((ih _ _ found).mpr leads)

/-- Following the positions gives the nodes in their order. -/
theorem map_at?_positions (root : Expr) :
    root.positions.map (root.at? ·) = root.preorder.map some := by
  induction root using partInduction with
  | node root ih =>
      rw [positions_eq, preorder_eq, ← parts_nodes, List.map_cons, List.map_cons, List.flatMap_map,
        List.map_flatMap, List.map_flatMap]
      refine congrArg (some root :: ·) (List.flatMap_congr fun entry inside => ?_)
      have found := mem_parts.mp inside
      rw [List.map_map, ← ih _ _ found]
      refine List.map_congr_left fun steps _ => ?_
      simp [at?, found]

theorem positions_ordered (root : Expr) : root.positions.Pairwise Earlier := by
  induction root using partInduction with
  | node root ih =>
      rw [positions_eq, List.pairwise_cons, List.pairwise_flatMap]
      refine ⟨?_, ?_, ?_⟩
      · intro steps member
        obtain ⟨entry, -, inner⟩ := List.mem_flatMap.mp member
        obtain ⟨rest, -, rfl⟩ := List.mem_map.mp inner
        exact earlier_nil _ _
      · intro entry inside
        rw [List.pairwise_map]
        exact (ih _ _ (mem_parts.mp inside)).imp fun before => earlier_cons.mpr (Or.inr ⟨rfl, before⟩)
      · refine root.parts_ordered.imp fun less => ?_
        intro first here second there
        obtain ⟨firstRest, -, rfl⟩ := List.mem_map.mp here
        obtain ⟨secondRest, -, rfl⟩ := List.mem_map.mp there
        exact earlier_cons.mpr (Or.inl less)

theorem positions_nodup (root : Expr) : root.positions.Nodup :=
  root.positions_ordered.imp fun before same => (same ▸ before).asymm (same ▸ before)

theorem idxOf_lt_iff {root : Expr} {first second : List Step} (here : first ∈ root.positions)
    (there : second ∈ root.positions) :
    root.positions.idxOf first < root.positions.idxOf second ↔ Earlier first second := by
  have ordered : ∀ {a b : List Step}, a ∈ root.positions → b ∈ root.positions →
      root.positions.idxOf a < root.positions.idxOf b → Earlier a b := by
    intro a b inside also less
    have pair := List.pairwise_iff_getElem.mp root.positions_ordered _ _
      (List.idxOf_lt_length_of_mem inside) (List.idxOf_lt_length_of_mem also) less
    rwa [List.getElem_idxOf, List.getElem_idxOf] at pair
  refine ⟨ordered here there, fun before => ?_⟩
  rcases Nat.lt_trichotomy (root.positions.idxOf first) (root.positions.idxOf second) with
    less | same | more
  · exact less
  · have equal := (List.idxOf_inj here).mp same
    exact absurd before (equal ▸ fun again => again.asymm again)
  · exact absurd before (ordered there here more).asymm

end Expr

end Source

namespace Analysis

open Source
open Solver (Oracle)

/-! ## Highlightings -/

section

variable {oracle : Oracle} {options : Options}

def highlighting? [Limits] (oracle : Oracle) (options : Options) (node : Expr) :
    Option Highlighting :=
  (highlight oracle options node).toOption.join

theorem highlighting?_eq [Limits] {node : Expr} {found : Option Highlighting}
    (ends : highlight oracle options node = .ok found) :
    highlighting? oracle options node = found := by
  rw [highlighting?, ends]
  rfl

theorem analyze_of_not_candidate [Limits] {node : Expr} (other : isCandidate node = false) :
    (analyze oracle options node).outcome = .ok none := by
  rw [analyze, other]
  rfl

theorem Highlighting.node_of_ofVerdict? {node : Expr} {verdict : Verdict} {shown : Highlighting}
    (worth : Highlighting.ofVerdict? options node verdict = some shown) : shown.node = node := by
  cases verdict with
  | unsatisfiable =>
      cases worth
      rfl
  | satisfiable model =>
      rw [Highlighting.ofVerdict?] at worth
      split at worth <;> cases worth
      rfl
  | inconclusive reason => cases worth

/-- Only a candidate is highlighted, and the highlighting is about this node. -/
theorem candidate_of_highlight [Limits] {node : Expr} {shown : Highlighting}
    (ends : highlight oracle options node = .ok (some shown)) :
    isCandidate node = true ∧ shown.node = node := by
  obtain ⟨verdict, outcome, worth⟩ := map_ok ends
  cases verdict with
  | none => cases worth
  | some verdict =>
      refine ⟨?_, Highlighting.node_of_ofVerdict? worth⟩
      by_contra other
      rw [analyze_of_not_candidate (Bool.eq_false_iff.mpr other)] at outcome
      cases outcome

theorem highlightAll_cons [Limits] {node : Expr} {found : Option Highlighting}
    (ends : highlight oracle options node = .ok found) (rest : List Expr) :
    highlightAll oracle options (node :: rest) =
      (highlightAll oracle options rest).map (found.toList ++ ·) := by
  rw [highlightAll, ends]
  cases highlightAll oracle options rest <;> rfl

theorem highlightAll_of_ok [Limits] {nodes : List Expr}
    (all : ∀ node ∈ nodes, ∃ found, highlight oracle options node = .ok found) :
    highlightAll oracle options nodes = .ok (nodes.filterMap (highlighting? oracle options)) := by
  induction nodes with
  | nil => rfl
  | cons node rest ih =>
      obtain ⟨found, ends⟩ := all node List.mem_cons_self
      rw [highlightAll_cons ends, ih fun other inside => all other (List.mem_cons_of_mem _ inside),
        List.filterMap_cons, highlighting?_eq ends]
      cases found <;> rfl

theorem highlightAll_of_error [Limits] {before after : List Expr} {node : Expr} {failure : Failure}
    (all : ∀ other ∈ before, ∃ found, highlight oracle options other = .ok found)
    (fails : highlight oracle options node = .error failure) :
    highlightAll oracle options (before ++ node :: after) = .error failure := by
  induction before with
  | nil =>
      rw [List.nil_append, highlightAll, fails]
      rfl
  | cons first rest ih =>
      obtain ⟨found, ends⟩ := all first List.mem_cons_self
      rw [List.cons_append, highlightAll_cons ends,
        ih fun other inside => all other (List.mem_cons_of_mem _ inside)]
      rfl

/-- Either no node fails or there is a first one that does. -/
theorem all_ok_or_first_error [Limits] (oracle : Oracle) (options : Options) (nodes : List Expr) :
    (∀ node ∈ nodes, ∃ found, highlight oracle options node = .ok found) ∨
      ∃ before node after failure, nodes = before ++ node :: after ∧
        (∀ other ∈ before, ∃ found, highlight oracle options other = .ok found) ∧
        highlight oracle options node = .error failure := by
  induction nodes with
  | nil => simp
  | cons node rest ih =>
      cases ends : highlight oracle options node with
      | error failure => exact Or.inr ⟨[], node, rest, failure, rfl, by simp, ends⟩
      | ok found =>
          rcases ih with all | ⟨before, later, after, failure, split, all, fails⟩
          · exact Or.inl (List.forall_mem_cons.mpr ⟨⟨found, ends⟩, all⟩)
          · refine Or.inr ⟨node :: before, later, after, failure, by rw [split]; rfl, ?_, fails⟩
            exact List.forall_mem_cons.mpr ⟨⟨found, ends⟩, all⟩

theorem highlightAll_ok_iff [Limits] {nodes : List Expr} {shown : List Highlighting} :
    highlightAll oracle options nodes = .ok shown ↔
      (∀ node ∈ nodes, ∃ found, highlight oracle options node = .ok found) ∧
        shown = nodes.filterMap (highlighting? oracle options) := by
  constructor
  · intro ends
    rcases all_ok_or_first_error oracle options nodes with
      all | ⟨before, node, after, failure, rfl, all, fails⟩
    · rw [highlightAll_of_ok all] at ends
      exact ⟨all, (Except.ok.inj ends).symm⟩
    · rw [highlightAll_of_error all fails] at ends
      cases ends
  · rintro ⟨all, rfl⟩
    exact highlightAll_of_ok all

theorem highlightAll_error_iff [Limits] {nodes : List Expr} {failure : Failure} :
    highlightAll oracle options nodes = .error failure ↔
      ∃ before node after, nodes = before ++ node :: after ∧
        highlightAll oracle options before = .ok (before.filterMap (highlighting? oracle options)) ∧
        highlight oracle options node = .error failure := by
  constructor
  · intro ends
    rcases all_ok_or_first_error oracle options nodes with
      all | ⟨before, node, after, other, rfl, all, fails⟩
    · rw [highlightAll_of_ok all] at ends
      cases ends
    · rw [highlightAll_of_error all fails] at ends
      cases ends
      exact ⟨before, node, after, rfl, highlightAll_of_ok all, fails⟩
  · rintro ⟨before, node, after, rfl, earlier, fails⟩
    exact highlightAll_of_error (highlightAll_ok_iff.mp earlier).1 fails

theorem filterMap_positions (f : Expr → Option Highlighting) (root : Expr) :
    root.positions.filterMap (fun steps => (root.at? steps).bind f) = root.preorder.filterMap f := by
  have nodes := congrArg (List.filterMap (Option.bind · f)) root.map_at?_positions
  rw [List.filterMap_map, List.filterMap_map] at nodes
  exact nodes

end

/-- The loop over the stack ends for every tree and has then visited its nodes in the recursive
order; at any time what has been visited and what the stack holds make up this order.  Each
position of the tree is visited once, before the positions below it and those that go into a
later part.  Highlightings are shown in this order, where a node has one, for candidates only;
if some node fails, the first one does after all that come before it were shown. -/
theorem highlights_in_preorder [Limits] (oracle : Oracle) (options : Options) (root : Expr) :
    root.walk = root.preorder ∧
    StateTransition.eval Expr.walkTurn ([root], []) = Part.some ([], root.preorder) ∧
    (∀ stack visited, StateTransition.Reaches Expr.walkTurn ([root], []) (stack, visited) →
      visited ++ stack.reverse.flatMap Expr.preorder = root.preorder) ∧
    root.walk.map some = root.positions.map (root.at? ·) ∧
    (∀ steps, steps ∈ root.positions ↔ (root.at? steps).isSome) ∧ root.positions.Nodup ∧
    (∀ first ∈ root.positions, ∀ second ∈ root.positions,
      root.positions.idxOf first < root.positions.idxOf second ↔ Earlier first second) ∧
    (∀ shown, highlightTree oracle options root = .ok shown ↔
      (∀ node ∈ root.preorder, ∃ found, highlight oracle options node = .ok found) ∧
      shown = root.positions.filterMap fun steps =>
        (root.at? steps).bind (highlighting? oracle options)) ∧
    (∀ failure, highlightTree oracle options root = .error failure ↔
      ∃ before node after, root.preorder = before ++ node :: after ∧
        highlightAll oracle options before = .ok (before.filterMap (highlighting? oracle options)) ∧
        highlight oracle options node = .error failure) ∧
    ∀ node shown, highlight oracle options node = .ok (some shown) →
      isCandidate node = true ∧ shown.node = node := by
  refine ⟨root.walk_eq_preorder, root.walk_eval, ?_, ?_, fun steps => Expr.mem_positions,
    root.positions_nodup, fun first here second there => Expr.idxOf_lt_iff here there, ?_, ?_,
    fun node shown => candidate_of_highlight⟩
  · intro stack visited reached
    have order := Expr.walk_keeps reached
    simpa [Expr.walkOrder] using order
  · rw [root.walk_eq_preorder, root.map_at?_positions]
  · intro shown
    rw [highlightTree, root.walk_eq_preorder, filterMap_positions]
    exact highlightAll_ok_iff
  · intro failure
    rw [highlightTree, root.walk_eq_preorder]
    exact highlightAll_error_iff

def negatedFlag (name : String) (id : Nat) : Expr :=
  .unary (.ofTag .negation) (.reference (some ⟨name, .localVariable, .bool, id⟩) .bool name none)
    .bool ("!" ++ name) none

/-- The tree of `!ready && check(!done)`: the call is no candidate, its argument is one. -/
def checkedFlags : Expr :=
  .binary (.ofTag (.connective .andAlso)) (negatedFlag "ready" 1)
    (.unmodelled .invocation .bool "check(!done)" [negatedFlag "done" 2] none) .bool
    "!ready && check(!done)" none

theorem highlights_in_preorder_nested :
    StateTransition.Reaches Expr.walkTurn ([checkedFlags], [])
      (checkedFlags.children.reverse, [checkedFlags]) ∧
    [checkedFlags] ++ checkedFlags.children.flatMap Expr.preorder = checkedFlags.preorder ∧
    checkedFlags.positions.idxOf [.left, .operand] < checkedFlags.positions.idxOf [.right] ∧
    highlightTree (fun _ _ => .unsat) {} checkedFlags = .ok [.unsatisfiable checkedFlags,
      .unsatisfiable (negatedFlag "ready" 1), .unsatisfiable (negatedFlag "done" 2)] := by
  obtain ⟨-, -, invariant, -, -, -, order, shown, -, -⟩ :=
    highlights_in_preorder (fun _ _ => .unsat) {} checkedFlags
  have reached : StateTransition.Reaches Expr.walkTurn ([checkedFlags], [])
      (checkedFlags.children.reverse, [checkedFlags]) := Relation.ReflTransGen.single rfl
  refine ⟨reached, ?_, ?_, ?_⟩
  · simpa using invariant _ _ reached
  · refine (order _ (by decide) _ (by decide)).mpr (Or.inr (Or.inl ?_))
    decide
  · refine (shown _).mpr ⟨?_, rfl⟩
    simp only [checkedFlags, negatedFlag, Expr.preorder, Expr.preorders, List.cons_append,
      List.nil_append, List.append_nil, List.forall_mem_cons]
    exact ⟨⟨_, rfl⟩, ⟨_, rfl⟩, ⟨_, rfl⟩, ⟨_, rfl⟩, ⟨_, rfl⟩, ⟨_, rfl⟩, List.forall_mem_nil _⟩

end Analysis

end CondSat
