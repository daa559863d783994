import CondSat.Proofs.BuiltTerms

/-! # The names that occur in a formula

`collectNames` looks into the terms on a stack and into each term once.  It finds exactly
the names of the constants in the pending terms as long as everything seen is accounted for:
the name of a seen constant has been collected, and the children of a seen application have
been seen or are pending.  `Accounted` says so; it holds where nothing has been seen, and in
the end, where nothing is pending, it says that all names have been collected.

The constants of a formula are bound, each under one key, or are the rounding mode. -/
set_option autoImplicit false
namespace CondSat

namespace Solver.Term

/-! ## Collecting names -/

theorem sizeOf_le_totalSize {term : Term} {terms : List Term} (member : term ∈ terms) :
    sizeOf term ≤ totalSize terms := by
  induction terms with
  | nil => cases member
  | cons first rest ih =>
      rw [totalSize]
      rcases List.mem_cons.mp member with rfl | later
      · exact Nat.le_add_right _ _
      · exact Nat.le_trans (ih later) (Nat.le_add_left _ _)

theorem sizeOf_lt_of_mem_children {term child : Term} (below : child ∈ term.children) :
    sizeOf child < sizeOf term :=
  Nat.lt_of_le_of_lt (sizeOf_le_totalSize below) (totalSize_children_lt term)

@[elab_as_elim]
theorem childInduction {motive : Term → Prop}
    (step : ∀ term, (∀ child ∈ term.children, motive child) → motive term) (term : Term) :
    motive term :=
  step term fun child _ => childInduction step child
termination_by sizeOf term
decreasing_by exact sizeOf_lt_of_mem_children ‹_›

theorem eq_const_of_constantName? {term : Term} {name : String}
    (isConstant : term.constantName? = some name) : ∃ sort, term = .const name sort := by
  cases term with
  | const other sort =>
      cases isConstant
      exact ⟨sort, rfl⟩
  | _ => cases isConstant

theorem constants_application {term : Term} (isApplication : term.constantName? = none) :
    term.constants = term.children.flatMap constants := by
  cases term with
  | const name sort => cases isApplication
  | _ =>
      simp only [constants, children, List.flatMap_cons, List.flatMap_nil, List.append_nil,
        List.append_assoc]

/-- What has been seen is accounted for. -/
structure Accounted (pending seen : List Term) (names : List String) : Prop where
  names : ∀ term ∈ seen, ∀ name, term.constantName? = some name → name ∈ names
  children : ∀ term ∈ seen, ∀ child ∈ term.children, child ∈ seen ∨ child ∈ pending

namespace Accounted

variable {term : Term} {rest seen : List Term} {names : List String}

theorem skip (accounted : Accounted (term :: rest) seen names) (known : term ∈ seen) :
    Accounted rest seen names where
  names := accounted.names
  children := by
    intro parent inside child below
    rcases accounted.children parent inside child below with found | found
    · exact Or.inl found
    · rcases List.mem_cons.mp found with rfl | found
      · exact Or.inl known
      · exact Or.inr found

theorem constant {name : String} (accounted : Accounted (term :: rest) seen names)
    (isConstant : term.constantName? = some name) :
    Accounted rest (term :: seen) (names.insert name) where
  names := by
    intro other inside found same
    rcases List.mem_cons.mp inside with rfl | inside
    · cases isConstant.symm.trans same
      exact List.mem_insert_self
    · exact List.mem_insert_of_mem (accounted.names other inside found same)
  children := by
    intro parent inside child below
    rcases List.mem_cons.mp inside with rfl | inside
    · obtain ⟨sort, rfl⟩ := eq_const_of_constantName? isConstant
      cases below
    · rcases accounted.children parent inside child below with found | found
      · exact Or.inl (List.mem_cons_of_mem _ found)
      · rcases List.mem_cons.mp found with rfl | found
        · exact Or.inl List.mem_cons_self
        · exact Or.inr found

theorem application (accounted : Accounted (term :: rest) seen names)
    (isApplication : term.constantName? = none) :
    Accounted (term.children.reverse ++ rest) (term :: seen) names where
  names := by
    intro other inside found same
    rcases List.mem_cons.mp inside with rfl | inside
    · cases isApplication.symm.trans same
    · exact accounted.names other inside found same
  children := by
    intro parent inside child below
    rcases List.mem_cons.mp inside with rfl | inside
    · exact Or.inr (List.mem_append_left _ (List.mem_reverse.mpr below))
    · rcases accounted.children parent inside child below with found | found
      · exact Or.inl (List.mem_cons_of_mem _ found)
      · rcases List.mem_cons.mp found with rfl | found
        · exact Or.inl List.mem_cons_self
        · exact Or.inr (List.mem_append_right _ found)

theorem finished (accounted : Accounted [] seen names) (term : Term) :
    term ∈ seen → ∀ name sort, (name, sort) ∈ term.constants → name ∈ names := by
  induction term using childInduction with
  | step term ih =>
      intro inside name sort occurs
      cases known : term.constantName? with
      | some other =>
          obtain ⟨kind, rfl⟩ := eq_const_of_constantName? known
          cases List.mem_singleton.mp occurs
          exact accounted.names _ inside name rfl
      | none =>
          rw [constants_application known] at occurs
          obtain ⟨child, below, occurs⟩ := List.mem_flatMap.mp occurs
          have childSeen :=
            (accounted.children term inside child below).resolve_right List.not_mem_nil
          exact ih child below childSeen name sort occurs

end Accounted

theorem collectNames_complete {pending seen : List Term} {names : List String}
    (accounted : Accounted pending seen names) {term : Term}
    (met : term ∈ seen ∨ term ∈ pending) {name : String} {sort : ValueSort}
    (occurs : (name, sort) ∈ term.constants) : name ∈ collectNames pending seen names := by
  fun_induction collectNames pending seen names with
  | case1 seen names =>
      exact accounted.finished term (met.resolve_right List.not_mem_nil) name sort occurs
  | case2 seen names first rest known ih =>
      have known : first ∈ seen := by simpa using known
      apply ih (accounted.skip known)
      rcases met with met | met
      · exact Or.inl met
      · rcases List.mem_cons.mp met with rfl | met
        · exact Or.inl known
        · exact Or.inr met
  | case3 seen names first rest new found isConstant ih =>
      apply ih (accounted.constant isConstant)
      rcases met with met | met
      · exact Or.inl (List.mem_cons_of_mem _ met)
      · rcases List.mem_cons.mp met with rfl | met
        · exact Or.inl List.mem_cons_self
        · exact Or.inr met
  | case4 seen names first rest new isApplication ih =>
      apply ih (accounted.application isApplication)
      rcases met with met | met
      · exact Or.inl (List.mem_cons_of_mem _ met)
      · rcases List.mem_cons.mp met with rfl | met
        · exact Or.inl List.mem_cons_self
        · exact Or.inr (List.mem_append_right _ met)

theorem collectNames_sound {pending seen : List Term} {names : List String} {name : String}
    (collected : name ∈ collectNames pending seen names) :
    name ∈ names ∨ ∃ term ∈ pending, ∃ sort, (name, sort) ∈ term.constants := by
  fun_induction collectNames pending seen names with
  | case1 seen names => exact Or.inl collected
  | case2 seen names first rest known ih =>
      rcases ih collected with found | ⟨term, inside, occurs⟩
      · exact Or.inl found
      · exact Or.inr ⟨term, List.mem_cons_of_mem _ inside, occurs⟩
  | case3 seen names first rest new found isConstant ih =>
      rcases ih collected with collected | ⟨term, inside, occurs⟩
      · rcases List.mem_insert_iff.mp collected with rfl | collected
        · obtain ⟨sort, rfl⟩ := eq_const_of_constantName? isConstant
          exact Or.inr ⟨_, List.mem_cons_self, sort, List.mem_singleton_self _⟩
        · exact Or.inl collected
      · exact Or.inr ⟨term, List.mem_cons_of_mem _ inside, occurs⟩
  | case4 seen names first rest new isApplication ih =>
      rcases ih collected with collected | ⟨term, inside, sort, occurs⟩
      · exact Or.inl collected
      · rcases List.mem_append.mp inside with below | inside
        · refine Or.inr ⟨first, List.mem_cons_self, sort, ?_⟩
          rw [constants_application isApplication]
          exact List.mem_flatMap.mpr ⟨term, List.mem_reverse.mp below, occurs⟩
        · exact Or.inr ⟨term, List.mem_cons_of_mem _ inside, sort, occurs⟩

theorem nodup_collectNames {pending seen : List Term} {names : List String}
    (distinct : names.Nodup) : (collectNames pending seen names).Nodup := by
  fun_induction collectNames pending seen names with
  | case1 seen names => exact distinct
  | case2 seen names first rest known ih => exact ih distinct
  | case3 seen names first rest new found isConstant ih => exact ih distinct.insert
  | case4 seen names first rest new isApplication ih => exact ih distinct

theorem mem_freeNames {term : Term} {name : String} :
    name ∈ term.freeNames ↔ ∃ sort, (name, sort) ∈ term.constants := by
  constructor
  · intro collected
    rcases collectNames_sound collected with none | ⟨other, inside, occurs⟩
    · cases none
    · rw [List.mem_singleton.mp inside] at occurs
      exact occurs
  · rintro ⟨sort, occurs⟩
    have fresh : Accounted [term] [] [] := ⟨nofun, nofun⟩
    exact collectNames_complete fresh (Or.inr List.mem_cons_self) occurs

end Solver.Term

namespace Analysis

open Solver (ValueSort)
open Source

/-! ## The unknowns of a formula -/

theorem Run.Consistent.filter_name {run : Run} (consistent : run.Consistent)
    {entry : Key × TypedTerm} (member : entry ∈ run.bindings.bound) :
    (run.bindings.bound.filter fun other => other.2.name = entry.2.name) = [entry] := by
  obtain ⟨before, after, split⟩ := List.append_of_mem member
  have distinct := (List.nodup_cons.mp consistent.names).2
  rw [split, List.map_append, List.map_cons] at distinct
  obtain ⟨-, later, apart⟩ := List.nodup_append.mp distinct
  have first : before.filter (fun other => other.2.name = entry.2.name) = [] := by
    apply List.filter_eq_nil_iff.mpr
    intro other inside
    simpa using apart _ (List.mem_map_of_mem inside) _ List.mem_cons_self
  have last : after.filter (fun other => other.2.name = entry.2.name) = [] := by
    apply List.filter_eq_nil_iff.mpr
    intro other inside same
    have same : other.2.name = entry.2.name := by simpa using same
    exact (List.nodup_cons.mp later).1 (same ▸ List.mem_map_of_mem inside)
  rw [split, List.filter_append, List.filter_cons_of_pos (by simp), first, last]
  rfl

/-- The names collected from the formula of a tree are those of its constants, each once.
A constant is either the rounding mode, which has then been created, or the constant of one
entry of the session and has its sort; no other entry has its name. -/
theorem unknowns_of_formula [Limits] (root : Expr) (formula : TypedTerm) (final : Progress)
    (made : Build.outcome (formulate root) .start = (.ok (some formula), final)) :
    ∃ run, final.session = .opened run ∧
      formula.term.freeNames.Nodup ∧
      (∀ name, name ∈ formula.term.freeNames ↔ ∃ sort, (name, sort) ∈ formula.term.constants) ∧
      ∀ name sort, (name, sort) ∈ formula.term.constants →
        (name = roundingModeName ∧ sort = .roundingMode ∧ run.hasRoundingMode = true) ∨
        (name ≠ roundingModeName ∧ ∃ key,
          (run.bindings.bound.filter fun entry => entry.2.name = name) =
            [(key, ⟨.const name sort, sort⟩)]) := by
  obtain ⟨run, news, rfl, consistent, built⟩ := formulate_built made
  refine ⟨run, rfl, Solver.Term.nodup_collectNames List.nodup_nil,
    fun name => Solver.Term.mem_freeNames, ?_⟩
  intro name sort occurs
  rcases built.known consistent (name, sort) occurs with ⟨created, same⟩ | ⟨entry, member, same⟩
  · obtain ⟨rfl, rfl⟩ := Prod.mk.inj same
    exact Or.inl ⟨rfl, rfl, created⟩
  · obtain ⟨rfl, rfl⟩ := Prod.mk.inj same
    refine Or.inr ⟨?_, entry.1, ?_⟩
    · intro reserved
      apply (List.nodup_cons.mp consistent.names).1
      rw [← reserved]
      exact List.mem_map_of_mem member
    · rw [consistent.filter_name member]
      obtain ⟨key, term⟩ := entry
      obtain ⟨term, sort⟩ := term
      have constant := consistent.constants _ member
      rw [← constant]

/-- The tree of `((z + w) < z) && ((z + z) < z)`, where `w` is too narrow for the sum. -/
def narrowSum : Expr :=
  let z := Expr.reference (some ⟨"z", .localVariable, .double, 1⟩) .double "z" none
  let w := Expr.reference (some ⟨"w", .localVariable, .float, 2⟩) .float "w" none
  .binary (.ofTag (.connective .andAlso))
    (.binary (.ofTag (.floatComparison .less .double))
      (.binary (.ofTag (.floatArithmetic .plus .double)) z w .double "z + w" none) z .bool
        "(z + w) < z" none)
    (.binary (.ofTag (.floatComparison .less .double))
      (.binary (.ofTag (.floatArithmetic .plus .double)) z z .double "z + z" none) z .bool
        "(z + z) < z" none)
    .bool "((z + w) < z) && ((z + z) < z)" none

def narrowSumFormula : Solver.Term :=
  let z := Solver.Term.const "z" (.float .double)
  .and (.floatOrder .lt (.const "variable from expr: 'z + w'" (.float .double)) z)
    (.floatOrder .lt (.floatBinary .add roundingMode.term z z) z)

/-- The narrow operand is bound before the sum turns out to have no formula. -/
theorem unknowns_of_formula_narrow_sum :
    ∃ final run,
      Build.outcome (formulate narrowSum) .start = (.ok (some ⟨narrowSumFormula, .bool⟩), final) ∧
      final.session = .opened run ∧
      run.bindings.bound.map (·.2.name) = ["z", "w", "variable from expr: 'z + w'"] ∧
      run.hasRoundingMode = true ∧ "w" ∉ narrowSumFormula.freeNames ∧
      "roundingmode" ∈ narrowSumFormula.freeNames := by
  have made : Build.outcome (formulate narrowSum) .start =
    (.ok (some ⟨narrowSumFormula, .bool⟩), _) := rfl
  obtain ⟨run, opened, -, names, bound⟩ := unknowns_of_formula narrowSum _ _ made
  cases opened
  refine ⟨_, _, made, rfl, by decide +kernel, rfl, ?_, ?_⟩
  · intro listed
    obtain ⟨sort, occurs⟩ := (names "w").mp listed
    simp [narrowSumFormula, Solver.Term.constants, roundingMode, roundingModeName] at occurs
  · exact (names "roundingmode").mpr ⟨.roundingMode, by decide⟩

end Analysis

end CondSat
