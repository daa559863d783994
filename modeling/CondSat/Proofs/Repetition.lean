import CondSat.Proofs.SessionInvariant

/-! # Formulating a tree again

A session only grows: constants are added behind the bound ones, and a rounding
mode once created stays.  In a session that has grown since a tree was formulated,
formulating it again finds every key bound that was bound for it then, so the
answer is the same and nothing is left to do.  The one thing that could change is
an operand that got no unknown because its type has no sort: a node of the same
text and another type might have been bound since.  Where equal texts have equal
types this does not happen, which is what `Run.Typed` records.

`Build.Repeats` says this of one step and is closed under sequencing, because
whatever a sequence has bound was bound by one of its steps. -/
set_option autoImplicit false
namespace CondSat.Analysis

open Source

theorem Bindings.sort?_of_bind_eq_none {bindings : Bindings} {key : Key} {type : SourceType}
    {name : String} (refused : (bindings.bind key type name).1 = none) : type.sort? = none := by
  rcases bindings.bind_cases key type name with
    ⟨known, -, result⟩ | ⟨-, untyped, -⟩ | ⟨sort, -, -, result⟩
  · rw [result] at refused
    cases refused
  · exact untyped
  · rw [result] at refused
    cases refused

/-! ## Unknowns of the sort of their texts -/

section Typed

variable (nodes : Expr → Prop)

/-- The unknown of a text has the sort of the nodes with this text. -/
structure Run.Typed (run : Run) : Prop where
  consistent : run.Consistent
  unknowns : ∀ label term, (Key.unmodelled label, term) ∈ run.bindings.bound →
    ∀ node, nodes node → node.label = label → node.type.sort? = some term.sort

def Progress.Typed (progress : Progress) : Prop :=
  ∀ run, progress.session = .opened run → run.Typed nodes

/-- However the step ends, it leaves a typed session typed. -/
def Build.KeepsTyped {α : Type} (step : Build α) : Prop :=
  ∀ start : Progress, start.Typed nodes → (step.after start).Typed nodes

end Typed

variable {nodes : Expr → Prop} {α β : Type}

theorem initial_typed : (⟨.start, []⟩ : Progress).Typed nodes := by
  rintro run ⟨⟩
  exact ⟨initial_consistent, by simp [Run.initial]⟩

theorem Run.Typed.sort {run : Run} (typed : run.Typed nodes) {node : Expr} (inside : nodes node)
    {term : TypedTerm} (known : run.bindings.get? (.unmodelled node.label) = some term) :
    node.type.sort? = some term.sort :=
  typed.unknowns node.label term (Bindings.mem_of_get? known) node inside rfl

theorem formulate_keepsTyped [Limits] {root : Expr} (inside : ∀ node ∈ root.preorder, nodes node)
    (texts : ∀ node other, nodes node → nodes other → node.label = other.label →
      node.type = other.type) :
    (formulate root).KeepsTyped nodes := by
  intro start typed run opened
  let hasSort : Key → TypedTerm → Prop := fun key term => ∀ label, key = .unmodelled label →
    ∀ node, nodes node → node.label = label → node.type.sort? = some term.sort
  have bindsOnly : (formulate root).BindsOnly hasSort := by
    apply formulate_bindsOnly
    · intro declaration _ name sort _ label same
      cases same
    · intro other member name sort sorted label same node known called
      cases same
      rw [texts node other known (inside other member) called]
      exact sorted
  constructor
  · exact (formulate_follows root start).consistent
      (fun run opened => (typed run opened).consistent) run opened
  · intro label term member
    refine bindsOnly start ?_ run opened (.unmodelled label, term) member label rfl
    intro earlier open' entry inside label same
    obtain ⟨key, term⟩ := entry
    cases same
    exact (typed earlier open').unknowns label term inside

/-! ## Steps that repeat themselves -/

namespace Build

/-- In every typed session that has grown since the step was taken, the step answers as it
did then and leaves the session as it is. -/
def Repeats (nodes : Expr → Prop) (step : Build α) : Prop :=
  ∀ start final, (step.after start).session = .opened final →
    ∀ later, final.Grows later → later.Typed nodes → ∀ events,
      step.answer ⟨.opened later, events⟩ = step.answer start ∧
      (step.after ⟨.opened later, events⟩).session = .opened later

theorem repeats_seq {step : Build α} {next : α → Build β} (first : step.Repeats nodes)
    (follows : ∀ value, (next value).Follows) (rest : ∀ value, (next value).Repeats nodes) :
    (step >>= next).Repeats nodes := by
  intro start final ended later grown typed events
  have onward := reaches_bind step follows start
  -- the first step has seen a part of what is bound in the end
  obtain ⟨middle, opened, more⟩ : ∃ middle,
      (step.after start).session = .opened middle ∧ middle.Grows final := by
    cases session : (step.after start).session with
    | closed =>
        rw [onward.closed session] at ended
        cases ended
    | opened middle =>
        obtain ⟨reached, still, more⟩ := onward.grows session
        cases still.symm.trans ended
        exact ⟨middle, rfl, more⟩
  obtain ⟨again, unchanged⟩ := first start middle opened later (more.trans grown) typed events
  cases answered : step.answer start with
  | ok value =>
      have run := ok_of_answer answered
      have rerun := ok_of_answer (again.trans answered)
      rw [Progress.eq_of_session unchanged] at rerun
      rw [after_bind_ok run] at ended
      rw [answer_bind_ok run, answer_bind_ok rerun, after_bind_ok rerun]
      exact rest value _ final ended later grown typed _
  | error failure =>
      have run := error_of_answer answered
      have rerun := error_of_answer (again.trans answered)
      rw [answer_bind_error run, answer_bind_error rerun, after_bind_error rerun]
      exact ⟨rfl, unchanged⟩

theorem repeats_pure (value : α) : (pure value : Build α).Repeats nodes :=
  fun _ _ _ _ _ _ _ => ⟨rfl, rfl⟩

theorem repeats_throw (failure : Failure) : (throw failure : Build α).Repeats nodes :=
  fun _ _ _ _ _ _ _ => ⟨rfl, rfl⟩

theorem repeats_report (events : List Event) : (report events).Repeats nodes :=
  fun _ _ _ _ _ _ _ => ⟨rfl, rfl⟩

theorem repeats_useRoundingMode : useRoundingMode.Repeats nodes := by
  rintro ⟨session, earlier⟩ final ended later grown typed events
  cases session with
  | closed => cases ended
  | opened run =>
      have started := useRoundingMode_opened run earlier
      rw [after_ok started] at ended
      cases ended
      have created : later.hasRoundingMode = true := grown.mode rfl
      have unchanged : { later with hasRoundingMode := true } = later := by rw [← created]
      have again := useRoundingMode_opened later events
      rw [unchanged] at again
      rw [answer, answer, after_ok again, again, started]
      exact ⟨rfl, rfl⟩

/-- A key that got a constant has it from then on; one that got none because its type has
no sort gets none again, unless it has been bound otherwise. -/
theorem repeats_bind {key : Key} {type : SourceType} (name : String)
    (sorted : ∀ (run : Run) (term : TypedTerm), run.Typed nodes → run.bindings.get? key = some term →
      type.sort? = some term.sort) :
    (Build.bind key type name).Repeats nodes := by
  rintro ⟨session, earlier⟩ final ended later grown typed events
  cases session with
  | closed => cases ended
  | opened run =>
      have started := bind_opened run earlier key type name
      rw [after_ok started] at ended
      cases ended
      have again := bind_opened later events key type name
      have same : later.bindings.bind key type name =
          ((run.bindings.bind key type name).1, later.bindings,
            (later.bindings.bind key type name).2.2) := by
        cases answered : (run.bindings.bind key type name).1 with
        | some term =>
            have kept := Bindings.get?_of_isPrefix grown.bound (Bindings.get?_bind answered)
            rw [Bindings.bind, kept]
        | none =>
            have unsorted := Bindings.sort?_of_bind_eq_none answered
            have unbound : later.bindings.get? key = none := by
              cases known : later.bindings.get? key with
              | none => rfl
              | some term =>
                  rw [sorted later term typed known] at unsorted
                  cases unsorted
            rw [Bindings.bind, unbound, unsorted]
      rw [answer, answer, after_ok again, again, started, same]
      exact ⟨rfl, rfl⟩

theorem repeats_bindNamed {key : Key} {type : SourceType} (text : Json) (name : String)
    (sorted : ∀ (run : Run) (term : TypedTerm), run.Typed nodes → run.bindings.get? key = some term →
      type.sort? = some term.sort) :
    (bindNamed key type text name).Repeats nodes := by
  rintro ⟨session, earlier⟩ final ended later grown typed events
  cases session with
  | closed => cases ended
  | opened run =>
      rw [after, bindNamed_opened] at ended
      rw [answer, answer, after, bindNamed_opened, bindNamed_opened]
      cases fault : nameFault? text type with
      | some failure => exact ⟨rfl, rfl⟩
      | none =>
          rw [fault] at ended
          exact repeats_bind name sorted ⟨.opened run, earlier⟩ final ended later grown typed events

theorem repeats_law :
    Build.Law (fun {α : Type} _ (step _ : Build α) => step.Follows ∧ step.Repeats nodes) Eq id where
  pure _ value := ⟨follows_pure value, repeats_pure value⟩
  seq _ first rest := ⟨follows_seq first.1 fun value => (rest value).1,
    repeats_seq first.2 (fun value => (rest value).1) fun value => (rest value).2⟩
  onto := Function.surjective_id
  report event quiet _ _ _ :=
    ⟨follows_report [event _] (by simpa using quiet _), repeats_report [event _]⟩
  mode := ⟨follows_useRoundingMode, repeats_useRoundingMode⟩
  unary _ _ := map_map_id
  binary _ _ _ := map_map_id

end Build

theorem constantTerm_repeats (constant : Option Constant) :
    (constantTerm constant).Repeats nodes := by
  cases constant with
  | none => exact Build.repeats_pure none
  | some constant =>
      rw [constantTerm]
      cases encodeConstant constant.value constant.kind with
      | error failure => exact Build.repeats_throw failure
      | ok answer =>
          exact Build.repeats_seq (Build.repeats_report _) (fun _ => Build.follows_pure _)
            fun _ => Build.repeats_pure _

theorem formulate_repeats [Limits] {root : Expr} (inside : ∀ node ∈ root.preorder, nodes node) :
    (formulate root).Repeats nodes := by
  refine (formulate_related Build.repeats_law (fun _ => rfl) root.matches_relabel ?_
    fun _ => ⟨Build.follows_throw _, Build.repeats_throw _⟩).2
  constructor
  · intro other member
    exact ⟨constantTerm_follows _, constantTerm_repeats _⟩
  · intro declaration member _
    refine ⟨Build.follows_bindDeclaration declaration, Build.repeats_bindNamed _ _ ?_⟩
    intro run term typed known
    exact typed.consistent.declared declaration term (Bindings.mem_of_get? known)
  · intro parent member other operand other' _ _
    refine ⟨Build.follows_bindUnmodelled other, Build.repeats_bindNamed _ _ ?_⟩
    intro run term typed known
    exact typed.sort (inside other (Expr.operand_mem_preorder member operand)) known

/-! ## Trees one after the other -/

theorem formulateAll_grows [Limits] {trees : List Expr}
    (inside : ∀ tree ∈ trees, ∀ node ∈ tree.preorder, nodes node)
    (texts : ∀ node other, nodes node → nodes other → node.label = other.label →
      node.type = other.type)
    {start : Progress} {run : Run} (opened : start.session = .opened run)
    (typed : start.Typed nodes) :
    ∃ later, (performAll (trees.map .formulate) start).session = .opened later ∧
      run.Grows later ∧ later.Typed nodes := by
  induction trees generalizing start run with
  | nil => exact ⟨run, opened, .refl run, typed run opened⟩
  | cons tree rest ih =>
      obtain ⟨middle, still, grown⟩ := (formulate_follows tree start).grows opened
      have kept := formulate_keepsTyped (inside tree (by simp)) texts start typed
      obtain ⟨later, ended, more, laterTyped⟩ :=
        ih (fun other member => inside other (by simp [member])) still kept
      exact ⟨later, ended, grown.trans more, laterTyped⟩

/-- Trees are formulated one after the other in a fresh session, and nodes of equal text
have equal types among all of them.  At the end, formulating any of them again gives the
answer it gave the first time and leaves the session as it is. -/
theorem formulating_again_changes_nothing [Limits] (trees : List Expr)
    (texts : ∀ first ∈ trees, ∀ second ∈ trees, ∀ node ∈ first.preorder,
      ∀ other ∈ second.preorder, node.label = other.label → node.type = other.type)
    (earlier recent : List Expr) (tree : Expr) (position : trees = earlier ++ tree :: recent)
    (before final : Progress)
    (started : performAll (earlier.map .formulate) ⟨.start, []⟩ = before)
    (ended : performAll (trees.map .formulate) ⟨.start, []⟩ = final) :
    (∃ run, final.session = .opened run) ∧
    (formulate tree).answer final = (formulate tree).answer before ∧
    ((formulate tree).after final).session = final.session := by
  let nodes : Expr → Prop := fun node => ∃ tree ∈ trees, node ∈ tree.preorder
  have agree : ∀ node other, nodes node → nodes other → node.label = other.label →
      node.type = other.type := by
    rintro node other ⟨first, firstIn, nodeIn⟩ ⟨second, secondIn, otherIn⟩
    exact texts first firstIn second secondIn node nodeIn other otherIn
  have within : ∀ part ⊆ trees, ∀ tree ∈ part, ∀ node ∈ tree.preorder, nodes node :=
    fun part inside tree member node found => ⟨tree, inside member, found⟩
  have member : tree ∈ trees := by simp [position]
  have earlierIn : earlier ⊆ trees := by simp [position]
  have recentIn : recent ⊆ trees := by
    rw [position]
    exact fun _ found => List.mem_append_right _ (List.mem_cons_of_mem _ found)
  obtain ⟨run, opened, -, typed⟩ :=
    formulateAll_grows (within earlier earlierIn) agree (rfl : (⟨.start, []⟩ : Progress).session = _)
      initial_typed
  rw [started] at opened
  obtain ⟨middle, reached, -⟩ := (formulate_follows tree before).grows opened
  have beforeTyped : before.Typed nodes := by
    intro other same
    cases opened.symm.trans same
    exact typed
  have middleTyped := formulate_keepsTyped (fun node found => ⟨tree, member, found⟩) agree before
    beforeTyped
  obtain ⟨last, closing, grown, lastTyped⟩ :=
    formulateAll_grows (within recent recentIn) agree reached middleTyped
  have whole : performAll (recent.map .formulate) ((formulate tree).after before) = final := by
    rw [← ended, ← started, position, List.map_append, List.map_cons, performAll_append]
    rfl
  rw [whole] at closing
  have repeated := formulate_repeats (fun node found => ⟨tree, member, found⟩) before middle reached
    last grown lastTyped final.events
  rw [← Progress.eq_of_session closing] at repeated
  exact ⟨⟨last, closing⟩, repeated.1, repeated.2.trans closing.symm⟩

def roundedSum : Expr :=
  .binary (.ofTag (.floatComparison .less .double))
    (.binary (.ofTag (.floatArithmetic .plus .double))
      (.reference (some ⟨"a", .localVariable, .double, 1⟩) .double "a" none)
      (.reference (some ⟨"b", .parameter, .double, 2⟩) .double "b" none) .double "a + b" none)
    (.unmodelled .invocation .double "f()" [] none) .bool "(a + b) < f()" none

/-- The tree of `x == s`, where the text `s` has no sort: `x` is bound and no formula is
found. -/
def textCompared : Expr :=
  .binary (.ofTag (.comparison .equal .int))
    (.reference (some ⟨"x", .localVariable, .int, 3⟩) .int "x" none)
    (.unmodelled .invocation .string "s" [] none) .bool "x == s" none

theorem formulating_again_changes_nothing_rounded :
    (∀ first ∈ [textCompared, roundedSum], ∀ second ∈ [textCompared, roundedSum],
      ∀ node ∈ first.preorder, ∀ other ∈ second.preorder,
        node.label = other.label → node.type = other.type) ∧
    ∃ final, performAll ([textCompared, roundedSum].map .formulate) ⟨.start, []⟩ = final ∧
      (formulate textCompared).answer final = .ok none ∧
      ((formulate textCompared).after final).session = final.session ∧
      (formulate roundedSum).answer final = .ok (some
        ⟨.floatOrder .lt
          (.floatBinary .add roundingMode.term (.const "a" (.float .double))
            (.const "b" (.float .double)))
          (.const "variable from expr: 'f()'" (.float .double)), .bool⟩) ∧
      ((formulate roundedSum).after final).session = final.session := by
  have texts : ∀ first ∈ [textCompared, roundedSum], ∀ second ∈ [textCompared, roundedSum],
      ∀ node ∈ first.preorder, ∀ other ∈ second.preorder,
        node.label = other.label → node.type = other.type := by
    simp [textCompared, roundedSum, Expr.preorder, Expr.preorders, Expr.label, Expr.text,
      Expr.type]
  obtain ⟨-, textAgain, textUnchanged⟩ := formulating_again_changes_nothing
    [textCompared, roundedSum] texts [] [roundedSum] textCompared rfl _ _ rfl rfl
  obtain ⟨-, sumAgain, sumUnchanged⟩ := formulating_again_changes_nothing
    [textCompared, roundedSum] texts [textCompared] [] roundedSum rfl _ _ rfl rfl
  exact ⟨texts, _, rfl, textAgain, textUnchanged, sumAgain, sumUnchanged⟩

end CondSat.Analysis
