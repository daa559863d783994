import CondSat.Proofs.FreshNames
import CondSat.Proofs.Steps
import Mathlib.Data.List.Induction

/-! # The invariant of a session

Whatever is done to a session, in whatever order, every open state it reaches is
`Consistent`: distinct keys have constants of distinct names, none of them is
called like the rounding mode, a declaration's constant has the sort of the
declaration's type, and exactly the bound keys and the rounding mode hold a
name.  Constants stay bound until the session is closed and are listed in the
order in which they were first bound, which is the order of the reported
bindings. -/
set_option autoImplicit false
namespace CondSat.Analysis

open Source

def TypedTerm.name (constant : TypedTerm) : String :=
  match constant.term with
  | .const name _ => name
  | _ => ""

structure Run.Consistent (run : Run) : Prop where
  /-- What is bound is a constant. -/
  constants : ∀ entry ∈ run.bindings.bound, entry.2.term = .const entry.2.name entry.2.sort
  keys : (.roundingMode :: run.bindings.bound.map (·.1)).Nodup
  names : (roundingModeName :: run.bindings.bound.map (·.2.name)).Nodup
  reserved : run.bindings.reserved =
    (.roundingMode, roundingModeName) :: run.bindings.bound.map fun entry => (entry.1, entry.2.name)
  declared : ∀ declaration term, (Key.declaration declaration, term) ∈ run.bindings.bound →
    declaration.type.sort? = some term.sort

theorem initial_consistent : Run.initial.Consistent where
  constants := by simp [Run.initial]
  keys := by simp [Run.initial]
  names := by simp [Run.initial]
  reserved := rfl
  declared := by simp [Run.initial]

theorem lookup_of_nodup {α β : Type} [DecidableEq α] {entries : List (α × β)}
    (distinct : (entries.map (·.1)).Nodup) {key : α} {value : β} (member : (key, value) ∈ entries) :
    entries.lookup key = some value := by
  obtain ⟨before, after, split⟩ := List.append_of_mem member
  refine List.lookup_eq_some_iff.mpr ⟨before, after, split, ?_⟩
  intro entry earlier
  rw [split, List.map_append, List.map_cons] at distinct
  have disjoint := List.disjoint_of_nodup_append distinct
  have apart : key ≠ entry.1 := by
    intro same
    exact disjoint (List.mem_map_of_mem earlier) (by simp [same])
  simpa using apart

namespace Run.Consistent

variable {run : Run} (consistent : run.Consistent)
include consistent

theorem taken : run.bindings.taken = roundingModeName :: run.bindings.bound.map (·.2.name) := by
  simp [Bindings.taken, consistent.reserved]

theorem lookup_eq_some {key : Key} {term : TypedTerm} (member : (key, term) ∈ run.bindings.bound) :
    run.bindings.get? key = some term :=
  lookup_of_nodup (List.nodup_cons.mp consistent.keys).2 member

/-- A key that has no constant yet has no name either. -/
theorem reserve_eq {key : Key} (name : String) (proper : key ≠ .roundingMode)
    (unbound : run.bindings.get? key = none) :
    run.bindings.reserve key name =
      (Bindings.freshName run.bindings.taken name,
        { run.bindings with
          reserved := run.bindings.reserved ++
            [(key, Bindings.freshName run.bindings.taken name)] }) := by
  have missing : run.bindings.reserved.lookup key = none := by
    rw [consistent.reserved, List.lookup_eq_none_iff]
    intro entry member
    rcases List.mem_cons.mp member with rfl | member
    · simpa using proper
    · obtain ⟨bound, inside, rfl⟩ := List.mem_map.mp member
      exact List.lookup_eq_none_iff.mp unbound bound inside
  rw [Bindings.reserve, missing]

theorem add {key : Key} {name : String} {sort : Solver.ValueSort} (proper : key ≠ .roundingMode)
    (unbound : run.bindings.get? key = none) (fresh : name ∉ run.bindings.taken)
    (declared : ∀ declaration, key = .declaration declaration →
      declaration.type.sort? = some sort) :
    Run.Consistent { run with
      bindings := ⟨run.bindings.bound ++ [(key, ⟨.const name sort, sort⟩)],
        run.bindings.reserved ++ [(key, name)]⟩ } where
  constants := by
    intro entry member
    rcases List.mem_append.mp member with member | member
    · exact consistent.constants entry member
    · rw [List.mem_singleton.mp member]
      rfl
  keys := by
    have absent : key ∉ run.bindings.bound.map (·.1) := by
      intro member
      obtain ⟨entry, inside, same⟩ := List.mem_map.mp member
      have apart := List.lookup_eq_none_iff.mp unbound entry inside
      simp [same] at apart
    have extended : ((Key.roundingMode :: run.bindings.bound.map (·.1)) ++ [key]).Nodup := by
      refine List.nodup_append.mpr ⟨consistent.keys, List.nodup_singleton key, ?_⟩
      intro old inside new added
      rw [List.mem_singleton.mp added]
      rintro rfl
      rcases List.mem_cons.mp inside with same | inside
      · exact proper same
      · exact absent inside
    simpa using extended
  names := by
    rw [consistent.taken] at fresh
    have extended : ((roundingModeName :: run.bindings.bound.map (·.2.name)) ++ [name]).Nodup := by
      refine List.nodup_append.mpr ⟨consistent.names, List.nodup_singleton name, ?_⟩
      intro old inside new added
      rw [List.mem_singleton.mp added]
      rintro rfl
      exact fresh inside
    simpa [TypedTerm.name] using extended
  reserved := by simp [consistent.reserved, TypedTerm.name]
  declared := by
    intro declaration term member
    rcases List.mem_append.mp member with member | member
    · exact consistent.declared declaration term member
    · obtain ⟨same, rfl⟩ := Prod.mk.inj (List.mem_singleton.mp member)
      exact declared declaration same.symm

theorem bind {key : Key} {type : SourceType} (name : String) (admits : key.Admits type) :
    Run.Consistent { run with bindings := (run.bindings.bind key type name).2.1 } := by
  rcases run.bindings.bind_cases key type name with
    ⟨term, -, result⟩ | ⟨-, -, result⟩ | ⟨sort, unbound, sorted, result⟩
  · rw [result]
    exact consistent
  · rw [result]
    exact consistent
  · have proper : key ≠ .roundingMode := by
      rintro rfl
      exact admits
    have typed : ∀ declaration, key = .declaration declaration →
        declaration.type.sort? = some sort := by
      rintro declaration rfl
      rw [← sorted, show type = declaration.type from admits]
    rw [result, Bindings.newConstant, consistent.reserve_eq name proper unbound]
    exact consistent.add proper unbound (Bindings.freshName_not_mem _ _) typed

theorem declarations :
    run.bindings.declarations = run.bindings.bound.map fun entry => (entry.2.name, entry.2.sort) := by
  have single : ∀ entry ∈ run.bindings.bound,
      entry.2.term.constants = [(entry.2.name, entry.2.sort)] := by
    intro entry member
    rw [consistent.constants entry member]
    rfl
  rw [Bindings.declarations, List.flatMap_congr single, List.map_eq_flatMap]

end Run.Consistent

theorem Progress.Step.consistent {start final : Progress} (step : start.Step final)
    (before : ∀ run, start.session = .opened run → run.Consistent) :
    ∀ run, final.session = .opened run → run.Consistent := by
  intro run opened
  cases step with
  | report session earlier events quiet => exact before run opened
  | mode run' earlier =>
      cases opened
      obtain ⟨constants, keys, names, reserved, declared⟩ := before run' rfl
      exact ⟨constants, keys, names, reserved, declared⟩
  | bind run' earlier key type name admits =>
      cases opened
      exact (before run' rfl).bind name admits

theorem Progress.Reaches.consistent {start final : Progress} (reached : start.Reaches final)
    (before : ∀ run, start.session = .opened run → run.Consistent) :
    ∀ run, final.session = .opened run → run.Consistent := by
  induction reached with
  | refl => exact before
  | tail earlier step ih => exact step.consistent ih

theorem Progress.Reaches.reported {start final : Progress} (reached : start.Reaches final)
    {run : Run} (opened : start.session = .opened run) :
    ∃ later news, final.session = .opened later ∧ final.events = start.events ++ news ∧
      later.bindings.bound.map (·.2) =
        run.bindings.bound.map (·.2) ++ news.filterMap Event.bound? := by
  induction reached with
  | refl => exact ⟨run, [], opened, by simp, by simp⟩
  | tail earlier step ih =>
      obtain ⟨middle, news, opened, events, bound⟩ := ih
      cases step with
      | report session earlier more quiet =>
          refine ⟨middle, news ++ more, opened, by simp [← List.append_assoc, ← events], ?_⟩
          have silent : more.filterMap Event.bound? = [] := List.filterMap_eq_nil_iff.mpr quiet
          rw [List.filterMap_append, silent, List.append_nil, bound]
      | mode run' earlier =>
          cases opened
          exact ⟨_, news, rfl, events, bound⟩
      | bind run' earlier key type name admits =>
          cases opened
          refine ⟨_, news ++ (middle.bindings.bind key type name).2.2, rfl,
            by simp [← List.append_assoc, ← events], ?_⟩
          rw [List.filterMap_append, ← List.append_assoc, ← bound]
          rcases middle.bindings.bind_cases key type name with
            ⟨term, -, result⟩ | ⟨-, -, result⟩ | ⟨sort, -, -, result⟩ <;> rw [result]
          · simp
          · simp [Event.bound?]
          · simp [Event.bound?]

/-! ## What holds of everything bound -/

section Bound

variable (P : Key → TypedTerm → Prop)

def Progress.Binds (progress : Progress) : Prop :=
  ∀ run, progress.session = .opened run → ∀ entry ∈ run.bindings.bound, P entry.1 entry.2

/-- However the step ends, the constants it binds satisfy `P`. -/
def Build.BindsOnly {α : Type} (step : Build α) : Prop :=
  ∀ start : Progress, start.Binds P → (step.after start).Binds P

end Bound

theorem initial_binds (P : Key → TypedTerm → Prop) : (⟨.start, []⟩ : Progress).Binds P := by
  intro run opened
  cases opened
  simp [Run.initial]

namespace Build

variable {P : Key → TypedTerm → Prop} {α β : Type}

theorem bindsOnly_seq {step : Build α} {next : α → Build β} (first : step.BindsOnly P)
    (rest : ∀ value, (next value).BindsOnly P) : (step >>= next).BindsOnly P := by
  intro start bound
  have stepped := first start bound
  cases run : step start with
  | ok value middle =>
      rw [after_ok run] at stepped
      rw [after_bind_ok run]
      exact rest value middle stepped
  | error failure middle =>
      rw [after, run] at stepped
      rw [after_bind_error run]
      exact stepped

theorem bindsOnly_useRoundingMode : useRoundingMode.BindsOnly P := by
  intro ⟨session, events⟩ bound
  cases session with
  | closed => exact bound
  | opened run =>
      rw [after_ok (useRoundingMode_opened run events)]
      intro later opened
      cases opened
      exact bound run rfl

theorem bindsOnly_bind {key : Key} {type : SourceType} (name : String)
    (fits : ∀ name sort, type.sort? = some sort → P key ⟨.const name sort, sort⟩) :
    (Build.bind key type name).BindsOnly P := by
  intro ⟨session, events⟩ bound
  cases session with
  | closed => exact bound
  | opened run =>
      rw [after_ok (bind_opened run events key type name)]
      intro later opened
      cases opened
      rcases run.bindings.bind_cases key type name with
        ⟨term, -, result⟩ | ⟨-, -, result⟩ | ⟨sort, -, sorted, result⟩ <;>
        simp only [result]
      · exact bound run rfl
      · exact bound run rfl
      · intro entry member
        rcases List.mem_append.mp member with member | member
        · exact bound run rfl entry member
        · rw [List.mem_singleton.mp member]
          exact fits _ sort sorted

theorem bindsOnly_bindNamed {key : Key} {type : SourceType} (text : Json) (name : String)
    (fits : ∀ name sort, type.sort? = some sort → P key ⟨.const name sort, sort⟩) :
    (bindNamed key type text name).BindsOnly P := by
  intro ⟨session, events⟩ bound
  cases session with
  | closed => exact bound
  | opened run =>
      rw [after, bindNamed_opened]
      cases nameFault? text type with
      | some failure => exact bound
      | none => exact bindsOnly_bind name fits _ bound

theorem bindsOnly_law :
    Build.Law (fun {α : Type} _ (step _ : Build α) => step.BindsOnly P) Eq id where
  pure _ _ _ bound := bound
  seq _ first rest := bindsOnly_seq first rest
  onto := Function.surjective_id
  report _ _ _ _ _ _ bound := bound
  mode := bindsOnly_useRoundingMode
  unary _ _ := map_map_id
  binary _ _ _ := map_map_id

end Build

theorem constantTerm_bindsOnly {P : Key → TypedTerm → Prop} (constant : Option Constant) :
    (constantTerm constant).BindsOnly P := by
  intro start bound
  cases constant with
  | none => exact bound
  | some constant =>
      rw [constantTerm]
      cases encodeConstant constant.value constant.kind <;> exact bound

/-- Building a formula binds constants for the declarations and for the nodes of the tree,
each of the sort of its type. -/
theorem formulate_bindsOnly [Limits] {P : Key → TypedTerm → Prop} {root : Expr}
    (declarations : ∀ declaration ∈ root.declarations, ∀ name sort,
      declaration.type.sort? = some sort → P (.declaration declaration) ⟨.const name sort, sort⟩)
    (unknowns : ∀ node ∈ root.preorder, ∀ name sort,
      node.type.sort? = some sort → P (.unmodelled node.label) ⟨.const name sort, sort⟩) :
    (formulate root).BindsOnly P := by
  refine formulate_related Build.bindsOnly_law (fun _ => rfl) root.matches_relabel ?_
    fun _ start bound => bound
  constructor
  · intro other member
    exact constantTerm_bindsOnly _
  · intro declaration member _
    exact Build.bindsOnly_bindNamed _ _ (declarations declaration member)
  · intro parent member other operand other' _ _
    exact Build.bindsOnly_bindNamed _ _
      (unknowns other (Expr.operand_mem_preorder member operand))

/-! ## Operations in any order -/

inductive Operation where
  | openSession
  | closeSession
  | bind (key : Key) (type : SourceType) (name : String)
  | bindDeclaration (declaration : Declaration)
  | bindUnmodelled (node : Expr)
  | useRoundingMode
  | formulate (root : Expr)

/-- The keys of declarations and of the rounding mode are not bound by hand. -/
def Operation.Permitted : Operation → Prop
  | .bind key _ _ => (∀ declaration, key ≠ .declaration declaration) ∧ key ≠ .roundingMode
  | _ => True

def Operation.perform [Limits] : Operation → Progress → Progress
  | .openSession => Build.openSession.after
  | .closeSession => Build.closeSession.after
  | .bind key type name => (Build.bind key type name).after
  | .bindDeclaration declaration => (Build.bindDeclaration declaration).after
  | .bindUnmodelled node => (Build.bindUnmodelled node).after
  | .useRoundingMode => Build.useRoundingMode.after
  | .formulate root => (Analysis.formulate root).after

def performAll [Limits] (operations : List Operation) (start : Progress) : Progress :=
  operations.foldl (fun progress operation => operation.perform progress) start

theorem performAll_append [Limits] (first second : List Operation) (start : Progress) :
    performAll (first ++ second) start = performAll second (performAll first start) := by
  simp [performAll, List.foldl_append]

theorem openSession_opened (run : Run) (events : List Event) :
    Build.openSession ⟨.opened run, events⟩ = .error .alreadyOpen ⟨.opened run, events⟩ := rfl

/-- Everything but opening and closing follows the steps of a build. -/
theorem Operation.follows [Limits] {operation : Operation} (permitted : operation.Permitted)
    (notOpening : operation ≠ .openSession) (notClosing : operation ≠ .closeSession)
    (start : Progress) : start.Reaches (operation.perform start) := by
  cases operation with
  | openSession => exact absurd rfl notOpening
  | closeSession => exact absurd rfl notClosing
  | bind key type name =>
      have admits : key.Admits type := by
        cases key with
        | declaration declaration => exact absurd rfl (permitted.1 declaration)
        | unmodelled text => trivial
        | roundingMode => exact absurd rfl permitted.2
        | label label => trivial
      exact Build.follows_bind key type name admits start
  | bindDeclaration declaration => exact Build.follows_bindDeclaration declaration start
  | bindUnmodelled node => exact Build.follows_bindUnmodelled node start
  | useRoundingMode => exact Build.follows_useRoundingMode start
  | formulate root => exact formulate_follows root start

theorem Progress.Reaches.closed {start final : Progress} (reached : start.Reaches final)
    (closed : start.session = .closed) : final.session = .closed := by
  induction reached with
  | refl => exact closed
  | tail earlier step ih =>
      cases step with
      | report session earlier more quiet => exact ih
      | mode run earlier => cases ih
      | bind run earlier key type name admits => cases ih

/-- One operation in an open session, closing apart: whatever it is, the
session stays open and what was bound stays in front. -/
theorem Operation.perform_opened [Limits] {operation : Operation} (permitted : operation.Permitted)
    (notClosing : operation ≠ .closeSession) {start : Progress} {run : Run}
    (opened : start.session = .opened run) :
    ∃ later news, (operation.perform start).session = .opened later ∧
      run.bindings.bound <+: later.bindings.bound ∧
      (operation.perform start).events = start.events ++ news ∧
      later.bindings.bound.map (·.2) =
        run.bindings.bound.map (·.2) ++ news.filterMap Event.bound? := by
  by_cases opening : operation = .openSession
  · subst opening
    obtain ⟨session, events⟩ := start
    cases opened
    exact ⟨run, [], rfl, List.prefix_rfl, by simp [perform, Build.after, openSession_opened],
      by simp⟩
  · have reached := Operation.follows permitted opening notClosing start
    obtain ⟨later, still, grown⟩ := reached.extends opened
    obtain ⟨same, news, still', events, bound⟩ := reached.reported opened
    cases still.symm.trans still'
    exact ⟨later, news, still, grown, events, bound⟩

theorem Operation.perform_consistent [Limits] {operation : Operation}
    (permitted : operation.Permitted)
    {start : Progress} (before : ∀ run, start.session = .opened run → run.Consistent) :
    ∀ run, (operation.perform start).session = .opened run → run.Consistent := by
  obtain ⟨session, events⟩ := start
  by_cases opening : operation = .openSession
  · subst opening
    intro run opened
    cases session with
    | opened current => exact before run opened
    | closed =>
        cases opened
        exact initial_consistent
  · by_cases closing : operation = .closeSession
    · subst closing
      intro run opened
      cases opened
    · exact (Operation.follows permitted opening closing _).consistent before

theorem performAll_consistent [Limits] {operations : List Operation}
    (permitted : ∀ operation ∈ operations, operation.Permitted) {start : Progress}
    (before : ∀ run, start.session = .opened run → run.Consistent) :
    ∀ run, (performAll operations start).session = .opened run → run.Consistent := by
  induction operations generalizing start with
  | nil => exact before
  | cons operation rest ih =>
      have first := Operation.perform_consistent (permitted operation (by simp)) before
      exact ih (fun later member => permitted later (by simp [member])) first

/-- Until it is closed, an open session stays open and keeps what it has bound. -/
theorem performAll_extends [Limits] {operations : List Operation}
    (permitted : ∀ operation ∈ operations, operation.Permitted)
    (unclosed : Operation.closeSession ∉ operations) {start : Progress} {run : Run}
    (opened : start.session = .opened run) :
    ∃ later, (performAll operations start).session = .opened later ∧
      run.bindings.bound <+: later.bindings.bound := by
  induction operations generalizing start run with
  | nil => exact ⟨run, opened, List.prefix_rfl⟩
  | cons operation rest ih =>
      have notClosing : operation ≠ .closeSession := fun same => unclosed (by simp [same])
      obtain ⟨middle, -, opened, grown, -⟩ :=
        Operation.perform_opened (permitted operation (by simp)) notClosing opened
      obtain ⟨later, still, more⟩ :=
        ih (fun later member => permitted later (by simp [member]))
          (fun member => unclosed (by simp [member])) opened
      exact ⟨later, still, grown.trans more⟩

/-- An open session was opened once after it was last closed, and what it has
bound is what has been reported since then. -/
theorem performAll_reported [Limits] (operations : List Operation)
    (permitted : ∀ operation ∈ operations, operation.Permitted) (run : Run)
    (opened : (performAll operations ⟨.closed, []⟩).session = .opened run) :
    ∃ earlier recent news, operations = earlier ++ .openSession :: recent ∧
      Operation.closeSession ∉ recent ∧
      (performAll earlier ⟨.closed, []⟩).session = .closed ∧
      (performAll operations ⟨.closed, []⟩).events =
        (performAll earlier ⟨.closed, []⟩).events ++ news ∧
      run.bindings.bound.map (·.2) = news.filterMap Event.bound? := by
  induction operations using List.reverseRecOn generalizing run with
  | nil => cases opened
  | append_singleton before operation ih =>
      have earlierPermitted : ∀ earlier ∈ before, earlier.Permitted :=
        fun earlier member => permitted earlier (by simp [member])
      have lastPermitted : operation.Permitted := permitted operation (by simp)
      rw [performAll_append] at opened ⊢
      by_cases closing : operation = .closeSession
      · subst closing
        cases opened
      cases state : (performAll before ⟨.closed, []⟩).session with
      | closed =>
          by_cases opening : operation = .openSession
          · subst opening
            refine ⟨before, [], [], rfl, by simp, state, ?_, ?_⟩
            · generalize performAll before ⟨.closed, []⟩ = reached at state ⊢
              obtain ⟨session, events⟩ := reached
              cases state
              exact (List.append_nil events).symm
            · generalize performAll before ⟨.closed, []⟩ = reached at state opened
              obtain ⟨session, events⟩ := reached
              cases state
              cases opened
              rfl
          · have stays := (Operation.follows lastPermitted opening closing _).closed state
            rw [show performAll [operation] _ = operation.perform _ from rfl, stays] at opened
            cases opened
      | opened current =>
          obtain ⟨earlier, recent, news, split, unclosed, closed, events, bound⟩ :=
            ih earlierPermitted current state
          obtain ⟨later, more, still, -, moreEvents, moreBound⟩ :=
            Operation.perform_opened lastPermitted closing state
          cases still.symm.trans opened
          refine ⟨earlier, recent ++ [operation], news ++ more, by simp [split], ?_, closed, ?_, ?_⟩
          · simpa [unclosed] using fun same => closing same.symm
          · rw [← List.append_assoc, ← events]
            exact moreEvents
          · rw [List.filterMap_append, ← bound, moreBound]

/-- Every access to what a closed session does not have fails and changes
nothing. -/
def RefusesAccess (closed : Progress) : Prop :=
  (∀ key type name, Build.bind key type name closed = .error .notOpen closed) ∧
  (∀ declaration, Build.bindDeclaration declaration closed = .error .notOpen closed) ∧
  (∀ node, Build.bindUnmodelled node closed = .error .notOpen closed) ∧
  (∀ key name, Build.reserve key name closed = .error .notOpen closed) ∧
  (∀ key, Build.lookup key closed = .error .notOpen closed) ∧
  Build.items closed = .error .notOpen closed ∧
  Build.useRoundingMode closed = .error .notOpen closed

/-- Every session reached by opening, closing, binding, creating the rounding
mode and building formulas in any order keeps the invariant, and its bindings
live exactly from their first binding to the next closing. -/
theorem session_invariant [Limits] (operations : List Operation)
    (permitted : ∀ operation ∈ operations, operation.Permitted) (reached : Progress)
    (performed : performAll operations ⟨.closed, []⟩ = reached) :
    (∀ run, reached.session = .opened run →
      run.Consistent ∧
      (∃ earlier recent news, operations = earlier ++ .openSession :: recent ∧
        Operation.closeSession ∉ recent ∧
        (performAll earlier ⟨.closed, []⟩).session = .closed ∧
        reached.events = (performAll earlier ⟨.closed, []⟩).events ++ news ∧
        run.bindings.declarations =
          (news.filterMap Event.bound?).map fun constant => (constant.name, constant.sort)) ∧
      (∀ later, (∀ operation ∈ later, operation.Permitted) → Operation.closeSession ∉ later →
        ∃ still, (performAll later reached).session = .opened still ∧
          ∀ key term, run.bindings.get? key = some term →
            still.bindings.get? key = some term ∧
            ∀ type name, still.bindings.bind key type name = (some term, still.bindings, [])) ∧
      Build.openSession reached = .error .alreadyOpen reached) ∧
    (performAll [.closeSession, .openSession] reached).session =
      .opened ⟨⟨[], [(.roundingMode, "roundingmode")]⟩, false⟩ ∧
    (reached.session = .closed → RefusesAccess reached) := by
  subst performed
  refine ⟨?_, rfl, ?_⟩
  · intro run opened
    have closedBefore : ∀ run, (⟨.closed, []⟩ : Progress).session = .opened run →
        run.Consistent := by
      intro run opened
      cases opened
    have consistent := performAll_consistent permitted closedBefore run opened
    refine ⟨consistent, ?_, ?_, ?_⟩
    · obtain ⟨earlier, recent, news, split, unclosed, closed, events, bound⟩ :=
        performAll_reported operations permitted run opened
      refine ⟨earlier, recent, news, split, unclosed, closed, events, ?_⟩
      rw [consistent.declarations, ← bound, List.map_map]
      rfl
    · intro later laterPermitted unclosed
      obtain ⟨still, stillOpen, grown⟩ := performAll_extends laterPermitted unclosed opened
      refine ⟨still, stillOpen, ?_⟩
      intro key term known
      have kept := Bindings.get?_of_isPrefix grown known
      refine ⟨kept, ?_⟩
      intro type name
      rw [Bindings.bind, kept]
    · generalize performAll operations ⟨.closed, []⟩ = reached at opened ⊢
      obtain ⟨session, events⟩ := reached
      cases opened
      exact openSession_opened run events
  · intro closed
    generalize performAll operations ⟨.closed, []⟩ = reached at closed ⊢
    obtain ⟨session, events⟩ := reached
    cases closed
    exact ⟨fun _ _ _ => rfl, fun _ => rfl, fun _ => rfl, fun _ _ => rfl, fun _ => rfl, rfl, rfl⟩

/-- Two declarations called `x`, and labels that ask for names already taken or
still to be taken. -/
def crowdedOperations : List Operation :=
  [.openSession,
    .bind (.label (.str "k")) .int "roundingmode",
    .bindDeclaration ⟨"x", .localVariable, .int, 1⟩,
    .bind (.label (.int 0)) .string "x!1",
    .bindDeclaration ⟨"x", .parameter, .bool, 2⟩,
    .useRoundingMode,
    .bind (.unmodelled "f()") .bool "x!1",
    .openSession]

theorem session_invariant_crowded :
    (∀ operation ∈ crowdedOperations, operation.Permitted) ∧
    ∃ run, (performAll crowdedOperations ⟨.closed, []⟩).session = .opened run ∧
      run.bindings.bound.map (·.2.name) = ["roundingmode!1", "x", "x!1", "x!1!1"] ∧
      run.Consistent := by
  have permitted : ∀ operation ∈ crowdedOperations, operation.Permitted := by
    simp [crowdedOperations, Operation.Permitted]
  refine ⟨permitted, _, rfl, by decide +kernel, ?_⟩
  exact ((session_invariant crowdedOperations permitted _ rfl).1 _ rfl).1

end CondSat.Analysis
