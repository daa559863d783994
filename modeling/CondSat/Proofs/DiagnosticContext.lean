import CondSat.Logging.Trace
import CondSat.Proofs.Members

/-! # The diagnostic context of an analysis

Setting and removing the expression leaves the other values of a context alone, also when
the context counted as unset before or does so afterwards.  Nothing that happens while an
analysis reports its events changes the context, so every record carries the text that was
set on entry, and what was there besides it is there again on every way out. -/
set_option autoImplicit false
namespace CondSat.Logging

open Analysis (Event Options Verdict analyze isCandidate)
open Source (Expr)
open Solver (Oracle)

/-! ## Contexts -/

namespace Context

variable {context : Context} {key : String}

theorem current_of_members {members : List (String × Json)} (stated : members ≠ []) :
    current ⟨members⟩ = ⟨members⟩ := by
  rw [current, if_neg]
  rwa [List.isEmpty_iff]

/-- An empty context counts as one with an empty expression, and has no other value. -/
theorem get?_of_ne (different : key ≠ expressionKey) (members : List (String × Json)) :
    get? ⟨members⟩ key = members.lookup key := by
  unfold get? current
  split
  · next unset =>
      have empty : members = [] := List.isEmpty_iff.mp unset
      rw [empty]
      exact Members.lookup_cons_of_ne different _ []
  · rfl

theorem get?_enter_of_ne (different : key ≠ expressionKey) (text : Json) :
    (context.enter text).get? key = context.get? key := by
  rw [enter, add, get?_of_ne different]
  exact Members.lookup_put_of_ne different _ _

theorem get?_leave_of_ne (different : key ≠ expressionKey) :
    context.leave.get? key = context.get? key := by
  rw [leave, remove, get?_of_ne different]
  exact Members.lookup_filter_of_ne different _

/-- When the context has no other value left it counts as unset, and shows an empty text. -/
theorem get?_leave_expression (context : Context) :
    context.leave.get? expressionKey = none ∨
      context.leave.get? expressionKey = some (.str "") := by
  unfold get? current
  split
  · exact Or.inr rfl
  · exact Or.inl (Members.lookup_filter_self _ _)

/-- The expression is named, and has this text however often it is. -/
structure Names (context : Context) (text : Json) : Prop where
  named : ∃ member ∈ context.members, member.1 = expressionKey
  agree : ∀ member ∈ context.members, member.1 = expressionKey → member.2 = text

theorem enter_names (context : Context) (text : Json) : (context.enter text).Names text :=
  ⟨Members.exists_mem_put _ _ _, fun _ => Members.value_of_mem_put⟩

theorem Names.current {text : Json} (names : context.Names text) :
    context.current = context := by
  obtain ⟨_, found, -⟩ := names.named
  exact current_of_members (List.ne_nil_of_mem found)

end Context

/-! ## Records -/

namespace Record

variable {context : Context} {logger message : String} {text : Json} {level : Int}

theorem make_eq (logger : String) (level : Int) (message : String)
    (extra : List (String × Json)) (context : Context) :
    make logger level message extra context =
      match (Members.putAll context.current.members extra).find? fun m =>
          reservedKeys.contains m.1 with
      | some (key, _) => .error ⟨key⟩
      | none => .ok ⟨logger, level, message,
          (Members.putAll context.current.members extra).lookup Context.expressionKey⟩ := rfl

theorem expression_of_make (names : context.Names text) {record : Record}
    (made : make logger level message [] context = .ok record) :
    record.expression = some text := by
  rw [make_eq, names.current] at made
  split at made
  · cases made
  · cases made
    exact Members.lookup_putAll names.agree (Or.inr names.named)

theorem clash_of_make {found : Clash}
    (failed : make logger level message [] context = .error found) :
    found.key ∈ reservedKeys ∧ context.get? found.key ≠ none := by
  rw [make_eq] at failed
  split at failed
  · next key value first =>
      cases failed
      have reserved : reservedKeys.contains key = true := by simpa using List.find?_some first
      refine ⟨List.contains_iff_mem.mp reserved, fun unknown => ?_⟩
      obtain ⟨old, inside, named⟩ := Members.key_of_mem_putAll (List.mem_of_find?_eq_some first)
      exact Members.ne_of_lookup_eq_none unknown inside named
  · cases failed

end Record

namespace State

variable {state : State} {text : Json}

theorem record?_context (state : State) (event : Event) :
    (state.record? event).2.context = state.context := by
  rw [record?]
  dsimp only
  split <;> rfl

theorem record?_made (names : state.context.Names text) {event : Event} {record : Record}
    (made : (state.record? event).1 = .ok (some record)) :
    record.expression = some text := by
  rw [record?] at made
  dsimp only at made
  split at made
  · cases result : Record.make event.channel.name event.level.rank event.message []
        (state.getLogger event.channel.name).2.context with
    | error found => rw [result] at made; cases made
    | ok record =>
        rw [result] at made
        cases made
        exact Record.expression_of_make names result
  · cases made

theorem record?_clash {event : Event} {found : Clash}
    (failed : (state.record? event).1 = .error found) :
    found.key ∈ reservedKeys ∧ state.context.get? found.key ≠ none := by
  rw [record?] at failed
  dsimp only at failed
  split at failed
  · cases result : Record.make event.channel.name event.level.rank event.message []
        (state.getLogger event.channel.name).2.context with
    | error other =>
        rw [result] at failed
        cases failed
        exact Record.clash_of_make result
    | ok record => rw [result] at failed; cases failed
  · cases failed

theorem recordAll_spec (names : state.context.Names text) (events : List Event) :
    (∀ record ∈ (state.recordAll events).1, record.expression = some text) ∧
    (∀ found, (state.recordAll events).2.1 = some found →
      found.key ∈ reservedKeys ∧ state.context.get? found.key ≠ none) ∧
    (state.recordAll events).2.2.context = state.context := by
  -- the state changes with every event, since loggers may be made; its context does not
  induction events generalizing state with
  | nil => exact ⟨by simp [recordAll], nofun, rfl⟩
  | cons event rest ih =>
      have kept := record?_context state event
      have made : ∀ record, (state.record? event).1 = .ok (some record) → _ :=
        fun _ => record?_made names
      have failed : ∀ found, (state.record? event).1 = .error found → _ := fun _ => record?_clash
      rw [recordAll]
      generalize state.record? event = result at kept made failed
      obtain ⟨_ | record?, later⟩ := result
      · exact ⟨by simp, fun found same => failed found (by cases same; rfl), kept⟩
      · dsimp only at kept made ⊢
        rw [← kept] at names
        obtain ⟨named, clashes, same⟩ := ih names
        rw [kept] at clashes same
        refine ⟨fun record inside => ?_, clashes, same⟩
        rcases List.mem_append.mp inside with first | others
        · rw [Option.mem_toList] at first
          exact made record (congrArg Except.ok first)
        · exact named record others

end State

/-! ## Analyses -/

section

variable (oracle : Oracle) (options : Options) (state : State) (node : Expr)

/-- The state of logging while a node is analysed. -/
def State.entered (state : State) (node : Expr) : State :=
  { state with context := state.context.enter node.text }

theorem State.entered_names : (state.entered node).context.Names node.text :=
  Context.enter_names state.context node.text

theorem trace_of_candidate [Limits] (candidate : isCandidate node = true) :
    trace oracle options state node =
      match (state.entered node).recordAll (analyze oracle options node).events with
      | (records, clash, later) =>
        ⟨match clash with
          | some found => .error (.clash found)
          | none => (analyze oracle options node).outcome.mapError .failure,
         records, { later with context := later.context.leave }⟩ := by
  rw [trace, if_pos candidate, State.during]
  unfold reported State.entered
  rcases State.recordAll _ _ with ⟨records, _ | found, later⟩ <;> rfl

theorem trace_of_other [Limits] (other : isCandidate node = false) :
    trace oracle options state node = ⟨.ok none, [], state⟩ := by
  rw [trace, other]
  rfl

/-- What a key that every record has stands for is not changed by naming an expression. -/
theorem get?_entered_of_reserved {key : String} (reserved : key ∈ reservedKeys) :
    (state.entered node).context.get? key = state.context.get? key := by
  refine Context.get?_enter_of_ne ?_ node.text
  rintro rfl
  exact absurd reserved (by decide)

/-- Without a clash an analysis ends as if nothing were recorded. -/
theorem trace_outcome [Limits] (free : ∀ key ∈ reservedKeys, state.context.get? key = none) :
    (trace oracle options state node).outcome =
      (analyze oracle options node).outcome.mapError .failure := by
  cases candidate : isCandidate node with
  | false =>
      rw [trace_of_other oracle options state node candidate, analyze, candidate]
      rfl
  | true =>
      obtain ⟨-, clashes, -⟩ := State.recordAll_spec (state.entered_names node)
        (analyze oracle options node).events
      rw [trace_of_candidate oracle options state node candidate]
      generalize State.recordAll _ _ = result at clashes ⊢
      obtain ⟨records, _ | found, later⟩ := result
      · rfl
      · obtain ⟨reserved, known⟩ := clashes found rfl
        rw [get?_entered_of_reserved state node reserved] at known
        exact absurd (free _ reserved) known

/-- However an analysis ends, the context names no expression afterwards, everything else it
has is as it was, and so is the expression when nothing was analysed.  The records between
carry the text of the node.  Nothing but a reserved key in the context keeps an analysis
from its outcome. -/
theorem analysis_keeps_context [Limits] :
    (∀ key, key ≠ Context.expressionKey →
      (trace oracle options state node).state.context.get? key = state.context.get? key) ∧
    (isCandidate node = true →
      ((trace oracle options state node).state.context.get? Context.expressionKey = none ∨
        (trace oracle options state node).state.context.get? Context.expressionKey =
          some (.str "")) ∧
      (∀ record ∈ (trace oracle options state node).records,
        record.expression = some node.text) ∧
      ((trace oracle options state node).outcome =
          (analyze oracle options node).outcome.mapError .failure ∨
        ∃ found, (trace oracle options state node).outcome = .error (.clash found) ∧
          found.key ∈ reservedKeys ∧ state.context.get? found.key ≠ none)) ∧
    (isCandidate node = false →
      (trace oracle options state node).state.context.get? Context.expressionKey =
          state.context.get? Context.expressionKey ∧
        (trace oracle options state node).records = []) := by
  cases candidate : isCandidate node with
  | false =>
      rw [trace_of_other oracle options state node candidate]
      exact ⟨fun _ _ => rfl, nofun, fun _ => ⟨rfl, rfl⟩⟩
  | true =>
      obtain ⟨named, clashes, kept⟩ := State.recordAll_spec (state.entered_names node)
        (analyze oracle options node).events
      rw [trace_of_candidate oracle options state node candidate]
      generalize State.recordAll _ _ = result at named clashes kept ⊢
      obtain ⟨records, clash, later⟩ := result
      dsimp only at named clashes kept ⊢
      refine ⟨fun key different => ?_, fun _ => ⟨?_, named, ?_⟩, nofun⟩
      · rw [Context.get?_leave_of_ne different, kept]
        exact Context.get?_enter_of_ne different node.text
      · exact Context.get?_leave_expression later.context
      · cases clash with
        | none => exact Or.inl rfl
        | some found =>
            obtain ⟨reserved, known⟩ := clashes found rfl
            rw [get?_entered_of_reserved state node reserved] at known
            exact Or.inr ⟨found, rfl, reserved, known⟩

end

def notReady : Expr :=
  .unary (.ofTag .negation)
    (.reference (some ⟨"ready", .localVariable, .bool, 1⟩) .bool "ready" none) .bool "!ready" none

example : ((trace (fun _ _ => .unsat) {} .initial notReady).records.map (·.expression)) =
    [some (.str "!ready"), some (.str "!ready")] := by
  decide

/-- The first record cannot be made, and the expression is forgotten all the same. -/
example :
    let before : Context := ⟨[("module", .int 3), ("expression", .str "old")]⟩
    let after := trace (fun _ _ => .unsat) {} { State.initial with context := before } notReady
    after.records = [] ∧ after.state.context = ⟨[("module", .int 3)]⟩ := by
  decide

end CondSat.Logging
