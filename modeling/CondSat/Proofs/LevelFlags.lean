import CondSat.Proofs.DiagnosticContext
import CondSat.Proofs.Loggers

/-! # Cached answers

A flag keeps its answer together with the version of the configuration it was given under.
Levels are set in two ways only, and both move the version on, so that an answer of the
current version was given after levels were last set.  What has happened since can only have
made loggers, and that leaves the answer as it is: the logger of the flag was made at the
latest when the flag was read. -/
set_option autoImplicit false
namespace CondSat.Logging

open Analysis (Channel)
open Storage (Path)

inductive Operation where
  | setLevel (name level : String)
  /-- Configuring, with what has been written by then. -/
  | configure (time : String) (directory : Path) (output : Output)
  | getLogger (name : String) (least : Int)
  | read (flag : LevelFlag)

namespace State

variable {state later : State}

/-- An operation that fails leaves everything as it is. -/
def perform (state : State) : Operation → State
  | .setLevel name level => (state.setLevel name level).toOption.getD state
  | .configure time directory output =>
    match state.configure time directory output with
    | .ok (later, _) => later
    | .error _ => state
  | .getLogger name least => (state.getLogger name least).2
  | .read flag => (state.readFlag flag).2

def performAll (operations : List Operation) : State := operations.foldl perform .initial

/-! ## Answers that hold -/

def Holds (registry : Registry) (flag : LevelFlag) (answer : Bool) : Prop :=
  registry.Knows flag.logger ∧ registry.takes flag.logger flag.level = answer

/-- Answers of the current version hold. -/
structure Coherent (state : State) : Prop where
  settled : state.registry.Settled none
  ready : state.registry.Ready
  unset : state.context = {}
  answers : ∀ flag version answer, state.answers.lookup flag = some (version, answer) →
    version ≤ state.version ∧ (version = state.version → Holds state.registry flag answer)

theorem Holds.extend {registry grown : Registry} {flag : LevelFlag} {answer : Bool}
    (holds : Holds registry flag answer) (settled : registry.Settled none)
    (extension : registry.Extends grown) (settled' : grown.Settled none) :
    Holds grown flag answer := by
  obtain ⟨knows, takes⟩ := holds
  refine ⟨knows.extend extension, ?_⟩
  rw [Registry.takes_of_extends settled extension settled' knows, takes]

/-! ## One operation -/

theorem Coherent.getLogger (coherent : state.Coherent) (name : String) (least : Int) :
    (state.getLogger name least).2.Coherent := by
  have found := Registry.contextual_found coherent.settled name least
  refine ⟨found.settled, coherent.ready.extend found.grown, coherent.unset, ?_⟩
  intro flag version answer given
  obtain ⟨bounded, holds⟩ := coherent.answers flag version answer given
  exact ⟨bounded, fun current =>
    (holds current).extend coherent.settled found.grown found.settled⟩

theorem Coherent.holds_isOn (coherent : state.Coherent) (flag : LevelFlag) :
    Holds (state.isOn flag).2.registry flag (state.isOn flag).1 :=
  ⟨(Registry.contextual_found coherent.settled flag.logger defaultLevel).knows,
    Registry.takes_contextual coherent.settled flag.logger flag.level⟩

theorem Coherent.read (coherent : state.Coherent) (flag : LevelFlag) :
    (state.readFlag flag).2.Coherent := by
  unfold readFlag
  split
  · exact coherent
  · have asked : (state.isOn flag).2.Coherent := coherent.getLogger flag.logger defaultLevel
    refine ⟨asked.settled, asked.ready, asked.unset, ?_⟩
    intro other version answer given
    dsimp only at given ⊢
    rw [List.lookup_cons] at given
    split at given
    · next same =>
        obtain rfl := eq_of_beq same
        cases given
        exact ⟨Nat.le_refl _, fun _ => coherent.holds_isOn other⟩
    · exact asked.answers other version answer given

theorem Coherent.outdate (coherent : state.Coherent) (settled : later.registry.Settled none)
    (ready : later.registry.Ready) (moved : later.version = state.version + 1)
    (answers : later.answers = state.answers) (context : later.context = state.context) :
    later.Coherent := by
  refine ⟨settled, ready, context.trans coherent.unset, ?_⟩
  intro flag version answer given
  rw [answers] at given
  obtain ⟨bounded, -⟩ := coherent.answers flag version answer given
  rw [moved]
  exact ⟨Nat.le_succ_of_le bounded, fun same => absurd bounded (same ▸ Nat.not_succ_le_self _)⟩

theorem Coherent.setLevel (coherent : state.Coherent) {name level : String}
    (set : state.setLevel name level = .ok later) : later.Coherent := by
  unfold State.setLevel at set
  split at set
  · cases set
  · next rank _ =>
      cases set
      have named := coherent.getLogger name rank
      have changed := Registry.rehung_change (f := fun logger => { logger with level := rank })
        (state.getLogger name rank).2.registry (state.getLogger name rank).1 (fun _ => rfl)
        (Or.inr fun _ => rfl)
      exact coherent.outdate (changed.settled named.settled) (changed.ready named.ready) rfl rfl rfl

theorem log_state (state : State) (time name : String) (level : Int) (message : String)
    (values : List Json) (extra : List (String × Json)) (output : Output) :
    (state.log time name level message values extra output).2 = (state.getLogger name).2 := by
  unfold log
  dsimp only
  split <;> rfl

theorem clash_of_log {time name message : String} {level : Int} {values : List Json}
    {output : Output} {found : Clash}
    (failed : (state.log time name level message values [] output).1 = .error found) :
    found.key ∈ reservedKeys ∧ state.context.get? found.key ≠ none := by
  unfold log at failed
  dsimp only at failed
  split at failed
  · cases failed
  · generalize made : Record.make _ _ _ _ _ = result at failed
    cases result with
    | ok record => cases failed
    | error clash =>
        cases failed
        exact Record.clash_of_make made

def reconfigured (state : State) (directory : Path) : State :=
  { state with
    registry := state.registry.configure
    journal := some (directory.child journalName)
    problems := some (directory.child problemsName) }

theorem openFile_fails {disk : Storage.Disk} {path : Path} {handler : String}
    {fault : ConfigureFault} (failed : openFile disk path handler = .error fault) :
    fault = .handler handler := by
  unfold openFile at failed
  split at failed
  · cases failed
  · cases failed
    rfl

/-- Configuring fails before anything is changed, or changes the loggers, logs the first
message to the file of solver problems and moves the version on. -/
theorem configure_cases (state : State) (time : String) (directory : Path) (output : Output) :
    (∃ fault, state.configure time directory output = .error fault ∧
      ∀ found, fault ≠ .clash found) ∨
    ∃ written, state.configure time directory output =
      match ((state.reconfigured directory).log time Channel.problems.name 20 problemsHeader
        [] [] written).1 with
      | .ok output =>
        .ok (((state.reconfigured directory).getLogger Channel.problems.name).2.bump, output)
      | .error clash => .error (.clash clash) := by
  unfold configure
  cases made : (output.disk.ensureDirectory directory).mapError fun fault =>
      ConfigureFault.directory fault.1 with
  | error fault =>
      refine Or.inl ⟨fault, rfl, ?_⟩
      rintro found rfl
      cases absent : output.disk.ensureDirectory directory with
      | _ =>
          rw [absent] at made
          cases made
  | ok disk =>
      simp only [bind, Except.bind]
      cases opened : openFile disk (directory.child journalName) "defaultFileHandler" with
      | error fault =>
          obtain rfl := openFile_fails opened
          exact Or.inl ⟨_, rfl, by rintro _ ⟨⟩⟩
      | ok journal =>
          dsimp only
          cases opened : openFile journal (directory.child problemsName) "smt2FileHandler" with
          | error fault =>
              obtain rfl := openFile_fails opened
              exact Or.inl ⟨_, rfl, by rintro _ ⟨⟩⟩
          | ok ready =>
              refine Or.inr ⟨{ output with disk := ready }, ?_⟩
              have kept := log_state (state.reconfigured directory) time Channel.problems.name 20
                problemsHeader [] [] { output with disk := ready }
              rw [← kept]
              unfold reconfigured
              dsimp only
              rcases log _ _ _ _ _ _ _ _ with ⟨_ | _, _⟩ <;> rfl

theorem Coherent.configure_ne_clash (coherent : state.Coherent) (time : String)
    (directory : Path) (output : Output) (found : Clash) :
    state.configure time directory output ≠ .error (.clash found) := by
  have free : ∀ key ∈ reservedKeys, (state.reconfigured directory).context.get? key = none := by
    change ∀ key ∈ reservedKeys, state.context.get? key = none
    rw [coherent.unset]
    decide
  rcases configure_cases state time directory output with ⟨fault, failed, other⟩ | ⟨written, same⟩
  · rw [failed]
    exact fun clash => other found (Except.error.inj clash)
  · rw [same]
    split
    · nofun
    · next clash failed =>
        obtain ⟨reserved, known⟩ := clash_of_log failed
        exact absurd (free _ reserved) known

theorem Coherent.configure (coherent : state.Coherent) {time : String} {directory : Path}
    {output written : Output}
    (configured : state.configure time directory output = .ok (later, written)) :
    later.Coherent := by
  rcases configure_cases state time directory output with ⟨fault, failed, -⟩ | ⟨between, same⟩
  · rw [failed] at configured
    cases configured
  · rw [same] at configured
    split at configured
    · cases configured
      -- the answers need not hold in between, but afterwards the version has moved on
      have changed := Registry.rehung_configure coherent.ready
      have found := Registry.contextual_found (changed.settled coherent.settled)
        Channel.problems.name defaultLevel
      exact coherent.outdate found.settled ((changed.ready coherent.ready).extend found.grown)
        rfl rfl rfl
    · cases configured

/-! ## All operations -/

theorem Coherent.perform (coherent : state.Coherent) (operation : Operation) :
    (state.perform operation).Coherent := by
  cases operation with
  | setLevel name level =>
      rw [State.perform]
      cases set : state.setLevel name level with
      | error fault => exact coherent
      | ok later => exact coherent.setLevel set
  | configure time directory output =>
      rw [State.perform]
      split
      · next later written configured => exact coherent.configure configured
      · exact coherent
  | getLogger name least => exact coherent.getLogger name least
  | read flag => exact coherent.read flag

theorem initial_coherent : initial.Coherent := by
  have start : initial.registry.Settled none ∧ initial.context = {} ∧ initial.answers = [] := by
    unfold initial
    refine List.foldlRecOn (motive := fun state : State =>
      state.registry.Settled none ∧ state.context = {} ∧ state.answers = []) _ _
      ⟨Registry.initial_settled, rfl, rfl⟩ ?_
    rintro state ⟨settled, unset, unasked⟩ name -
    exact ⟨(Registry.contextual_found settled name defaultLevel).settled, unset, unasked⟩
  have ready : ∀ entry ∈ configuredHandlers, ∃ number, number < 11 ∧
      initial.registry.slot? entry.1.name = some (.logger number) := by
    decide
  obtain ⟨settled, unset, unasked⟩ := start
  refine ⟨settled, fun entry member => ?_, unset, fun flag version answer given => ?_⟩
  · obtain ⟨number, -, found⟩ := ready entry member
    exact ⟨number, found⟩
  · rw [unasked] at given
    cases given

theorem performAll_coherent (operations : List Operation) : (performAll operations).Coherent :=
  List.foldlRecOn operations perform initial_coherent
    fun _ coherent operation _ => coherent.perform operation

theorem Coherent.readFlag_eq (coherent : state.Coherent) (flag : LevelFlag) :
    (state.readFlag flag).1 = (state.isOn flag).1 := by
  unfold readFlag
  split
  · next answer cached =>
      obtain ⟨⟨version, kept⟩, given, current⟩ := Option.bind_eq_some_iff.mp cached
      dsimp only at current
      split at current
      · next same =>
          cases current
          obtain ⟨-, takes⟩ := (coherent.answers flag version answer given).2 same
          exact takes.symm
      · cases current
  · rfl

theorem Coherent.isOn_iff_inForce (coherent : state.Coherent) (flag : LevelFlag) :
    ∃ level, (state.isOn flag).2.registry.InForce (some (state.getLogger flag.logger).1) level ∧
      (state.isOn flag).1 = (decide (0 < flag.level) && decide (level ≤ flag.level)) := by
  have found := Registry.contextual_found coherent.settled flag.logger defaultLevel
  exact ⟨_, found.settled.inForce_effectiveLevel (Or.inr found.context), rfl⟩

/-- After any operations a flag reads as its logger would answer, which goes by the level in
force on the way up.  A level with an unknown name changes nothing.  Configuring never fails
half-way. -/
theorem flags_agree_with_loggers (operations : List Operation) :
    let now := performAll operations
    (∀ flag, (now.readFlag flag).1 = (now.isOn flag).1 ∧
      ∃ level, (now.isOn flag).2.registry.InForce (some (now.getLogger flag.logger).1) level ∧
        (now.isOn flag).1 = (decide (0 < flag.level) && decide (level ≤ flag.level))) ∧
    (∀ name level fault, now.setLevel name level = .error fault →
      now.perform (.setLevel name level) = now) ∧
    ∀ time directory output found,
      now.configure time directory output ≠ .error (.clash found) := by
  intro now
  have coherent : now.Coherent := performAll_coherent operations
  refine ⟨fun flag => ⟨coherent.readFlag_eq flag, coherent.isOn_iff_inForce flag⟩, ?_,
    coherent.configure_ne_clash⟩
  intro name level fault failed
  rw [perform, failed]
  rfl

/-- A logger that inherits its level follows the logger above it. -/
example :
    let flag : LevelFlag := { logger := "a.b", level := 10 }
    let before := performAll [.getLogger "a" 30, .getLogger "a.b" 0, .read flag]
    (before.readFlag flag).1 = false ∧
      ((before.perform (.setLevel "a" "debug")).readFlag flag).1 = true := by
  decide

end State

end CondSat.Logging
