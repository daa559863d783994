import CondSat.Command.Check
import CondSat.Proofs.DiagnosticContext

/-! # Steps of the check command

Every step has one answer when it is started where the steps before it lead, and the
answer depends on the request, the settings and the disk: no record that is logged on the
way decides anything.  Before the loggers are configured, records meet no handler; after
that, the only file that is read is the tree's. -/
set_option autoImplicit false
namespace CondSat.Command

open Logging (ConfigureFault Output State)
open Settings (Configuration Surroundings)
open Source (Expr)
open Solver (Oracle)
open Storage (Disk Path)

/-! ## Answers of programs -/

namespace Program

variable {α β : Type}

theorem run_bind (step : Program α) (next : α → Program β) (start : Session) :
    (step >>= next).run start =
      match step.run start with
      | (.ok value, middle) => (next value).run middle
      | (.error fault, middle) => (.error fault, middle) := by
  change ExceptT.bindCont next (step.run start).1 (step.run start).2 = _
  rcases step.run start with ⟨_ | _, _⟩ <;> rfl

/-- From every session with the first property the step has this answer, and leaves a
session with the second one. -/
def Yields (before : Session → Prop) (step : Program α) (answer : Except Crash α)
    (after : Session → Prop) : Prop :=
  ∀ start, before start → ∃ final, step.run start = (answer, final) ∧ after final

def Answers (before : Session → Prop) (step : Program α) (answer : Except Crash α) : Prop :=
  ∀ start, before start → (step.run start).1 = answer

variable {before middle after : Session → Prop}

theorem Yields.answers {step : Program α} {answer : Except Crash α}
    (yields : Yields before step answer after) : Answers before step answer := by
  intro start holds
  obtain ⟨final, ran, -⟩ := yields start holds
  rw [ran]

theorem Yields.weaken {step : Program α} {answer : Except Crash α}
    (yields : Yields middle step answer after)
    (implied : ∀ session, before session → middle session) :
    Yields before step answer after :=
  fun start holds => yields start (implied start holds)

theorem yields_pure (value : α) : Yields before (pure value) (.ok value) before :=
  fun start holds => ⟨start, rfl, holds⟩

theorem yields_throw (fault : Crash) :
    Yields before (throw fault : Program α) (.error fault) before :=
  fun start holds => ⟨start, rfl, holds⟩

theorem yields_lift {ε : Type} (wrap : ε → Crash) (result : Except ε α) :
    Yields before (lift wrap result) (result.mapError wrap) before := by
  cases result with
  | ok value => exact yields_pure value
  | error fault => exact yields_throw (wrap fault)

theorem yields_modify {change : Session → Session}
    (changes : ∀ session, before session → after (change session)) :
    Yields before (modify change) (.ok ⟨⟩) after :=
  fun start holds => ⟨change start, rfl, changes start holds⟩

theorem yields_get {next : Session → Program α} {answer : Except Crash α}
    (rest : ∀ session, before session → Yields before (next session) answer after) :
    Yields before (get >>= next) answer after :=
  fun start holds => rest start holds start holds

theorem yields_seq {step : Program α} {next : α → Program β} {value : α}
    {answer : Except Crash β} (first : Yields before step (.ok value) middle)
    (rest : Yields middle (next value) answer after) :
    Yields before (step >>= next) answer after := by
  intro start holds
  obtain ⟨between, stepped, reached⟩ := first start holds
  obtain ⟨final, rested, ended⟩ := rest between reached
  refine ⟨final, ?_, ended⟩
  rw [run_bind, stepped]
  exact rested

theorem yields_forIn {γ : Type} {items : List γ}
    {body : γ → PUnit → Program (ForInStep PUnit)}
    (each : ∀ item ∈ items, Yields before (body item ⟨⟩) (.ok (.yield ⟨⟩)) before) :
    Yields before (forIn items ⟨⟩ body) (.ok ⟨⟩) before := by
  induction items with
  | nil => exact yields_pure _
  | cons item rest ih =>
      rw [List.forIn_cons]
      exact yields_seq (each item (by simp)) (ih fun other member => each other (by simp [member]))

theorem answers_seq {step : Program α} {next : α → Program β} {value : α}
    {answer : Except Crash β} (first : Yields before step (.ok value) middle)
    (rest : Answers middle (next value) answer) : Answers before (step >>= next) answer := by
  intro start holds
  obtain ⟨between, stepped, reached⟩ := first start holds
  rw [run_bind, stepped]
  exact rest between reached

theorem answers_stop {step : Program α} {next : α → Program β} {fault : Crash}
    (first : Answers before step (.error fault)) :
    Answers before (step >>= next) (.error fault) := by
  intro start holds
  have stopped := first start holds
  rw [run_bind]
  generalize step.run start = result at stopped ⊢
  obtain ⟨answer, final⟩ := result
  cases stopped
  rfl

end Program

/-! ## Before the loggers are configured -/

def Untouched (disk : Disk) (session : Session) : Prop :=
  session.logging = .initial ∧ session.output.disk = disk

theorem settings_logger :
    State.initial.getLogger Analysis.Channel.settings.name = (2, State.initial) ∧
    State.initial.registry.handlersOf 2 = [] := by
  decide +kernel

theorem dispatch_settings (time : String) (event : Settings.Event) (output : Output) :
    ∃ errors, State.initial.dispatch time
      ⟨Analysis.Channel.settings.name, event.level.rank, event.message, some (.str "")⟩ output =
      (State.initial, { output with errors }) := by
  obtain ⟨found, unheard⟩ := settings_logger
  rw [State.dispatch]
  dsimp only
  rw [found]
  dsimp only
  rw [State.deliver, unheard]
  dsimp only
  split
  · split <;> exact ⟨_, rfl⟩
  · exact ⟨_, rfl⟩

def CheckRequest.Timed (request : CheckRequest) : Prop :=
  ∀ limit, request.timeout = some limit → 0 ≤ limit

def CheckRequest.adjust (request : CheckRequest) (configuration : Configuration) :
    Except Settings.Fault Configuration :=
  match request.timeout with
  | none => .ok configuration
  | some limit => configuration.set "timeout_ms" (.int limit)

def CheckRequest.logPlace (request : CheckRequest) (configuration : Configuration) :
    Except Settings.Fault (Path × Configuration) :=
  match request.logDirectory.filter (!·.isEmpty) with
  | some text => .ok (.ofText text, configuration)
  | none => configuration.logDirectory

namespace Program

theorem loadSettings_yields [Limits] (time : String) (surroundings : Surroundings)
    (file : Option String) (disk : Disk) :
    Yields (Untouched disk) (loadSettings time surroundings file)
      ((Configuration.load disk surroundings file none).1.mapError .settings) (Untouched disk) := by
  refine yields_get ?_
  rintro session ⟨-, rfl⟩
  refine yields_seq (yields_forIn fun event _ => ?_) (yields_lift _ _)
  refine yields_seq (yields_modify ?_) (yields_pure _)
  rintro session ⟨logging, disk⟩
  obtain ⟨errors, delivered⟩ := dispatch_settings time event session.output
  dsimp only
  rw [logging, delivered]
  exact ⟨by dsimp only, disk⟩

theorem withTimeout_refuses {limit : Int} (negative : limit < 0) (configuration : Configuration)
    (disk : Disk) :
    Yields (Untouched disk) (withTimeout configuration (some limit)) (.ok none)
      (Untouched disk) := by
  rw [withTimeout, if_pos negative]
  exact yields_seq (yields_modify fun session holds => holds) (yields_pure none)

theorem withTimeout_adjusts {request : CheckRequest} (timed : request.Timed)
    (configuration : Configuration) (disk : Disk) :
    Yields (Untouched disk) (withTimeout configuration request.timeout)
      (((request.adjust configuration).map some).mapError .settings) (Untouched disk) := by
  unfold CheckRequest.adjust
  cases given : request.timeout with
  | none => exact yields_pure _
  | some limit =>
      rw [withTimeout, if_neg (Int.not_lt.mpr (timed limit given))]
      dsimp only
      cases configuration.set "timeout_ms" (.int limit) with
      | ok adjusted => exact yields_seq (yields_lift _ _) (yields_pure _)
      | error fault => exact fun start holds => ⟨start, rfl, holds⟩

theorem logDirectory_yields (request : CheckRequest) (configuration : Configuration)
    (disk : Disk) :
    Yields (Untouched disk) (logDirectory configuration request.logDirectory)
      ((request.logPlace configuration).mapError .settings) (Untouched disk) := by
  unfold logDirectory CheckRequest.logPlace
  cases request.logDirectory.filter (!·.isEmpty) with
  | none => exact yields_lift _ _
  | some text => exact yields_pure _

end Program

/-! ## The log files -/

/-- The disk once the log files in a directory are open and the file of solver problems
has its first lines. -/
def logDisk (disk : Disk) (directory : Path) : Except ConfigureFault Disk := do
  let disk ← (disk.ensureDirectory directory).mapError fun fault => ConfigureFault.directory fault.1
  let disk ← State.openFile disk (directory.child Logging.journalName) "defaultFileHandler"
  let disk ← State.openFile disk (directory.child Logging.problemsName) "smt2FileHandler"
  return (({ disk } : Output).append (some (directory.child Logging.problemsName))
    (Logging.problemsHeader ++ "\n")).disk

def configuredRegistry : Logging.Registry := State.initial.registry.configure

def configuredState (directory : Path) : State :=
  { State.initial with
    registry := configuredRegistry
    journal := some (directory.child Logging.journalName)
    problems := some (directory.child Logging.problemsName) }

theorem problems_logger :
    configuredRegistry.contextual Analysis.Channel.problems.name Logging.defaultLevel =
      (10, configuredRegistry) ∧
    configuredRegistry.isEnabled 10 20 = true ∧
    configuredRegistry.handlersOf 10 = [.problems] := by
  decide +kernel

theorem log_header (time : String) (directory : Path) (output : Output) :
    (configuredState directory).log time Analysis.Channel.problems.name 20 Logging.problemsHeader
        [] [] output =
      (.ok (output.append (some (directory.child Logging.problemsName))
        (Logging.problemsHeader ++ "\n")), configuredState directory) := by
  obtain ⟨found, enabled, handlers⟩ := problems_logger
  have logger : (configuredState directory).getLogger Analysis.Channel.problems.name =
      (10, configuredState directory) := by
    rw [State.getLogger, configuredState, found]
  have taken : (configuredState directory).registry.isEnabled 10 20 = true := enabled
  have heard : (configuredState directory).registry.handlersOf 10 = [.problems] := handlers
  rw [State.log, logger]
  dsimp only
  rw [taken]
  simp only [Bool.not_true, Bool.false_eq_true, if_false, State.deliver, heard]
  rfl

theorem configure_initial (time : String) (directory : Path) (output : Output) :
    State.initial.configure time directory output =
      (logDisk output.disk directory).map fun disk =>
        ((configuredState directory).bump, { output with disk }) := by
  unfold State.configure logDisk
  cases (output.disk.ensureDirectory directory).mapError fun fault =>
      ConfigureFault.directory fault.1 with
  | error fault => rfl
  | ok made =>
      simp only [bind, Except.bind]
      cases State.openFile made (directory.child Logging.journalName) "defaultFileHandler" with
      | error fault => rfl
      | ok opened =>
          dsimp only
          cases State.openFile opened (directory.child Logging.problemsName) "smt2FileHandler" with
          | error fault => rfl
          | ok ready =>
              have header := log_header time directory { output with disk := ready }
              unfold configuredState configuredRegistry at header
              dsimp only
              rw [header]
              rfl

def WorksOn (disk : Disk) (session : Session) : Prop :=
  session.output.disk = disk ∧ session.logging.context = {}

namespace Program

theorem configure_opens {time : String} {directory : Path} {disk ready : Disk}
    (opened : logDisk disk directory = .ok ready) :
    Yields (Untouched disk) (configure time directory) (.ok ()) (WorksOn ready) := by
  refine yields_get ?_
  rintro session ⟨logging, rfl⟩
  rw [logging, configure_initial, opened]
  exact yields_seq (yields_lift _ _) fun _ _ => ⟨_, rfl, rfl, rfl⟩

theorem configure_fails {time : String} {directory : Path} {disk : Disk} {fault : ConfigureFault}
    (failed : logDisk disk directory = .error fault) :
    Answers (Untouched disk) (configure time directory) (.error (.logging fault)) := by
  rintro session ⟨logging, rfl⟩
  change (ExceptT.run
    (lift .logging (session.logging.configure time directory session.output) >>= _) session).1 = _
  rw [logging, configure_initial, failed]
  rfl

/-! ## After the loggers are configured -/

theorem setLevel_known {level : String} (known : level ∈ levelChoices) (state : State)
    (name : String) :
    ∃ later, state.setLevel name level = .ok later ∧ later.context = state.context := by
  have named : (Logging.levelNamed? level).isSome = true := by
    revert level
    decide
  obtain ⟨rank, found⟩ := Option.isSome_iff_exists.mp named
  rw [State.setLevel, found]
  exact ⟨_, rfl, rfl⟩

theorem setLevels_yields {level : String} (known : level ∈ levelChoices) (disk : Disk) :
    Yields (WorksOn disk) (setLevels level) (.ok ()) (WorksOn disk) := by
  refine yields_get fun _ _ => yields_seq (yields_forIn fun name _ => ?_) (yields_pure ())
  refine yields_get ?_
  rintro session ⟨rfl, unset⟩
  obtain ⟨later, set, kept⟩ := setLevel_known known session.logging name
  rw [set]
  exact yields_seq (yields_lift _ _) fun _ _ => ⟨_, rfl, rfl, kept.trans unset⟩

end Program

def treeOn [Limits] (disk : Disk) (path : String) : Except Crash (Option Expr) :=
  match disk.readText (.ofText path) with
  | .error (.file .nullCharacter) => .error .treeName
  | .error (.file _) => .ok none
  | .error .notText => .error .treeNotText
  | .ok text =>
    match (Expr.ofText text 1).1 with
    | .ok tree => .ok (some tree)
    | .error .wrongKind => .error .treeWrongKind
    | .error (.tooManyDigits count) => .error (.treeNumber (.tooManyDigits count))
    | .error _ => .ok none

/-- What comes of an answer that is printed around a text: a torn text cannot be printed. -/
def shown (text : Json) (status : Status) : Except Crash Status :=
  if Source.isTorn text then .error .unprintable else .ok status

def concluded (quiet : Bool) (text : Json) :
    Except Analysis.Failure (Option Analysis.Verdict) → Except Crash Status
  | .error failure => .error (.analysis failure)
  | .ok none => shown text .noVerdict
  | .ok (some verdict) =>
    if quiet then .ok (Program.statusOf verdict) else shown text (Program.statusOf verdict)

def judgement [Limits] (oracle : Oracle) (configuration : Configuration) (quiet : Bool)
    (tree : Expr) : Except Crash Status :=
  if Analysis.isCandidate tree then
    match configuration.options with
    | .error fault => .error (.settings fault)
    | .ok options => concluded quiet tree.text (Analysis.analyze oracle options tree).outcome
  else shown tree.text .noVerdict

namespace Program

theorem readTree_yields [Limits] (path : String) (disk : Disk) :
    Yields (WorksOn disk) (readTree path) (treeOn disk path) (WorksOn disk) := by
  have refuses : ∀ line, Yields (WorksOn disk)
      (do printError line; return (none : Option Expr)) (.ok none) (WorksOn disk) := fun _ =>
    yields_seq (yields_modify fun _ works => works) (yields_pure none)
  refine yields_get ?_
  rintro session ⟨rfl, -⟩
  unfold treeOn
  cases session.output.disk.readText (.ofText path) with
  | error fault =>
      cases fault with
      | file fault =>
          cases fault with
          | nullCharacter => exact yields_throw _
          | _ => exact refuses _
      | notText => exact yields_throw _
  | ok text =>
      dsimp only
      cases (Expr.ofText text 1).1 with
      | ok tree => exact yields_pure _
      | error fault =>
          cases fault with
          | wrongKind | tooManyDigits count => exact yields_throw _
          | malformed | format | tooDeep => exact refuses _

/-- What follows is reached unless the text cannot be printed. -/
theorem printAround_yields {before : Session → Prop} {rest : PUnit → Program Status}
    {status : Status} (ends : Yields (fun _ => True) (rest ⟨⟩) (.ok status) fun _ => True)
    (start : String)
    (text : Json) (finish : String) :
    Yields before (printAround start text finish >>= rest) (shown text status) fun _ => True := by
  cases text with
  | torn text => exact fun session _ => ⟨session, rfl, trivial⟩
  | _ => exact yields_seq (yields_modify fun _ _ => trivial) ends

theorem judge_yields [Limits] (oracle : Oracle) (time : String) (configuration : Configuration)
    (quiet : Bool) (tree : Expr) :
    Yields (fun session => session.logging.context = {})
      (judge oracle time configuration quiet tree) (judgement oracle configuration quiet tree)
      fun _ => True := by
  have changes : ∀ {before : Session → Prop} (change : Session → Session),
      Yields before (modify change : Program Unit) (.ok ()) fun _ => True :=
    fun _ => yields_modify fun _ _ => trivial
  unfold judge judgement
  cases Analysis.isCandidate tree with
  | false => exact printAround_yields (yields_pure _) _ _ _
  | true =>
      cases configuration.options with
      | error fault => exact fun start _ => ⟨start, rfl, trivial⟩
      | ok options =>
          refine yields_seq (yields_lift _ _) (yields_get fun session unset => ?_)
          have free : ∀ key ∈ Logging.reservedKeys, session.logging.context.get? key = none := by
            rw [unset]
            decide
          dsimp only
          rw [Logging.trace_outcome oracle options session.logging tree free]
          suffices rest : Yields (fun _ => True) _ _ _ from rest.weaken fun _ _ => trivial
          refine yields_seq (yields_forIn fun _ _ => yields_seq (changes _) (yields_pure _)) ?_
          refine yields_seq (changes _) ?_
          cases (Analysis.analyze oracle options tree).outcome with
          | error failure => exact fun start _ => ⟨start, rfl, trivial⟩
          | ok verdict =>
              refine yields_seq (yields_lift _ _) ?_
              cases verdict with
              | none => exact printAround_yields (yields_pure _) _ _ _
              | some verdict =>
                  cases quiet with
                  | true => exact yields_seq (changes _) (yields_pure _)
                  | false =>
                      refine printAround_yields ?_ _ _ _
                      exact yields_seq (changes _) (yields_pure _)

end Program

end CondSat.Command
