import CondSat.Proofs.CommandLine
import CondSat.Proofs.FailingAnalyses
import CondSat.Proofs.ProgramSteps

/-! # How a check ends

A check that the command line asks for ends with a status or as a fault.  It is refused,
with a message and the status for invalid input, for a negative time limit on the command
line and for a tree that cannot be read or is no tree.  Everything in `Unhandled` ends it
as a fault: settings that cannot be loaded or used, a negative time limit among them, a
place for log files that cannot be used, and what the tree's file may hold besides trees
that can be analysed and printed.

Names that are no texts go into the symbols of the solver as they are, and a path may be
written with halves of surrogate pairs for bytes; `Followed` leaves both out. -/
set_option autoImplicit false
namespace CondSat

open Settings (Configuration Surroundings)

/-! ## Time limits of settings -/

namespace Settings.Configuration

variable {configuration : Configuration}

theorem options_of_unusable {fault : Fault} (unusable : configuration.timeout = .error fault) :
    configuration.options = .error fault := by
  rw [options, unusable]
  rfl

/-- Where there is a time limit, the document has members, so that the hints are known. -/
theorem options_of_timeout {limit : Int} (given : configuration.timeout = .ok limit) :
    ∃ hints, configuration.options =
      match Analysis.Options.build limit hints with
      | .ok options => .ok options
      | .error fault => .error (.options fault) := by
  cases document : configuration.members with
  | error fault =>
      rw [timeout, get, document] at given
      cases given
  | ok members =>
      have hints : ∃ hints, configuration.reportsHints = .ok hints := by
        rw [reportsHints, get, document]
        exact ⟨_, rfl⟩
      obtain ⟨hints, known⟩ := hints
      refine ⟨hints, ?_⟩
      rw [options, given, known]
      rfl

theorem options_of_negative {limit : Int} (given : configuration.timeout = .ok limit)
    (negative : limit < 0) :
    configuration.options = .error (.options (.negativeTimeout (toString limit))) := by
  obtain ⟨hints, built⟩ := options_of_timeout given
  rw [built, Analysis.Options.build, if_pos negative]

theorem options_of_nonneg {limit : Int} (given : configuration.timeout = .ok limit)
    (nonneg : 0 ≤ limit) : ∃ options, configuration.options = .ok options := by
  obtain ⟨hints, built⟩ := options_of_timeout given
  rw [Analysis.Options.build, if_neg (not_lt.mpr nonneg)] at built
  exact ⟨_, built⟩

end Settings.Configuration

namespace Json

def isWhole : Json → Bool
  | .str _ => true
  | _ => false

mutual

/-- Whether every name that a document states is a whole text. -/
def namesAreTexts : Json → Bool
  | .arr items => namesAreTextsItems items
  | .obj members => namesAreTextsMembers members
  | _ => true

def namesAreTextsItems : List Json → Bool
  | [] => true
  | item :: rest => namesAreTexts item && namesAreTextsItems rest

def namesAreTextsMembers : List (String × Json) → Bool
  | [] => true
  | (key, value) :: rest =>
    (key != "name" || value.isWhole) && namesAreTexts value && namesAreTextsMembers rest

end

end Json

/-- What is reported about a document that is no tree.  The other faults are not. -/
def Source.LoadError.Reported : Source.LoadError → Prop
  | .malformed .. | .format .. | .tooDeep => True
  | .tooManyDigits _ | .wrongKind => False

namespace Command

open Analysis (AsksSolver Build Failure Provokes formulate isCandidate)
open Source (Expr isTorn)
open Solver (Oracle)
open Storage (Disk Path)

section

variable [Limits] (surroundings : Surroundings) (request : CheckRequest) (disk : Disk)

def settingsOn : Except Settings.Fault Configuration :=
  (Configuration.load disk surroundings request.settings none).1

def Adjusted (configuration : Configuration) : Prop :=
  request.Timed ∧ ∃ found, settingsOn surroundings request disk = .ok found ∧
    request.adjust found = .ok configuration

def Prepared (configuration : Configuration) (ready : Disk) : Prop :=
  ∃ adjusted directory, Adjusted surroundings request disk adjusted ∧
    request.logPlace adjusted = .ok (directory, configuration) ∧
    logDisk disk directory = .ok ready

def Candidate (configuration : Configuration) (tree : Expr) : Prop :=
  ∃ ready text, Prepared surroundings request disk configuration ready ∧
    ready.readText (.ofText request.tree) = .ok text ∧ (Expr.ofText text 1).1 = .ok tree ∧
    isCandidate tree = true

inductive Refused : Prop where
  | timeout {configuration : Configuration} {limit : Int}
      (found : settingsOn surroundings request disk = .ok configuration)
      (given : request.timeout = some limit) (negative : limit < 0)
  | unreadable {configuration : Configuration} {ready : Disk} {fault : Storage.Fault}
      (prepared : Prepared surroundings request disk configuration ready)
      (failed : ready.readText (.ofText request.tree) = .error (.file fault))
      (named : fault ≠ .nullCharacter)
  | noTree {configuration : Configuration} {ready : Disk} {text : String}
      {fault : Source.LoadError} (prepared : Prepared surroundings request disk configuration ready)
      (content : ready.readText (.ofText request.tree) = .ok text)
      (failed : (Expr.ofText text 1).1 = .error fault) (reported : fault.Reported)

/-- The faults that end a check without a status. -/
inductive Unhandled : Crash → Prop where
  | settings {fault : Settings.Fault}
      (failed : settingsOn surroundings request disk = .error fault) : Unhandled (.settings fault)
  | adjusting {configuration : Configuration} {fault : Settings.Fault} (timed : request.Timed)
      (found : settingsOn surroundings request disk = .ok configuration)
      (failed : request.adjust configuration = .error fault) : Unhandled (.settings fault)
  | logPlace {configuration : Configuration} {fault : Settings.Fault}
      (adjusted : Adjusted surroundings request disk configuration)
      (failed : request.logPlace configuration = .error fault) : Unhandled (.settings fault)
  | logFiles {adjusted configuration : Configuration} {directory : Path}
      {fault : Logging.ConfigureFault} (settled : Adjusted surroundings request disk adjusted)
      (place : request.logPlace adjusted = .ok (directory, configuration))
      (failed : logDisk disk directory = .error fault) : Unhandled (.logging fault)
  | treeName {configuration : Configuration} {ready : Disk}
      (prepared : Prepared surroundings request disk configuration ready)
      (failed : ready.readText (.ofText request.tree) = .error (.file .nullCharacter)) :
      Unhandled .treeName
  | treeNotText {configuration : Configuration} {ready : Disk}
      (prepared : Prepared surroundings request disk configuration ready)
      (failed : ready.readText (.ofText request.tree) = .error .notText) : Unhandled .treeNotText
  | treeDigits {configuration : Configuration} {ready : Disk} {text : String} {count : Nat}
      (prepared : Prepared surroundings request disk configuration ready)
      (content : ready.readText (.ofText request.tree) = .ok text)
      (failed : (Expr.ofText text 1).1 = .error (.tooManyDigits count)) :
      Unhandled (.treeNumber (.tooManyDigits count))
  | treeWrongKind {configuration : Configuration} {ready : Disk} {text : String}
      (prepared : Prepared surroundings request disk configuration ready)
      (content : ready.readText (.ofText request.tree) = .ok text)
      (failed : (Expr.ofText text 1).1 = .error .wrongKind) : Unhandled .treeWrongKind
  /-- The time limit of the settings is no number. -/
  | timeout {configuration : Configuration} {tree : Expr} {fault : Settings.Fault}
      (candidate : Candidate surroundings request disk configuration tree)
      (failed : configuration.timeout = .error fault) : Unhandled (.settings fault)
  /-- The time limit of the settings is negative. -/
  | negative {configuration : Configuration} {tree : Expr} {limit : Int}
      (candidate : Candidate surroundings request disk configuration tree)
      (given : configuration.timeout = .ok limit) (negative : limit < 0) :
      Unhandled (.settings (.options (.negativeTimeout (toString limit))))
  /-- Formulating the tree fails on something it holds. -/
  | analysis {configuration : Configuration} {tree : Expr} {limit : Int} {failure : Failure}
      (candidate : Candidate surroundings request disk configuration tree)
      (given : configuration.timeout = .ok limit) (nonneg : 0 ≤ limit)
      (provokes : Provokes tree failure)
      (failed : (formulate tree).answer ⟨.start, []⟩ = .error failure) :
      Unhandled (.analysis failure)
  /-- The tree is not analysed, and the text to be printed is torn. -/
  | tornOther {configuration : Configuration} {ready : Disk} {text : String} {tree : Expr}
      (prepared : Prepared surroundings request disk configuration ready)
      (content : ready.readText (.ofText request.tree) = .ok text)
      (decoded : (Expr.ofText text 1).1 = .ok tree) (other : isCandidate tree = false)
      (torn : isTorn tree.text = true) : Unhandled .unprintable
  /-- The tree has been analysed, and the text to be printed is torn. -/
  | torn {configuration : Configuration} {tree : Expr} {limit : Int}
      (candidate : Candidate surroundings request disk configuration tree)
      (given : configuration.timeout = .ok limit) (nonneg : 0 ≤ limit)
      (answered : ∀ failure, (formulate tree).answer ⟨.start, []⟩ = .error failure →
        failure = .tooDeep)
      (loud : request.quiet = true → ¬AsksSolver tree) (torn : isTorn tree.text = true) :
      Unhandled .unprintable

end

/-! ## The command, stage by stage -/

def conclusion [Limits] (oracle : Oracle) (request : CheckRequest) (configuration : Configuration)
    (disk : Disk) : Except Crash Status :=
  match treeOn disk request.tree with
  | .error fault => .error fault
  | .ok none => .ok .invalidInput
  | .ok (some tree) => judgement oracle configuration request.quiet tree

namespace Program

theorem conclusion_answers [Limits] (oracle : Oracle) (time : String) (request : CheckRequest)
    (configuration : Configuration) (disk : Disk) :
    Answers (WorksOn disk) (do
      match ← readTree request.tree with
      | none => return .invalidInput
      | some tree => judge oracle time configuration request.quiet tree)
      (conclusion oracle request configuration disk) := by
  have read := readTree_yields request.tree disk
  unfold conclusion
  cases found : treeOn disk request.tree with
  | error fault => exact answers_stop (found ▸ read).answers
  | ok answer =>
      refine answers_seq (found ▸ read) ?_
      cases answer with
      | none => exact (yields_pure _).answers
      | some tree =>
          exact fun start works =>
            (judge_yields oracle time configuration request.quiet tree).answers start works.2

section

variable [Limits] {surroundings : Surroundings} {request : CheckRequest} {disk : Disk}
  {configuration adjusted : Configuration} {directory : Path} {fault : Settings.Fault}
  (oracle : Oracle) (time : String)

theorem load_yields (surroundings : Surroundings) (request : CheckRequest) (disk : Disk) :
    Yields (Untouched disk) (loadSettings time surroundings request.settings)
      ((settingsOn surroundings request disk).mapError .settings) (Untouched disk) :=
  loadSettings_yields time surroundings request.settings disk

theorem check_unloaded (failed : settingsOn surroundings request disk = .error fault) :
    Answers (Untouched disk) (check oracle time surroundings request)
      (.error (.settings fault)) := by
  have load := load_yields time surroundings request disk
  rw [failed] at load
  exact answers_stop load.answers

theorem check_refused {limit : Int}
    (found : settingsOn surroundings request disk = .ok configuration)
    (given : request.timeout = some limit) (negative : limit < 0) :
    Answers (Untouched disk) (check oracle time surroundings request) (.ok .invalidInput) := by
  have load := load_yields time surroundings request disk
  have refuse := withTimeout_refuses negative configuration disk
  rw [found] at load
  rw [← given] at refuse
  exact answers_seq load (answers_seq refuse (yields_pure _).answers)

theorem check_unadjusted (timed : request.Timed)
    (found : settingsOn surroundings request disk = .ok configuration)
    (failed : request.adjust configuration = .error fault) :
    Answers (Untouched disk) (check oracle time surroundings request)
      (.error (.settings fault)) := by
  have load := load_yields time surroundings request disk
  have adjust := withTimeout_adjusts timed configuration disk
  rw [found] at load
  rw [failed] at adjust
  exact answers_seq load (answers_stop adjust.answers)

theorem check_adjusted {answer : Except Crash Status}
    (settled : Adjusted surroundings request disk configuration)
    (rest : Answers (Untouched disk) (do
      let (directory, configuration) ← logDirectory configuration request.logDirectory
      configure time directory
      match request.logLevel with
      | some level => setLevels level
      | none => pure ()
      match ← readTree request.tree with
      | none => return .invalidInput
      | some tree => judge oracle time configuration request.quiet tree) answer) :
    Answers (Untouched disk) (check oracle time surroundings request) answer := by
  obtain ⟨timed, first, found, adjusted⟩ := settled
  have load := load_yields time surroundings request disk
  have adjust := withTimeout_adjusts timed first disk
  rw [found] at load
  rw [adjusted] at adjust
  exact answers_seq load (answers_seq adjust rest)

theorem check_unplaced (settled : Adjusted surroundings request disk configuration)
    (failed : request.logPlace configuration = .error fault) :
    Answers (Untouched disk) (check oracle time surroundings request)
      (.error (.settings fault)) := by
  have place := logDirectory_yields request configuration disk
  rw [failed] at place
  exact check_adjusted oracle time settled (answers_stop place.answers)

theorem check_unlogged {fault : Logging.ConfigureFault}
    (settled : Adjusted surroundings request disk adjusted)
    (placed : request.logPlace adjusted = .ok (directory, configuration))
    (failed : logDisk disk directory = .error fault) :
    Answers (Untouched disk) (check oracle time surroundings request)
      (.error (.logging fault)) := by
  have place := logDirectory_yields request adjusted disk
  rw [placed] at place
  exact check_adjusted oracle time settled
    (answers_seq place (answers_stop (configure_fails failed)))

theorem check_prepared {ready : Disk}
    (prepared : Prepared surroundings request disk configuration ready)
    (offered : ∀ level, request.logLevel = some level → level ∈ levelChoices) :
    Answers (Untouched disk) (check oracle time surroundings request)
      (conclusion oracle request configuration ready) := by
  obtain ⟨adjusted, directory, settled, placed, opened⟩ := prepared
  have place := logDirectory_yields request adjusted disk
  rw [placed] at place
  refine check_adjusted oracle time settled
    (answers_seq place (answers_seq (configure_opens opened) ?_))
  have rest := conclusion_answers oracle time request configuration ready
  cases asked : request.logLevel with
  | none => exact rest
  | some level => exact answers_seq (setLevels_yields (offered level asked) ready) rest

end

end Program

/-! ## Which inputs end how -/

theorem judgement_of_options [Limits] {oracle : Oracle} {configuration : Configuration}
    {quiet : Bool} {tree : Expr} {options : Analysis.Options} (boolean : isCandidate tree = true)
    (built : configuration.options = .ok options) :
    judgement oracle configuration quiet tree =
      concluded quiet tree.text (Analysis.analyze oracle options tree).outcome := by
  rw [judgement, if_pos boolean, built]

theorem concluded_torn {quiet : Bool} {text : Json} {verdict : Option Analysis.Verdict}
    (torn : isTorn text = true) (loud : quiet = true → verdict = none) :
    concluded quiet text (.ok verdict) = .error .unprintable := by
  cases verdict with
  | none => exact if_pos torn
  | some verdict =>
      cases quiet with
      | true => cases loud rfl
      | false => exact if_pos torn

theorem concluded_ends (quiet : Bool) (text : Json) (verdict : Option Analysis.Verdict) :
    (isTorn text = true ∧ (quiet = true → verdict = none)) ∨
    ∃ status, status ≠ .invalidInput ∧ concluded quiet text (.ok verdict) = .ok status := by
  have valid : ∀ verdict, Program.statusOf verdict ≠ .invalidInput := by
    rintro (_ | _ | _) <;> nofun
  by_cases torn : isTorn text = true
  · cases verdict with
    | none => exact Or.inl ⟨torn, fun _ => rfl⟩
    | some verdict =>
        cases quiet with
        | true => exact Or.inr ⟨_, valid verdict, rfl⟩
        | false => exact Or.inl ⟨torn, nofun⟩
  · right
    cases verdict with
    | none => exact ⟨.noVerdict, nofun, if_neg torn⟩
    | some verdict =>
        refine ⟨_, valid verdict, ?_⟩
        cases quiet with
        | true => rfl
        | false => exact if_neg torn

theorem conclusion_of_tree [Limits] {oracle : Oracle} {request : CheckRequest}
    {configuration : Configuration} {disk : Disk} {text : String}
    (content : disk.readText (.ofText request.tree) = .ok text) :
    conclusion oracle request configuration disk =
      match (Expr.ofText text 1).1 with
      | .ok tree => judgement oracle configuration request.quiet tree
      | .error .wrongKind => .error .treeWrongKind
      | .error (.tooManyDigits count) => .error (.treeNumber (.tooManyDigits count))
      | .error _ => .ok .invalidInput := by
  rw [conclusion, treeOn, content]
  dsimp only
  cases (Expr.ofText text 1).1 with
  | ok tree => rfl
  | error fault => cases fault <;> rfl

section

variable [Limits] {surroundings : Surroundings} {request : CheckRequest} {disk : Disk}
  (offered : ∀ level, request.logLevel = some level → level ∈ levelChoices) (oracle : Oracle)
  (time : String)
include offered

theorem Refused.answers (refused : Refused surroundings request disk) :
    Program.Answers (Untouched disk) (Program.check oracle time surroundings request)
      (.ok .invalidInput) := by
  cases refused with
  | timeout found given negative => exact Program.check_refused oracle time found given negative
  | @unreadable _ _ fault prepared failed named =>
      have answers := Program.check_prepared oracle time prepared offered
      rw [conclusion, treeOn, failed] at answers
      cases fault with
      | nullCharacter => exact absurd rfl named
      | _ => exact answers
  | @noTree _ _ _ fault prepared content failed reported =>
      have answers := Program.check_prepared oracle time prepared offered
      rw [conclusion_of_tree content, failed] at answers
      cases fault with
      | malformed | format | tooDeep => exact answers
      | tooManyDigits | wrongKind => exact absurd reported id

theorem Candidate.answers {configuration : Configuration} {tree : Expr}
    (candidate : Candidate surroundings request disk configuration tree) :
    Program.Answers (Untouched disk) (Program.check oracle time surroundings request)
      (judgement oracle configuration request.quiet tree) := by
  obtain ⟨ready, text, prepared, content, decoded, -⟩ := candidate
  have answers := Program.check_prepared oracle time prepared offered
  rw [conclusion_of_tree content, decoded] at answers
  exact answers

theorem Unhandled.answers {fault : Crash} (unhandled : Unhandled surroundings request disk fault) :
    Program.Answers (Untouched disk) (Program.check oracle time surroundings request)
      (.error fault) := by
  cases unhandled with
  | settings failed => exact Program.check_unloaded oracle time failed
  | adjusting timed found failed => exact Program.check_unadjusted oracle time timed found failed
  | logPlace settled failed => exact Program.check_unplaced oracle time settled failed
  | logFiles settled placed failed => exact Program.check_unlogged oracle time settled placed failed
  | treeName prepared failed | treeNotText prepared failed =>
      have answers := Program.check_prepared oracle time prepared offered
      rw [conclusion, treeOn, failed] at answers
      exact answers
  | treeDigits prepared content failed | treeWrongKind prepared content failed =>
      have answers := Program.check_prepared oracle time prepared offered
      rw [conclusion_of_tree content, failed] at answers
      exact answers
  | timeout candidate failed =>
      have answers := candidate.answers offered oracle time
      obtain ⟨_, _, _, _, _, boolean⟩ := candidate
      rw [judgement, if_pos boolean, Configuration.options_of_unusable failed] at answers
      exact answers
  | negative candidate given negative =>
      have answers := candidate.answers offered oracle time
      obtain ⟨_, _, _, _, _, boolean⟩ := candidate
      rw [judgement, if_pos boolean, Configuration.options_of_negative given negative] at answers
      exact answers
  | @analysis _ tree _ failure candidate given nonneg provokes failed =>
      have answers := candidate.answers offered oracle time
      obtain ⟨_, _, _, _, _, boolean⟩ := candidate
      obtain ⟨options, built⟩ := Configuration.options_of_nonneg given nonneg
      have outcome : (Analysis.analyze oracle options tree).outcome = .error failure := by
        refine Analysis.analyze_outcome_eq_error.mpr ⟨boolean, ?_, failed⟩
        rcases provokes.cases with rfl | rfl | rfl <;> nofun
      rw [judgement_of_options boolean built, outcome] at answers
      exact answers
  | tornOther prepared content decoded other torn =>
      have answers := Program.check_prepared oracle time prepared offered
      rw [conclusion_of_tree content, decoded] at answers
      dsimp only at answers
      rw [judgement, other, shown, torn] at answers
      exact answers
  | @torn _ tree _ candidate given nonneg answered loud torn =>
      have answers := candidate.answers offered oracle time
      obtain ⟨_, _, _, _, _, boolean⟩ := candidate
      obtain ⟨options, built⟩ := Configuration.options_of_nonneg given nonneg
      rw [judgement_of_options boolean built] at answers
      cases outcome : (Analysis.analyze oracle options tree).outcome with
      | error failure =>
          obtain ⟨-, shallow, failed⟩ := Analysis.analyze_outcome_eq_error.mp outcome
          exact absurd (answered failure failed) shallow
      | ok verdict =>
          have asks := Analysis.analyze_outcome_isSome boolean outcome
          rw [outcome, concluded_torn torn] at answers
          · exact answers
          · intro quiet
            exact Option.not_isSome_iff_eq_none.mp fun given => loud quiet (asks.mp given)

theorem Candidate.ends {configuration : Configuration} {tree : Expr}
    (candidate : Candidate surroundings request disk configuration tree) :
    (∃ fault, Unhandled surroundings request disk fault) ∨
    ∃ status, status ≠ .invalidInput ∧
      Program.Answers (Untouched disk) (Program.check oracle time surroundings request)
        (.ok status) := by
  cases given : configuration.timeout with
  | error fault => exact Or.inl ⟨_, .timeout candidate given⟩
  | ok limit =>
      by_cases negative : limit < 0
      · exact Or.inl ⟨_, .negative candidate given negative⟩
      have nonneg := not_lt.mp negative
      obtain ⟨options, built⟩ := Configuration.options_of_nonneg given nonneg
      have answers := candidate.answers offered oracle time
      have ⟨_, _, _, _, _, boolean⟩ := candidate
      rw [judgement_of_options boolean built] at answers
      cases outcome : (Analysis.analyze oracle options tree).outcome with
      | error failure =>
          obtain ⟨-, -, failed⟩ := Analysis.analyze_outcome_eq_error.mp outcome
          have provokes := Analysis.provokes_of_analyze outcome
          exact Or.inl ⟨_, .analysis candidate given nonneg provokes failed⟩
      | ok verdict =>
          rw [outcome] at answers
          rcases concluded_ends request.quiet tree.text verdict with ⟨torn, loud⟩ |
            ⟨status, valid, ended⟩
          · have answered : ∀ failure, (formulate tree).answer ⟨.start, []⟩ = .error failure →
                failure = .tooDeep := by
              intro failure failed
              by_contra shallow
              have ended : (Analysis.analyze oracle options tree).outcome = .error failure :=
                Analysis.analyze_outcome_eq_error.mpr ⟨boolean, shallow, failed⟩
              rw [outcome] at ended
              cases ended
            refine Or.inl ⟨_, .torn candidate given nonneg answered ?_ torn⟩
            intro quiet asks
            have given := (Analysis.analyze_outcome_isSome boolean outcome).mpr asks
            rw [loud quiet] at given
            cases given
          · exact Or.inr ⟨status, valid, ended ▸ answers⟩

theorem Prepared.ends {configuration : Configuration} {ready : Disk}
    (prepared : Prepared surroundings request disk configuration ready) :
    Refused surroundings request disk ∨ (∃ fault, Unhandled surroundings request disk fault) ∨
    ∃ status, status ≠ .invalidInput ∧
      Program.Answers (Untouched disk) (Program.check oracle time surroundings request)
        (.ok status) := by
  cases content : ready.readText (.ofText request.tree) with
  | error fault =>
      cases fault with
      | file fault =>
          by_cases named : fault = .nullCharacter
          · subst named
            exact Or.inr (Or.inl ⟨_, .treeName prepared content⟩)
          · exact Or.inl (.unreadable prepared content named)
      | notText => exact Or.inr (Or.inl ⟨_, .treeNotText prepared content⟩)
  | ok text =>
      cases decoded : (Expr.ofText text 1).1 with
      | error fault =>
          cases fault with
          | malformed | format | tooDeep => exact Or.inl (.noTree prepared content decoded trivial)
          | tooManyDigits count => exact Or.inr (Or.inl ⟨_, .treeDigits prepared content decoded⟩)
          | wrongKind => exact Or.inr (Or.inl ⟨_, .treeWrongKind prepared content decoded⟩)
      | ok tree =>
          cases boolean : isCandidate tree with
          | true =>
              have candidate : Candidate surroundings request disk configuration tree :=
                ⟨ready, text, prepared, content, decoded, boolean⟩
              exact Or.inr (candidate.ends offered oracle time)
          | false =>
              have answers := Program.check_prepared oracle time prepared offered
              rw [conclusion_of_tree content, decoded] at answers
              dsimp only at answers
              rw [judgement, boolean, if_neg Bool.false_ne_true, shown] at answers
              cases torn : isTorn tree.text with
              | true => exact Or.inr (Or.inl ⟨_, .tornOther prepared content decoded boolean torn⟩)
              | false =>
                  rw [torn] at answers
                  exact Or.inr (Or.inr ⟨.noVerdict, nofun, answers⟩)

end

end Command

end CondSat
