import CondSat.Command.Arguments

/-! # The program's command line

The program has one command, `check`.  Both levels of the command line are
grammars; what they accept is gathered in `CheckRequest`. -/
set_option autoImplicit false
namespace CondSat.Command

def versionText : String := "agentzero 0.3.0\n"

def mainUsage : String := "usage: agentzero [-h] [--version] \x7bcheck\x7d ...\n"

def mainHelp : String :=
  mainUsage ++ "
Decide whether boolean C# expressions can ever be true.

positional arguments:
  \x7bcheck\x7d
    check     Check a JSON expression tree

options:
  -h, --help  show this help message and exit
  --version   show program's version number and exit

Examples:
  # Check one expression tree
  agentzero check condition.json

  # Give up after two seconds and keep logs next to the input
  agentzero check condition.json --timeout-ms 2000 --log-dir ./logs

Exit status: 0 satisfiable, 1 unsatisfiable, 2 inconclusive or not
analyzable, 3 invalid input.
        
"

def checkUsage : String :=
  "usage: agentzero check [-h] [--timeout-ms TIMEOUT_MS] [--config CONFIG]
                       [--log-dir LOG_DIR]
                       [--log-level \x7bDEBUG,INFO,WARNING,ERROR,CRITICAL\x7d] [-q]
                       tree
"

def checkHelp : String :=
  checkUsage ++ "
positional arguments:
  tree                  Path to the JSON expression tree

options:
  -h, --help            show this help message and exit
  --timeout-ms TIMEOUT_MS
                        Solver timeout in milliseconds, 0 for none (default:
                        from options.json)
  --config CONFIG       Path to an options.json file (default:
                        ~/.agentzero/options.json)
  --log-dir LOG_DIR     Directory for agentzero.log and smt2_problems.smt2
  --log-level \x7bDEBUG,INFO,WARNING,ERROR,CRITICAL\x7d
                        Level of the AgentZero loggers
  -q, --quiet           Print only the verdict, not the model
"

def levelChoices : List String := ["DEBUG", "INFO", "WARNING", "ERROR", "CRITICAL"]

/-- The upper level: options of the program, then a command. -/
def mainGrammar : Grammar where
  program := "agentzero"
  usage := mainUsage
  help := mainHelp
  version := versionText
  options := [⟨["-h", "--help"], .help⟩, ⟨["--version"], .version⟩]
  operandName := "command"
  operand := .command ["check"]

/-- The lower level: the options and the operand of `check`. -/
def checkGrammar : Grammar where
  program := "agentzero check"
  usage := checkUsage
  help := checkHelp
  version := versionText
  options :=
    [⟨["-h", "--help"], .help⟩, ⟨["--timeout-ms"], .wholeNumber⟩, ⟨["--config"], .word⟩,
     ⟨["--log-dir"], .word⟩, ⟨["--log-level"], .choice levelChoices⟩, ⟨["-q", "--quiet"], .toggle⟩]
  operandName := "tree"
  operand := .single

structure CheckRequest where
  tree : String
  timeout : Option Int := none
  settings : Option String := none
  logDirectory : Option String := none
  logLevel : Option String := none
  quiet : Bool := false
  deriving DecidableEq, Repr

def CheckRequest.ofParsed (parsed : Parsed) : CheckRequest where
  tree := (parsed.operand.bind List.head?).getD ""
  timeout := (parsed.value? "--timeout-ms").bind fun text => (Text.integer? text).toOption
  settings := parsed.value? "--config"
  logDirectory := parsed.value? "--log-dir"
  logLevel := parsed.value? "--log-level"
  quiet := (parsed.value? "-q/--quiet").isSome

def readArguments (words : List String) : Except Stop CheckRequest := do
  let outer ← mainGrammar.parse words
  let inner ← checkGrammar.parse ((outer.operand.getD []).drop 1)
  let unwanted := outer.unwanted ++ inner.unwanted
  if unwanted.isEmpty then return .ofParsed inner
  else mainGrammar.refuse ("unrecognized arguments: " ++ " ".intercalate unwanted)

end CondSat.Command
