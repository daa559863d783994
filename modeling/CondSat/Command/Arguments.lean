import CondSat.Text.Numeral

/-! # Command lines

A grammar has options and one operand.  A command line is read in two passes:
first every word is classed as an option, an operand or the mark after which
everything is an operand; then words are consumed from left to right.  Options
may be shortened as long as they stay unambiguous, may carry their value after
an equals sign, and single letters may be written together.  Words nobody wants
are collected, and it is for the caller to refuse them. -/
set_option autoImplicit false
namespace CondSat.Command

inductive OptionKind where
  | help
  | version
  | toggle
  | word
  | wholeNumber
  | choice (values : List String)
  deriving DecidableEq, Repr

def OptionKind.takesValue : OptionKind → Bool
  | help | version | toggle => false
  | word | wholeNumber | choice _ => true

/-- An option with all its spellings; the last one names it. -/
structure OptionSpec where
  spellings : List String
  kind : OptionKind
  deriving DecidableEq, Repr

def OptionSpec.title (spec : OptionSpec) : String := "/".intercalate spec.spellings

inductive OperandKind where
  /-- One word. -/
  | single
  /-- One of the given commands, and all words after it. -/
  | command (choices : List String)
  deriving DecidableEq, Repr

structure Grammar where
  /-- The words that call the program, for messages. -/
  program : String
  usage : String
  /-- What the help option shows. -/
  help : String
  /-- What the version option shows. -/
  version : String
  options : List OptionSpec
  operandName : String
  operand : OperandKind
  deriving DecidableEq, Repr

inductive Stop where
  /-- A text was asked for. -/
  | shown (text : String)
  /-- The command line is wrong. -/
  | misuse (usage program message : String)
  deriving DecidableEq, Repr

inductive Reading where
  | operand
  /-- The mark after which all words are operands. -/
  | mark
  /-- An option as it is spelled in full, and the value it carries. -/
  | option (spec : OptionSpec) (spelling : String) (value : Option String)
  | unknownOption
  deriving DecidableEq, Repr

def Reading.isOption : Reading → Bool
  | option .. | unknownOption => true
  | _ => false

abbrev Item := String × Reading

def choiceList (values : List String) : String := ", ".intercalate (values.map Text.quoted)

namespace Grammar

def refuse {α : Type} (grammar : Grammar) (message : String) : Except Stop α :=
  .error (.misuse grammar.usage grammar.program message)

def refuseOption {α : Type} (grammar : Grammar) (spec : OptionSpec) (message : String) :
    Except Stop α :=
  grammar.refuse ("argument " ++ spec.title ++ ": " ++ message)

def spellings (grammar : Grammar) : List (String × OptionSpec) :=
  grammar.options.flatMap fun spec => spec.spellings.map (·, spec)

def cut (word : String) : String × Option String :=
  let chars := word.toList
  match chars.dropWhile (· != '=') with
  | [] => (word, none)
  | _ :: value => (String.ofList (chars.takeWhile (· != '=')), some (String.ofList value))

/-- The options a word may be short for. -/
def candidates (grammar : Grammar) (word : String) : List Reading :=
  if word.startsWith "--" then
    let (start, value) := cut word
    (grammar.spellings.filter fun entry => entry.1.startsWith start).map fun entry =>
      .option entry.2 entry.1 value
  else
    let letter := String.ofList (word.toList.take 2)
    let value := String.ofList (word.toList.drop 2)
    grammar.spellings.filterMap fun entry =>
      if entry.1 = letter then some (.option entry.2 entry.1 (some value))
      else if entry.1.startsWith word then some (.option entry.2 entry.1 none)
      else none

def isNegativeNumber (word : String) : Bool :=
  match word.toList with
  | '-' :: rest =>
    let isDigit (c : Char) : Bool := (Text.digitValue? c).isSome
    let body := if rest.getLast? = some '\n' then rest.dropLast else rest
    match body.dropWhile isDigit with
    | [] => !body.isEmpty
    | '.' :: fraction => !fraction.isEmpty && fraction.all isDigit
    | _ => false
  | _ => false

def classify (grammar : Grammar) (word : String) : Except Stop Reading :=
  if !word.startsWith "-" then .ok .operand
  else
    match grammar.spellings.lookup word with
    | some spec => .ok (.option spec word none)
    | none =>
      if word = "-" then .ok .operand
      else
        let (start, value) := cut word
        match value, grammar.spellings.lookup start with
        | some value, some spec => .ok (.option spec start (some value))
        | _, _ =>
          match grammar.candidates word with
          | [reading] => .ok reading
          | [] =>
            .ok (if isNegativeNumber word || word.toList.contains ' ' then .operand
              else .unknownOption)
          | several =>
            let spelled := several.map fun
              | .option _ spelling _ => spelling
              | _ => ""
            grammar.refuse ("ambiguous option: " ++ word ++ " could match " ++
              ", ".intercalate spelled)

def classifyAll (grammar : Grammar) : List String → Except Stop (List Item)
  | [] => .ok []
  | "--" :: rest => .ok (("--", .mark) :: rest.map (·, .operand))
  | word :: rest => do
    let reading ← grammar.classify word
    let others ← grammar.classifyAll rest
    return (word, reading) :: others

/-- The words of the operand at the start of the items, and the items after it. -/
def operand? (grammar : Grammar) (items : List Item) : Option (List String × List Item) :=
  let marks := items.takeWhile (·.2 == .mark)
  match items.dropWhile (·.2 == .mark) with
  | (word, .operand) :: rest =>
    match grammar.operand with
    | .command _ => some ((marks ++ (word, .operand) :: rest).map (·.1), [])
    | .single =>
      let words := (marks ++ (word, .operand) :: rest.takeWhile (·.2 == .mark)).map (·.1)
      some (words.erase "--", rest.dropWhile (·.2 == .mark))
  | _ => none

end Grammar

structure Parsed where
  /-- Option titles with their values, the latest last. -/
  values : List (String × String) := []
  operand : Option (List String) := none
  unwanted : List String := []
  deriving DecidableEq, Repr, Inhabited

namespace Grammar

def apply (grammar : Grammar) (parsed : Parsed) (spec : OptionSpec) (value : String) :
    Except Stop Parsed :=
  let set : Parsed := { parsed with values := parsed.values ++ [(spec.title, value)] }
  match spec.kind with
  | .help => .error (.shown grammar.help)
  | .version => .error (.shown grammar.version)
  | .toggle | .word => .ok set
  | .wholeNumber =>
    match Text.integer? value with
    | .ok _ => .ok set
    | .error _ => grammar.refuseOption spec ("invalid int value: " ++ Text.quoted value)
  | .choice choices =>
    if choices.contains value then .ok set
    else grammar.refuseOption spec ("invalid choice: " ++ Text.quoted value ++ " (choose from " ++
      choiceList choices ++ ")")

/-- The options a word of letters written together stands for, with the value
of the last one; `left` is what follows the first letter. -/
def together (grammar : Grammar) (spec : OptionSpec) (spelling : String) :
    List Char → Except Stop (List OptionSpec × Option (OptionSpec × String))
  | [] => .ok ([spec], none)
  | c :: left =>
    if spec.kind.takesValue then .ok ([], some (spec, String.ofList (c :: left)))
    else
      let next := String.ofList ['-', c]
      match spelling.startsWith "--", grammar.spellings.lookup next with
      | false, some other => do
        let (specs, last) ← grammar.together other next left
        return (spec :: specs, last)
      | _, _ => grammar.refuseOption spec
          ("ignored explicit argument " ++ Text.quoted (String.ofList (c :: left)))

def applyAll (grammar : Grammar) (parsed : Parsed) : List OptionSpec → Except Stop Parsed
  | [] => .ok parsed
  | spec :: rest => do grammar.applyAll (← grammar.apply parsed spec "") rest

def consumeOption (grammar : Grammar) (parsed : Parsed) (spec : OptionSpec) (spelling : String)
    (value : Option String) (rest : List Item) : Except Stop (Parsed × List Item) := do
  let following (before : List OptionSpec) (spec : OptionSpec) :
      Except Stop (Parsed × List Item) := do
    if !spec.kind.takesValue then return (← grammar.applyAll parsed (before ++ [spec]), rest)
    match rest with
    | (word, .operand) :: rest =>
      return (← grammar.apply (← grammar.applyAll parsed before) spec word, rest)
    | _ => grammar.refuseOption spec "expected one argument"
  match value with
  | none => following [] spec
  | some text =>
    if spec.kind.takesValue then return (← grammar.apply parsed spec text, rest)
    else if text.isEmpty then
      grammar.refuseOption spec ("ignored explicit argument " ++ Text.quoted text)
    else
      let (specs, last) ← grammar.together spec spelling text.toList
      match last with
      | some (spec, text) => return (← grammar.apply (← grammar.applyAll parsed specs) spec text, rest)
      | none => following specs.dropLast (specs.getLast?.getD spec)

/-- Consume the items from left to right; each step takes at least one item. -/
def consume (grammar : Grammar) (parsed : Parsed) : Nat → List Item → Except Stop Parsed
  | 0, items => .ok { parsed with unwanted := parsed.unwanted ++ items.map (·.1) }
  | steps + 1, items =>
    let taken := if parsed.operand.isNone then grammar.operand? items else none
    let skip : Parsed := { parsed with
      unwanted := parsed.unwanted ++ (items.takeWhile (!·.2.isOption)).map (·.1) }
    match items with
    | [] => .ok parsed
    | (_, .option spec spelling value) :: rest => do
      let (parsed, rest) ← grammar.consumeOption parsed spec spelling value rest
      grammar.consume parsed steps rest
    | (word, .unknownOption) :: rest =>
      grammar.consume { parsed with unwanted := parsed.unwanted ++ [word] } steps rest
    | _ =>
      match taken with
      | some (words, rest) => grammar.consume { parsed with operand := some words } steps rest
      | none => grammar.consume skip steps (items.dropWhile (!·.2.isOption))

/-- Read a command line up to words nobody wants. -/
def parse (grammar : Grammar) (words : List String) : Except Stop Parsed := do
  let items ← grammar.classifyAll words
  let parsed ← grammar.consume {} (items.length + 1) items
  match parsed.operand, grammar.operand with
  | none, _ => grammar.refuse ("the following arguments are required: " ++ grammar.operandName)
  | some (first :: _), .command choices =>
    if choices.contains first then .ok parsed
    else grammar.refuse ("argument " ++ grammar.operandName ++ ": invalid choice: " ++
      Text.quoted first ++ " (choose from " ++ choiceList choices ++ ")")
  | _, _ => .ok parsed

end Grammar

namespace Parsed

def value? (parsed : Parsed) (title : String) : Option String :=
  (parsed.values.reverse.find? (·.1 == title)).map (·.2)

end Parsed

end CondSat.Command
