/-
The arguments of the program.

Options of the program stand before the name of a command and options of the command after it.  An
option is `--name value`, `--name=value`, `-n value`, `-nvalue` or `-n=value`; a value that begins
with a minus sign needs one of the joined forms.  After `--` everything is an operand.

* `CommandLine.Arguments`, `CommandLine.Command` — what the program is asked to do;
* `CommandLine.Stop` — why it is asked for no command;
* `CommandLine.scan` — the options and operands of a list of arguments;
* `CommandLine.readVar?`, `CommandLine.readExtra?` — values of the form `name=value`;
* `CommandLine.Arguments.read` — the whole reader.
-/
import Estimating.Project.Requirements
import Estimating.Settings.Load

set_option autoImplicit false

namespace Estimating.CommandLine

/-! ### What can be asked for -/

/-- The form of the output. -/
inductive Format
  | table
  | json
deriving DecidableEq, Repr

/-- The format of a name. -/
def Format.ofName? : String → Option Format
  | "table" => some table
  | "json" => some json
  | _ => none

/-- A command. -/
inductive Command
  | /-- Evaluates an expression. -/
    eval (expression : String) (values : List (String × Binding))
  | /-- Generates a quote. -/
    generate (requirements : Requirements) (profile : String) (quote : Option QuoteId)
  | /-- Generates the quotes of a file and makes its edits to them. -/
    replay (file : String) (profile : String)
  | /-- Lists the rules. -/
    rules
  | /-- Shows the configuration in force. -/
    config

/-- What the program is asked to do. -/
structure Arguments where
  config : Option String
  seed : Option String
  /-- The file that corrections are logged to. -/
  log : Option String
  format : Format
  command : Command

/-- The file that a command works on. -/
def Command.file? : Command → Option String
  | replay file _ => some file
  | _ => none

/-- The files that may be read. -/
def Arguments.paths (a : Arguments) : List String :=
  (a.config.toList.flatMap fun path => [path, path ++ Setting.fileEnding]) ++ a.seed.toList ++
    a.log.toList ++ a.command.file?.toList

/-- Why the program is asked for no command. -/
inductive Stop
  | /-- The arguments are wrong. -/ usage
  | help
  | version
deriving DecidableEq, Repr

/-! ### Options -/

/-- An option. -/
structure OptionForm where
  name : String
  letter : Option Char := none
  /-- Which values it takes; without this it takes none. -/
  accepts : Option (String → Bool) := none
  repeatable : Bool := false

namespace OptionForm

/-- An option with any value. -/
def text (name : String) (letter : Option Char) : OptionForm :=
  { name, letter, accepts := some fun _ => true }

/-- An option without a value. -/
def flag (name : String) : OptionForm := { name }

/-- The option that asks for help. -/
def help : OptionForm := { name := "help", letter := some 'h' }

/-- The option that asks for the version. -/
def version : OptionForm := { name := "version", letter := some 'V' }

end OptionForm

/-- Options and operands, in the order in which they are given. -/
structure Scan where
  options : List (String × String)
  operands : List String

/-- Notes an option. -/
def Scan.give (s : Scan) (f : OptionForm) (value : String) : Except Stop Scan :=
  if f.name = "help" then .error .help
  else if f.name = "version" then .error .version
  else if !f.repeatable && s.options.any (·.1 == f.name) then .error .usage
  else
    match f.accepts with
    | none => .ok { s with options := s.options ++ [(f.name, "")] }
    | some accepts =>
      if accepts value then .ok { s with options := s.options ++ [(f.name, value)] }
      else .error .usage

/-- Notes an operand. -/
def Scan.operand (s : Scan) (limit : Nat) (arg : String) : Except Stop Scan :=
  if s.operands.length < limit then .ok { s with operands := s.operands ++ [arg] }
  else .error .usage

/-- A long option: its name and the value joined to it. -/
def splitLong (cs : List Char) : String × Option String :=
  let name := cs.takeWhile (· != '=')
  match cs.drop name.length with
  | _ :: value => (String.ofList name, some (String.ofList value))
  | [] => (String.ofList name, none)

/-- The value joined to the letter of an option. -/
def joinedValue : List Char → Option String
  | [] => none
  | '=' :: value => some (String.ofList value)
  | value => some (String.ofList value)

/-- An option as an argument writes it: its form and the value joined to it. -/
def readOption (forms : List OptionForm) (cs : List Char) :
    Except Stop (OptionForm × Option String) :=
  match cs with
  | '-' :: '-' :: long =>
    let (name, value) := splitLong long
    match forms.find? (·.name == name) with
    | some f => if f.accepts.isNone ∧ value.isSome then .error .usage else .ok (f, value)
    | none => .error .usage
  | '-' :: letter :: more =>
    match forms.find? (·.letter == some letter) with
    | some f => .ok (f, if f.accepts.isNone then none else joinedValue more)
    | none => .error .usage
  | _ => .error .usage

/-- Whether an argument is an option. -/
def isOption (arg : String) : Bool :=
  match arg.toList with
  | '-' :: _ :: _ => true
  | _ => false

/-- Reads arguments up to the first operand of which `stops` holds; that operand and what follows it
are left over.  Options have the given forms, and there are at most `limit` operands. -/
def scan (forms : List OptionForm) (limit : Nat) (stops : String → Bool) (s : Scan) :
    List String → Except Stop (Scan × List String)
  | [] => .ok (s, [])
  | arg :: rest =>
    if arg = "--" then do return (← rest.foldlM (fun s a => s.operand limit a) s, [])
    else if isOption arg then
      match readOption forms arg.toList with
      | .error e => .error e
      | .ok (f, joined) =>
        if f.accepts.isNone ∨ joined.isSome then
          match s.give f (joined.getD "") with
          | .error e => .error e
          | .ok s => scan forms limit stops s rest
        else
          match rest with
          | [] => .error .usage
          | value :: rest =>
            if isOption value then .error .usage
            else
              match s.give f value with
              | .error e => .error e
              | .ok s => scan forms limit stops s rest
    else if stops arg then .ok (s, arg :: rest)
    else
      match s.operand limit arg with
      | .error e => .error e
      | .ok s => scan forms limit stops s rest

/-- The value of an option. -/
def Scan.value? (s : Scan) (name : String) : Option String :=
  (s.options.find? (·.1 == name)).map Prod.snd

/-- The values of an option that may be repeated. -/
def Scan.values (s : Scan) (name : String) : List String :=
  (s.options.filter (·.1 == name)).map Prod.snd

/-- Whether an option is given. -/
def Scan.has (s : Scan) (name : String) : Bool := s.options.any (·.1 == name)

/-! ### Values -/

/-- A text of the form `name=value`, split at the first equals sign and trimmed. -/
def readAssignment? (text : String) : Option (String × String) :=
  match splitLong text.toList with
  | (name, some value) => some (Text.trim name, Text.trim value)
  | (_, none) => none

/-- A variable: a name and a truth value, a number or a tag. -/
def readVar? (text : String) : Option (String × Binding) :=
  match readAssignment? text with
  | none => none
  | some (name, value) =>
    if name = "" then none
    else if value = "true" then some (name, .ofBool true)
    else if value = "false" then some (name, .ofBool false)
    else
      match Decimal.ofText? value with
      | some x => some (name, .number x)
      | none => some (name, .tag value)

/-- A further number of a project: a name and a decimal. -/
def readExtra? (text : String) : Option (String × Decimal) :=
  (readAssignment? text).bind fun a => (Decimal.ofText? a.2).map fun x => (a.1, x)

/-! ### Commands -/

/-- The names of the commands. -/
def commandNames : List String := ["eval", "generate", "replay", "rules", "config"]

/-- The profile of quotes that name none. -/
def standardProfile : String := "default"

/-- The options of the program. -/
def programForms : List OptionForm :=
  [.text "config" (some 'c'), .text "seed" (some 's'), .text "adjustment-log" none,
    { name := "output", letter := some 'o', accepts := some fun v => (Format.ofName? v).isSome },
    .text "log-level" none, .flag "json-logs", .help, .version]

/-- The options of `eval`. -/
def evalForms : List OptionForm :=
  [{ name := "var", letter := some 'v', accepts := some fun v => (readVar? v).isSome
     repeatable := true }, .help]

/-- The options of `generate`. -/
def generateForms : List OptionForm :=
  [{ name := "room", accepts := some fun v => (Room.read v).isOk },
    { name := "finish", accepts := some fun v => (Finish.read v).isOk },
    { name := "area", accepts := some fun v => (Decimal.ofText? v).isSome },
    .flag "plumbing", .flag "electrical",
    { name := "extra", accepts := some fun v => (readExtra? v).isSome, repeatable := true },
    .text "profile" none, .text "quote" none, .help]

/-- The options of `replay`. -/
def replayForms : List OptionForm := [.text "profile" none, .help]

/-- Reads the options and operands of a command. -/
def scanCommand (forms : List OptionForm) (limit : Nat) (args : List String) : Except Stop Scan :=
  (scan forms limit (fun _ => false) ⟨[], []⟩ args).map Prod.fst

/-- A value that has to be given. -/
def demand {α : Type} : Option α → Except Stop α
  | some a => .ok a
  | none => .error .usage

/-- Reads the arguments of `eval`. -/
def readEval (args : List String) : Except Stop Command := do
  let s ← scanCommand evalForms 1 args
  return .eval (← demand s.operands.head?) ((s.values "var").filterMap readVar?)

/-- Reads the arguments of `generate`. -/
def readGenerate (args : List String) : Except Stop Command := do
  let s ← scanCommand generateForms 0 args
  let room ← demand ((s.value? "room").bind fun v => (Room.read v).toOption)
  let finish ← demand ((s.value? "finish").bind fun v => (Finish.read v).toOption)
  let area ← demand ((s.value? "area").bind Decimal.ofText?)
  let extra := Table.ofList ((s.values "extra").filterMap readExtra?)
  return .generate ⟨room, finish, area, s.has "plumbing", s.has "electrical", extra⟩
    ((s.value? "profile").getD standardProfile) (s.value? "quote")

/-- Reads the arguments of `replay`. -/
def readReplay (args : List String) : Except Stop Command := do
  let s ← scanCommand replayForms 1 args
  return .replay (← demand s.operands.head?) ((s.value? "profile").getD standardProfile)

/-- Reads the arguments of a command that takes none. -/
def readPlain (command : Command) (args : List String) : Except Stop Command := do
  let _ ← scanCommand [.help] 0 args
  return command

/-- Reads a command. -/
def Command.read : List String → Except Stop Command
  | "eval" :: args => readEval args
  | "generate" :: args => readGenerate args
  | "replay" :: args => readReplay args
  | "rules" :: args => readPlain .rules args
  | "config" :: args => readPlain .config args
  | ["help"] => .error .help
  | ["help", name] => if commandNames.contains name then .error .help else .error .usage
  | _ => .error .usage

/-- Whether an operand is the name of a command. -/
def isCommand (name : String) : Bool := name == "help" || commandNames.contains name

/-- Reads the arguments of the program.  Environment variables stand in for options that are not
given. -/
def Arguments.read (s : Surroundings) (args : List String) : Except Stop Arguments := do
  let (given, rest) ← scan programForms 0 isCommand ⟨[], []⟩ args
  let command ← Command.read rest
  let value (option standIn : String) := (given.value? option).or (s.setting? standIn)
  return {
    config := value "config" "TAKEOFF_CONFIG"
    seed := value "seed" "TAKEOFF_SEED"
    log := value "adjustment-log" "TAKEOFF_ADJUSTMENT_LOG"
    format := ((given.value? "output").bind Format.ofName?).getD .table
    command }

end Estimating.CommandLine
