/-
Running the program.

The program finds files, environment variables, the time, and numbers that nobody else has; it
leaves lines of output, an exit status and, if corrections are logged to a file, the text of that
file.

* `CommandLine.Session` — the state of a run: the stores of the service, and what has been printed;
* `CommandLine.Failure` — why a run ends early;
* `CommandLine.openStores` — fills the stores with a seed;
* `CommandLine.eval`, `CommandLine.generate`, `CommandLine.replay`, `CommandLine.listRules` — the
  commands with most to do;
* `CommandLine.carryOut` — any command;
* `CommandLine.run` — the whole program.
-/
import Estimating.CommandLine.Arguments
import Estimating.CommandLine.Display
import Estimating.CommandLine.Replay
import Estimating.Expression.Compiled
import Estimating.Service.Seed

set_option autoImplicit false

namespace Estimating.CommandLine

/-! ### Runs -/

/-- The name and version of the program. -/
def programVersion : String := "takeoff 0.1.3"

/-- How the program is used. -/
def usage : String :=
  "Usage: takeoff [-c PATH] [-s PATH] [--adjustment-log PATH] [-o table|json] COMMAND\n" ++
    "Commands: eval, generate, replay, rules, config"

/-- What a run has that no other run has. -/
structure Fresh where
  now : Timestamp
  /-- The identifiers of log entries, in the order in which they are taken. -/
  entry : Nat → EntryId
  /-- The name of a quote that is given none. -/
  quote : QuoteId

/-- The state of a run. -/
structure Session where
  world : World
  /-- How many log entries have been given identifiers. -/
  entries : Nat
  /-- The lines printed so far, the last one first. -/
  printed : List String

/-- Why a run ends early. -/
inductive Failure
  | message (text : String)
  | /-- A number is too large. -/
    overflow
  | /-- A setting stands at a place of a list that cannot be. -/
    outOfReach
deriving DecidableEq, Repr

/-- A part of a run. -/
abbrev Step (α : Type) := ExceptT Failure (StateM Session) α

/-- Prints a line. -/
def print (line : String) : Step Unit :=
  modify fun s => { s with printed := line :: s.printed }

/-- Prints a value as JSON. -/
def writeJson (j : Json) : Step Unit := print j.pretty

/-- An error of the service as the reason why a run ends. -/
def Failure.ofService : ServiceError → Failure
  | .overflow => .overflow
  | e => .message e.message

/-- An operation of the service. -/
def perform {α : Type} (action : Action α) : Step α := do
  let s ← get
  let (result, world) := action.run s.world
  set { s with world }
  match result with
  | .ok a => return a
  | .error e => throw (.ofService e)

/-- The identifier of a new log entry. -/
def takeEntry (fresh : Fresh) : Step EntryId :=
  modifyGet fun s => (fresh.entry s.entries, { s with entries := s.entries + 1 })

/-- A value without which the run ends. -/
def need {α : Type} (a : Option α) (message : String) : Step α :=
  match a with
  | some a => return a
  | none => throw (.message message)

/-! ### Stores -/

/-- The text of a file. -/
def readFile (s : Surroundings) (kind path : String) : Step String :=
  need (s.file? path) ("reading " ++ kind ++ " file " ++ path)

/-- Fills the stores with the seed; tells whose it is. -/
def openStores (s : Surroundings) (fresh : Fresh) (args : Arguments) (config : Config) :
    Step TenantId := do
  let path ← need args.seed "a seed file is required (--seed or TAKEOFF_SEED)"
  let text ← readFile s "seed" path
  let seed ← need (Seed.ofText? text) ServiceError.invalidSeed.message
  let log := match args.log with
    | some path => Log.lines (s.file? path)
    | none => Log.memory []
  let stores := { Stores.empty with catalog := seed.populate ∅, log }
  modify fun session => { session with world := .of stores }
  let _ ← perform (seed.install config fresh.now)
  return seed.tenant

/-! ### Commands -/

/-- Evaluates an expression. -/
def eval (format : Format) (limits : Expression.Limits) (expression : String)
    (values : List (String × Binding)) : Step Unit := do
  match Expression.evalText expression (Table.ofList values) limits with
  | .ok value =>
    match format with
    | .table => print value.text
    | .json =>
      writeJson (.object (
        Json.member "expression" (.string expression) ++ Json.member "result" value.toJson))
  | .error e =>
    if format = .json then
      writeJson (.object (
        Json.member "error" (.string e.kind.name) ++
        Json.member "expression" (.string expression) ++
        Json.member "message" (.string e.message)))
    throw (.message (e.kind.name ++ ": " ++ e.message))

/-- Generates a quote. -/
def generate (format : Format) (config : Config) (tenant : TenantId) (quote : QuoteId)
    (requirements : Requirements) (profile : String) : Step Unit := do
  let report ← perform (Service.issueQuote config tenant quote requirements profile)
  match format with
  | .json => writeJson report.toJson
  | .table =>
    print (Display.success
      ("Quote " ++ quote.short ++ " generated from rule '" ++ report.key.text ++ "'"))
    (Display.report report).forM print

/-- Makes an edit to a quote; there is no result if the quote has no such line. -/
def makeEdit (fresh : Fresh) (config : Config) (tenant : TenantId) (quote : QuoteId)
    (report : Report) (edit : Replay.Edit) : Step (Option Replay.Result) := do
  match report.items.find? fun i => i.kind == edit.kind && i.item == edit.item with
  | none =>
    print (Display.warning
      ("quote " ++ quote ++ ": no " ++ edit.kind.name ++ " item '" ++ edit.item ++
        "' was generated, edit skipped"))
    return none
  | some line =>
    let request : Correction :=
      { Correction.ofQuantities quote edit.kind edit.item line.qty edit.newQty with
        reason := edit.reason }
    let outcome ← perform
      (Service.correct config tenant request (← takeEntry fresh) fresh.now)
    return some ⟨quote, edit.item, line.qty, edit.newQty, outcome⟩

/-- Generates a quote and makes its edits. -/
def replayQuote (fresh : Fresh) (config : Config) (tenant : TenantId) (profile : String)
    (quote : Replay.Quote) : Step (List Replay.Result) := do
  let report ← perform (Service.issueQuote config tenant quote.id quote.requirements
    (quote.profile.getD profile))
  let results ← quote.edits.mapM (makeEdit fresh config tenant quote.id report)
  return results.filterMap id

/-- Generates quotes, makes their edits and shows what has been learned. -/
def replay (format : Format) (fresh : Fresh) (config : Config) (tenant : TenantId)
    (profile : String) (quotes : List Replay.Quote) : Step Unit := do
  let results := (← quotes.mapM (replayQuote fresh config tenant profile)).flatten
  let insights ← perform (Service.insights config tenant)
  match format with
  | .json =>
    writeJson (.object (
      Json.member "results" (Json.ofList Replay.Result.toJson results) ++
      Json.member "insights" (Json.ofList Insight.toJson insights)))
  | .table =>
    for r in results do
      if let some error := r.failure? then
        print (Display.warning (r.quote ++ " '" ++ r.item ++ "': " ++ error))
    let logged := results.countP Replay.Result.isLogged
    print (Display.success
      ("Replayed " ++ toString results.length ++ " edits (" ++ toString logged ++ " logged, " ++
        toString (results.length - logged) ++ " below threshold)"))
    print (Display.insights insights)

/-- Lists the rules. -/
def listRules (format : Format) (tenant : TenantId) : Step Unit := do
  let rules ← perform (Service.listRules tenant)
  match format with
  | .json => writeJson (Json.ofList Rule.toJson rules)
  | .table => print (Display.rules rules)

/-- Carries out a command. -/
def carryOut (s : Surroundings) (fresh : Fresh) (args : Arguments) (config : Config) :
    Step Unit := do
  match args.command with
  | .eval expression values => eval args.format config.limits expression values
  | .config => writeJson config.toJson
  | .generate requirements profile quote =>
    let tenant ← openStores s fresh args config
    generate args.format config tenant (quote.getD fresh.quote) requirements profile
  | .replay file profile =>
    let text ← readFile s "replay" file
    let quotes ← need (Replay.ofText? text) ("parsing replay file " ++ file)
    let tenant ← openStores s fresh args config
    replay args.format fresh config tenant profile quotes
  | .rules =>
    let tenant ← openStores s fresh args config
    listRules args.format tenant

/-! ### The program -/

/-- What a run leaves. -/
structure Result where
  /-- The exit status: zero, one after an error, two for wrong arguments, 101 if a number or the
  place of a setting is beyond all bounds. -/
  status : UInt32
  output : String
  error : String
  /-- A file that has been written, with its text. -/
  file : Option (String × String)
deriving Repr

/-- Lines as text. -/
def unlines (lines : List String) : String := String.join (lines.map (· ++ "\n"))

/-- The file that corrections have been logged to. -/
def loggedFile (args : Arguments) (world : World) : Option (String × String) :=
  match args.log, world.stores.log with
  | some path, .lines (some text) => some (path, text)
  | _, _ => none

/-- The result of a run. -/
def finish (args : Arguments) (outcome : Except Failure Unit) (s : Session) : Result :=
  let output := unlines s.printed.reverse
  let file := loggedFile args s.world
  match outcome with
  | .ok () => ⟨0, output, "", file⟩
  | .error (.message text) => ⟨1, output, "Error: " ++ text ++ "\n", file⟩
  | .error .overflow => ⟨101, output, "Error: a number is too large\n", file⟩
  | .error .outOfReach => ⟨101, output, "Error: a setting is out of reach\n", file⟩

/-- Carries out a command under the configuration in force. -/
def runCommand (s : Surroundings) (fresh : Fresh) (args : Arguments) : Result :=
  let session : Session := ⟨.of .empty, 0, []⟩
  match Config.load s args.config with
  | .error .outOfReach => finish args (.error .outOfReach) session
  | .error fault => finish args (.error (.message (ServiceError.config fault).message)) session
  | .ok config =>
    let (outcome, session) := (carryOut s fresh args config).run session
    finish args outcome session

/-- The whole program. -/
def run (s : Surroundings) (fresh : Fresh) (args : List String) : Result :=
  match Arguments.read s args with
  | .ok args => runCommand s fresh args
  | .error .help => ⟨0, usage ++ "\n", "", none⟩
  | .error .version => ⟨0, programVersion ++ "\n", "", none⟩
  | .error .usage => ⟨2, "", usage ++ "\n", none⟩

end Estimating.CommandLine
