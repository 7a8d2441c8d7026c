/-
The configuration in force.

Settings come in layers: standard values, then a file, then environment variables.  A later layer
wins, setting by setting.

* `Surroundings` — the files and environment variables that a program finds;
* `Setting.fileLayer` — the settings of a file; a file that is not there has none;
* `Setting.variableLayer` — the settings of environment variables.  `TAKEOFF_TUNING__MIN_SAMPLES` is
  the setting `min_samples` of the section `tuning`;
* `Config.load` — the configuration in force, if it is valid.
-/
import Estimating.Json.Reader
import Estimating.Service.Config
import Estimating.Settings.Overlay

set_option autoImplicit false

namespace Estimating

/-- What a program finds. -/
structure Surroundings where
  /-- Files by their paths. -/
  files : List (String × String)
  /-- Environment variables. -/
  environment : List (String × String)
deriving Repr

namespace Surroundings

/-- The text of a file. -/
def file? (s : Surroundings) (path : String) : Option String := s.files.lookup path

/-- The value of an environment variable. -/
def setting? (s : Surroundings) (name : String) : Option String := s.environment.lookup name

end Surroundings

namespace Setting

/-! ### Files -/

/-- The ending of files with settings. -/
def fileEnding : String := ".json"

/-- The name of a file: what stands behind the last slash of its path. -/
def fileName (path : String) : String :=
  String.ofList (path.toList.reverse.takeWhile (· != '/')).reverse

/-- Whether a file has the ending of files with settings.  A name that is nothing but the ending has
none. -/
def hasFileEnding (path : String) : Bool :=
  (fileName path).endsWith fileEnding && fileName path != fileEnding

/-- The text of a file with settings.  The ending may be left out of the path, and files with other
endings are passed over. -/
def findFile? (s : Surroundings) (path : String) : Option String :=
  match s.file? path with
  | some text => if hasFileEnding path then some text else none
  | none => s.file? (path ++ fileEnding)

/-- The settings of a file; `none` if they cannot be read. -/
def fileLayer (s : Surroundings) (path : Option String) : Option (List (String × Json)) :=
  match path.bind (findFile? s) with
  | none => some []
  | some text =>
    match Json.parsePlain text with
    | some (.object ms) => some (members (Json.dropRepeats (.object ms)))
    | _ => none

/-! ### Variables -/

/-- The beginning of the names of variables with settings, in small letters. -/
def variableMark : List Char := "takeoff_".toList

/-- The path that the name of a variable writes, if it is a variable with a setting.  Two
underscores stand for a point. -/
def variablePath? (name : String) : Option String :=
  let cs := lower name.toList
  if variableMark.isPrefixOf cs then
    some (".".intercalate ((String.ofList (cs.drop variableMark.length)).splitOn "__"))
  else none

/-- The name of the variable of a setting. -/
def variableName (chapter name : String) : String :=
  String.ofList ((String.toList ("takeoff_" ++ chapter ++ "__" ++ name)).map Char.toUpper)

/-- The names of all variables with settings. -/
def variableNames : List String :=
  (members Config.standard.toJson).flatMap fun chapter =>
    (members chapter.2).map fun m => variableName chapter.1 m.1

/-- The settings of variables. -/
def variableLayer (environment : List (String × String)) : List (String × Json) :=
  environment.filterMap fun v => (variablePath? v.1).map fun path => (path, ofText v.2)

/-! ### Layers -/

/-- All settings: the standard ones, those of a file and those of variables. -/
def layers (s : Surroundings) (path : Option String) : Except ConfigFault Json :=
  match fileLayer s path with
  | none => .error .unreadable
  | some file =>
    let all := overlayAll Config.standard.toJson file
    match all.bind fun j => overlayAll j (variableLayer s.environment) with
    | none => .error .outOfReach
    | some j => .ok j

end Setting

/-- The configuration in force, if it can be read and is valid. -/
def Config.load (s : Surroundings) (path : Option String) : Except ConfigFault Config := do
  match Config.read Setting.reading (← Setting.layers s path) with
  | none => .error .unreadable
  | some config =>
    match config.fault? with
    | some fault => .error fault
    | none => .ok config

end Estimating
