/-
Paths to settings.

A path is a name, and then names with points in front of them and places in brackets: the path
`pricing.default_currency` leads to the same setting as `pricing[1]`.  Names are read in small
letters.  A place below zero is counted from the end of a list.

* `Setting.Step`, `Setting.Path` — the steps of a path;
* `Setting.readSteps?` — reads the steps behind the first name;
* `Setting.readPath` — reads a path; any other text is a single name.
-/
import Estimating.Settings.Value

set_option autoImplicit false

namespace Estimating.Setting

/-- A step on the way to a setting. -/
inductive Step
  | /-- To the member of a name. -/
    name (s : String)
  | /-- To the item at a place. -/
    place (i : Int)
deriving DecidableEq, Repr

/-- The steps to a setting. -/
abbrev Path := List Step

/-- A character of a name on a path. -/
def isPathChar (c : Char) : Bool := c.isAlphanum || c == ' ' || c == '_' || c == '-'

/-- A name on a path. -/
def Step.ofName (cs : List Char) : Step := .name (String.ofList (lower cs))

/-- Reads a place: an integer of 64 bits with blanks around it and no sign but a minus. -/
def readPlace? (cs : List Char) : Option Int :=
  let isBlank := fun c => c == ' ' || c == '\t'
  let digits := (((cs.dropWhile isBlank).reverse).dropWhile isBlank).reverse
  if digits.head? = some '+' then none else readInt64? digits

/-- Reads the steps behind the first name. -/
def readSteps? (cs : List Char) : Option Path :=
  match cs with
  | [] => some []
  | '.' :: rest =>
    let name := rest.takeWhile isPathChar
    if name = [] then none
    else (readSteps? (rest.drop name.length)).map (Step.ofName name :: ·)
  | '[' :: rest =>
    let inside := rest.takeWhile (· != ']')
    match rest.drop inside.length, readPlace? inside with
    | ']' :: _, some i => (readSteps? (rest.drop (inside.length + 1))).map (.place i :: ·)
    | _, _ => none
  | _ => none
termination_by cs.length
decreasing_by
  all_goals simp only [List.length_cons, List.length_drop]; omega

/-- Reads a path; a text that is no path is a single name. -/
def readPath (text : String) : Path :=
  let cs := text.toList
  let name := cs.takeWhile isPathChar
  match readSteps? (cs.drop name.length) with
  | some steps => if name = [] then [.ofName cs] else .ofName name :: steps
  | none => [.ofName cs]

end Estimating.Setting
