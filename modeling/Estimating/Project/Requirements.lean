/-
What a customer asks for.

* `InputError` — why an input is refused;
* `Requirements` — a room, a finish, a floor area, and further numbers under names of their own;
* `Requirements.fault?` — what is wrong with requirements, if anything;
* `Requirements.ruleKey` — the key of the rule that answers them;
* `Requirements.bindings` — what the expressions of that rule see.  The built-in names hide further
  numbers of the same name.
-/
import Estimating.Bindings
import Estimating.Project.Key

set_option autoImplicit false

namespace Estimating

/-! ### Refused inputs -/

/-- Why an input is refused. -/
inductive InputError
  | areaNotPositive (area : Decimal)
  | extraName (name : String)
  | blankItem
  | negativeOldQty (quantity : Decimal)
  | negativeNewQty (quantity : Decimal)
deriving DecidableEq, Repr

namespace InputError

/-- The name of the field that is at fault. -/
def field : InputError → String
  | areaNotPositive _ => "area_m2"
  | extraName name => "extra." ++ name
  | blankItem => "ref"
  | negativeOldQty _ => "original_qty"
  | negativeNewQty _ => "adjusted_qty"

/-- What is asked of that field. -/
def demand : InputError → String
  | areaNotPositive area => "must be greater than 0, got " ++ area.text
  | extraName _ => "variable names must be ASCII identifiers"
  | blankItem => "must not be empty"
  | negativeOldQty q | negativeNewQty q => "must not be negative, got " ++ q.text

/-- The wording of the error. -/
def message (e : InputError) : String := "Invalid value for '" ++ e.field ++ "': " ++ e.demand

end InputError

/-! ### Requirements -/

/-- What a customer asks for. -/
structure Requirements where
  room : Room
  finish : Finish
  /-- Floor area in square metres. -/
  area : Decimal
  plumbing : Bool
  electrical : Bool
  /-- Further numbers that rules see under these names. -/
  extra : Table String Decimal

namespace Requirements

/-- Whether a text is a letter or underscore and then letters, digits and underscores, all of them
ASCII. -/
def isIdentifier (name : String) : Bool :=
  match name.toList with
  | [] => false
  | c :: rest => (c.isAlpha || c == '_') && rest.all fun c => c.isAlphanum || c == '_'

/-- What is wrong with requirements, if anything: the area comes first, then the first name that is
no identifier. -/
def fault? (r : Requirements) : Option InputError :=
  if r.area ≤ .zero then some (.areaNotPositive r.area)
  else (r.extra.keys.find? fun name => !isIdentifier name).map .extraName

/-- The key of the rule that answers the requirements. -/
def ruleKey (r : Requirements) : RuleKey := ⟨r.room, r.finish⟩

/-- The names that every rule can use. -/
def builtIn (r : Requirements) : List (String × Binding) :=
  [("areaM2", .number r.area),
    ("hasPlumbingWork", .ofBool r.plumbing),
    ("hasElectricalWork", .ofBool r.electrical),
    ("roomType", .tag r.room.name),
    ("finishLevel", .tag r.finish.name)]

/-- What the expressions of a rule see. -/
def bindings (r : Requirements) : Bindings :=
  Table.ofList ((r.extra.toList.map fun e => (e.1, .number e.2)) ++ r.builtIn)

/-! ### JSON -/

/-- Requirements as JSON; further numbers are left out where there are none. -/
def toJson (r : Requirements) : Json :=
  .object (
    Json.member "room_type" r.room.toJson ++
    Json.member "finish_level" r.finish.toJson ++
    Json.member "area_m2" r.area.toJson ++
    Json.member "has_plumbing_work" (.bool r.plumbing) ++
    Json.member "has_electrical_work" (.bool r.electrical) ++
    Json.memberIf "extra" (Json.ofTable Decimal.toJson)
      (if r.extra.isEmpty then none else some r.extra))

/-- The requirements that a JSON record gives. -/
def ofJson? : Json → Option Requirements := Json.record? do
  let room ← Json.required "room_type" Room.ofJson?
  let finish ← Json.required "finish_level" Finish.ofJson?
  let area ← Json.required "area_m2" Decimal.ofJson?
  let plumbing ← Json.withDefault "has_plumbing_work" Json.flag? false
  let electrical ← Json.withDefault "has_electrical_work" Json.flag? false
  let extra ← Json.withDefault "extra" (Json.table? Decimal.ofJson?) ∅
  return ⟨room, finish, area, plumbing, electrical, extra⟩

end Requirements
end Estimating
