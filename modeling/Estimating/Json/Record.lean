/-
Reading typed values out of JSON.

A *record* is read field by field in a fixed order.  It may be given as an object, whose members
are found by name, or as an array, whose items are taken in the order of the fields.  An object may
hold members that no field asks for; an array may not hold more items than there are fields.

* `Json.Record` — a reader of records;
* `Json.required`, `Json.optional`, `Json.optionalOr`, `Json.withDefault` — one field, by what it
  means that the field is absent;
* `Json.record?` — a whole record;
* `Json.Kinds`, `Json.tagged?`, `Json.innerTagged?` — a record whose first field tells its kind;
* `Json.text?`, `Json.flag?`, `Json.count32?`, `Json.count64?`, `Json.list?`, `Json.table?`,
  `Json.name?`, `Json.innerName?` — values of the basic types;
* `Json.Reading` — a choice of readers for these;
* `Json.Members` and `Json.member`, `Json.memberIf` — building objects.
-/
import Estimating.Json.Value
import Estimating.Table

set_option autoImplicit false

namespace Estimating.Json

/-! ### Basic types -/

/-- The text of a string. -/
def text? : Json → Option String
  | string s => some s
  | _ => none

/-- A truth value. -/
def flag? : Json → Option Bool
  | bool b => some b
  | _ => none

/-- An integer from zero up to but not including a bound. -/
def countBelow? (bound : Nat) : Json → Option Nat
  | integer n => if 0 ≤ n ∧ n.toNat < bound then some n.toNat else none
  | _ => none

/-- A count of 32 bits. -/
def count32? : Json → Option Nat := countBelow? (2 ^ 32)

/-- A count of 64 bits. -/
def count64? : Json → Option Nat := countBelow? (2 ^ 64)

/-- A list of values of one kind. -/
def list? {α : Type} (item? : Json → Option α) : Json → Option (List α)
  | array items => items.mapM item?
  | _ => none

/-- A table of values of one kind; of several members of one name the last counts. -/
def table? {α : Type} (item? : Json → Option α) : Json → Option (Table String α)
  | object members =>
    (members.mapM fun m => (item? m.2).map fun a => (m.1, a)).map Table.ofList
  | _ => none

/-- The name of a constant: a string, or an object with that one member and no value for it. -/
def name? : Json → Option String
  | string s => some s
  | object [(s, null)] => some s
  | _ => none

/-- The name of a constant inside of a tagged record.  There an object with no members counts as no
value. -/
def innerName? : Json → Option String
  | object [(s, object [])] => some s
  | j => name? j

/-! ### Records -/

/-- What is left of a record. -/
inductive Source
  | members (all : List (String × Json))
  | items (rest : List Json)

/-- A reader of part of a record. -/
abbrev Record := StateT Source Option

/-- Takes the value of a field, if it is there.  A name may not occur twice. -/
def take (name : String) : Record (Option Json) := fun source =>
  match source with
  | .members all =>
    match all.filter (·.1 == name) with
    | [] => some (none, source)
    | [(_, j)] => some (some j, source)
    | _ => none
  | .items [] => some (none, source)
  | .items (j :: rest) => some (some j, .items rest)

/-- Whether the record is given by names. -/
def byName : Record Bool := fun source =>
  match source with
  | .members _ => some (true, source)
  | .items _ => some (false, source)

/-- A field that has to be there. -/
def required {α : Type} (name : String) (value? : Json → Option α) : Record α := do
  match ← take name with
  | some j => (value? j : Option α)
  | none => none

/-- A field that takes a default where it is absent. -/
def withDefault {α : Type} (name : String) (value? : Json → Option α) (default : α) :
    Record α := do
  match ← take name with
  | some j => (value? j : Option α)
  | none => return default

/-- A value that may be null. -/
def nullable {α : Type} (value? : Json → Option α) : Json → Option (Option α)
  | null => some none
  | j => (value? j).map some

/-- A field that may be null, and absent where fields have names. -/
def optional {α : Type} (name : String) (value? : Json → Option α) : Record (Option α) := do
  match ← take name with
  | some j => (nullable value? j : Option (Option α))
  | none => if ← byName then return none else none

/-- A field that may be null or absent. -/
def optionalOr {α : Type} (name : String) (value? : Json → Option α) : Record (Option α) :=
  withDefault name (nullable value?) none

/-- Reads a record from what holds it. -/
def Record.read {α : Type} (r : Record α) (source : Source) : Option α :=
  match r.run source with
  | some (a, .members _) => some a
  | some (a, .items []) => some a
  | _ => none

/-- Reads a whole record. -/
def record? {α : Type} (r : Record α) : Json → Option α
  | object members => r.read (.members members)
  | array items => r.read (.items items)
  | _ => none

/-- The kinds of a record, with the reader of the other fields of each. -/
abbrev Kinds (α : Type) := List (String × Record α)

/-- The kind of a name. -/
def Kinds.ofName? {α : Type} (kinds : Kinds α) : Json → Option (Record α)
  | string s => kinds.lookup s
  | _ => none

/-- The kind of a name, or of a place in the list of kinds. -/
def Kinds.ofNameOrPlace? {α : Type} (kinds : Kinds α) : Json → Option (Record α)
  | integer n => if 0 ≤ n then kinds[n.toNat]?.map Prod.snd else none
  | j => kinds.ofName? j

/-- Reads a record whose field `tag` tells its kind. -/
def taggedBy? {α : Type} (tag : String) (kind? : Json → Option (Record α)) : Json → Option α
  | object members =>
    match members.filter (·.1 == tag) with
    | [(_, j)] => (kind? j).bind fun r => r.read (.members (members.filter (·.1 != tag)))
    | _ => none
  | array (j :: items) => (kind? j).bind fun r => r.read (.items items)
  | _ => none

/-- Reads a record whose field `tag` names its kind.  Nothing in it can be read past without a
meaning. -/
def tagged? {α : Type} (tag : String) (kinds : Kinds α) (j : Json) : Option α :=
  if j.isPlain then taggedBy? tag kinds.ofName? j else none

/-- Reads a record inside of a tagged record.  Its kind may be given by its place among the kinds. -/
def innerTagged? {α : Type} (tag : String) (kinds : Kinds α) : Json → Option α :=
  taggedBy? tag kinds.ofNameOrPlace?

/-! ### Objects -/

/-- Members of an object, in order. -/
abbrev Members := List (String × Json)

/-- One member. -/
def member (name : String) (j : Json) : Members := [(name, j)]

/-- A member that is left out where there is no value. -/
def memberIf {α : Type} (name : String) (toJson : α → Json) : Option α → Members
  | some a => [(name, toJson a)]
  | none => []

/-- A count. -/
def ofCount (n : Nat) : Json := integer n

/-- A list of values. -/
def ofList {α : Type} (toJson : α → Json) (items : List α) : Json := array (items.map toJson)

/-- A table, in the order of its names. -/
def ofTable {α : Type} (toJson : α → Json) (t : Table String α) : Json :=
  object (t.toList.map fun e => (e.1, toJson e.2))

/-- A value or null. -/
def ofOption {α : Type} (toJson : α → Json) : Option α → Json
  | some a => toJson a
  | none => null

end Estimating.Json

namespace Estimating

/-- A decimal is written as a string, so that all its digits are kept. -/
def Decimal.toJson (x : Decimal) : Json := .string x.text

/-- A decimal may be given as a string or as a number. -/
def Decimal.ofJson? : Json → Option Decimal
  | .string s => ofText? s
  | .integer n => ofParts? n 0
  | .real x => ofText? x.text
  | _ => none

/-- How values are read out of JSON.  A value may have to be of just the JSON type that fits it, or
be converted from others. -/
structure Json.Reading where
  text? : Json → Option String
  flag? : Json → Option Bool
  count32? : Json → Option Nat
  count64? : Json → Option Nat
  decimal? : Json → Option Decimal
  /-- Whether a record given as an array may have more items than there are fields. -/
  moreItems : Bool

namespace Json.Reading

/-- Reading without conversions. -/
def strict : Reading :=
  ⟨Json.text?, Json.flag?, Json.count32?, Json.count64?, Decimal.ofJson?, false⟩

/-- Reads a whole record. -/
def record? {α : Type} (s : Reading) (r : Record α) : Json → Option α
  | array items =>
    if s.moreItems then (r.run (.items items)).map Prod.fst else r.read (.items items)
  | j => Json.record? r j

@[simp] theorem record?_strict {α : Type} (r : Record α) (j : Json) :
    strict.record? r j = Json.record? r j := by
  cases j <;> rfl

end Json.Reading

end Estimating
