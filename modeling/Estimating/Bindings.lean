/-
Bindings: what the names in an expression stand for.

* `Binding` — a number, or a tag, which has a name but no value;
* `Bindings` — a table of bindings;
* `Bindings.toJson`, `Bindings.ofJson?` — bindings as JSON: whatever reads as a decimal is a number
  and any other string a tag.
-/
import Estimating.Json.Record

set_option autoImplicit false

namespace Estimating

/-- What a name stands for.  Tags let expressions see that a project has, say, a room type, but take
no part in arithmetic. -/
inductive Binding
  | number (value : Decimal)
  | tag (text : String)
deriving DecidableEq, Repr

namespace Binding

/-- The number, of a number. -/
def number? : Binding → Option Decimal
  | .number x => some x
  | .tag _ => none

/-- A truth value as a number, one or zero. -/
def ofBool (b : Bool) : Binding := .number (if b then .one else .zero)

/-- A binding as JSON. -/
def toJson : Binding → Json
  | number x => x.toJson
  | tag s => .string s

/-- The binding that a JSON value gives. -/
def ofJson? (j : Json) : Option Binding :=
  match Decimal.ofJson? j with
  | some x => some (number x)
  | none => (Json.text? j).map tag

end Binding

/-- The names in scope of an expression. -/
abbrev Bindings := Table String Binding

namespace Bindings

/-- Bindings as JSON. -/
def toJson (b : Bindings) : Json := Json.ofTable Binding.toJson b

/-- The bindings that a JSON object gives. -/
def ofJson? : Json → Option Bindings := Json.table? Binding.ofJson?

end Bindings
end Estimating
