/-
JSON values.

* `Json` — a value; numbers are kept as 64-bit integers where they are written as such and as
  binary64 numbers otherwise, and the members of an object in the order they are written in.  What
  has the form of a value but stands for none is `Json.meaningless`;
* `Json.isPlain` — whether a value is free of such parts and not too deep;
* `Json.Numeral`, `Json.Numeral.toJson?` — a numeral of the JSON grammar, and its number;
* `Json.field?` — the last member of a name;
* `Json.dropRepeats` — the value with only the last member of each name in every object.
-/
import Estimating.Binary64

set_option autoImplicit false

namespace Estimating

/-- A JSON value. -/
inductive Json
  | null
  | bool (b : Bool)
  | /-- A number written as a 64-bit integer, with or without a sign. -/
    integer (n : Int)
  | /-- Any other number. -/
    real (x : Binary64)
  | string (s : String)
  | array (items : List Json)
  | object (members : List (String × Json))
  | /-- A number that is too large, a string with half of a surrogate pair, or an object with such a
    string for a name.  It can be read past, but nothing can be read out of it. -/
    meaningless
deriving Repr, Inhabited

namespace Json

/-! ### Numbers -/

/-- Takes digits into a significand as long as it stays below `2 ^ 64`; also counts the digits that
are left. -/
def accumulate (significand : Nat) : List Char → Nat × Nat
  | [] => (significand, 0)
  | c :: rest =>
    let next := 10 * significand + Decimal.digitValue c
    if next < 2 ^ 64 then accumulate next rest else (significand, rest.length + 1)

/-- A positive number times a power of ten, in one step where the power is a number of its own and
in steps of `10 ^ 308` below that; `none` if the result is too large. -/
def scaleTen (x : Binary64) (e : Int) : Option Binary64 :=
  if x.isZero then some x
  else if 0 ≤ e then
    if e > 308 then none
    else
      match x.mul (.powerOfTen e.toNat) with
      | .infinite _ => none
      | y => some y
  else if -308 ≤ e then some (x.div (.powerOfTen (-e).toNat))
  else scaleTen (x.div (.powerOfTen 308)) (e + 308)
termination_by e.natAbs
decreasing_by omega

/-- The parts of a numeral: the digits before the point, those after it, and the exponent. -/
structure Numeral where
  negative : Bool
  whole : List Char
  fraction : Option (List Char)
  exponent : Option Int
deriving Repr

/-- A list of digits as a number. -/
def digitsValue (ds : List Char) : Nat := ds.foldl (fun n c => 10 * n + Decimal.digitValue c) 0

/-- The exponent of a numeral: a mark, a sign if there is one, and digits. -/
def readExponent? : List Char → Option (Option Int)
  | [] => some none
  | mark :: rest =>
    if mark == 'e' || mark == 'E' then
      let (negative, ds) := Decimal.takeSign rest
      if ds ≠ [] ∧ ds.all Char.isDigit then
        some (some (if negative then -(digitsValue ds : Int) else digitsValue ds))
      else none
    else none

/-- The parts of a numeral, if it has the form that the grammar asks for: no sign but a minus, no
zero in front of other digits, and digits on both sides of the point. -/
def Numeral.ofChars? (cs : List Char) : Option Numeral :=
  let (negative, body) := match cs with
    | '-' :: rest => (true, rest)
    | rest => (false, rest)
  let whole := body.takeWhile Char.isDigit
  if whole = [] ∨ (whole.head? = some '0' ∧ whole.length ≠ 1) then none
  else
    match body.drop whole.length with
    | '.' :: rest =>
      let fraction := rest.takeWhile Char.isDigit
      if fraction = [] then none
      else (readExponent? (rest.drop fraction.length)).map (⟨negative, whole, some fraction, ·⟩)
    | rest => (readExponent? rest).map (⟨negative, whole, none, ·⟩)

/-- The binary64 number of a numeral: its first digits that fit 64 bits, scaled by a power of ten;
`none` if it is too large. -/
def Numeral.real? (n : Numeral) : Option Binary64 :=
  let (significand, dropped) := accumulate 0 n.whole
  let fraction := n.fraction.getD []
  let (significand, left) := accumulate significand fraction
  let exponent : Int := dropped - ((fraction.length : Int) - left) + n.exponent.getD 0
  (scaleTen (.ofRatio significand 1) exponent).map (·.withSign n.negative)

/-- The number of a numeral; a minus zero is no integer. -/
def Numeral.toJson? (n : Numeral) : Option Json :=
  if n.fraction.isNone ∧ n.exponent.isNone then
    let size := digitsValue n.whole
    if n.negative then
      if 0 < size ∧ size ≤ 2 ^ 63 then some (.integer (-size)) else n.real?.map .real
    else if size < 2 ^ 64 then some (.integer size)
    else n.real?.map .real
  else n.real?.map .real

/-! ### Plain values -/

/-- The deepest nesting of arrays and objects in a plain value. -/
def maxDepth : Nat := 127

mutual

/-- Whether everything in a value has a meaning, and arrays and objects are nested at most `depth`
deep. -/
def isPlainWithin (depth : Nat) : Json → Bool
  | meaningless => false
  | array items => depth != 0 && plainItems (depth - 1) items
  | object members => depth != 0 && plainMembers (depth - 1) members
  | _ => true

/-- `isPlainWithin` for all items. -/
def plainItems (depth : Nat) : List Json → Bool
  | [] => true
  | j :: rest => isPlainWithin depth j && plainItems depth rest

/-- `isPlainWithin` for the values of all members. -/
def plainMembers (depth : Nat) : List (String × Json) → Bool
  | [] => true
  | (_, j) :: rest => isPlainWithin depth j && plainMembers depth rest

end

/-- Whether everything in a value has a meaning, and it is not nested too deep. -/
def isPlain (j : Json) : Bool := j.isPlainWithin maxDepth

/-! ### Members -/

/-- The last member of a name in a list of members. -/
def lookup (name : String) (members : List (String × Json)) : Option Json :=
  (members.reverse.find? (·.1 == name)).map Prod.snd

/-- The last member of a name, of an object. -/
def field? (j : Json) (name : String) : Option Json :=
  match j with
  | object members => lookup name members
  | _ => none

/-- Adds a member, in place of an earlier one of its name. -/
def setMember (members : List (String × Json)) (name : String) (j : Json) : List (String × Json) :=
  members.filter (·.1 != name) ++ [(name, j)]

mutual

/-- The value with only the last member of each name in every object. -/
def dropRepeats : Json → Json
  | array items => array (dropRepeatsItems items)
  | object members => object (dropRepeatsMembers [] members)
  | j => j

/-- `dropRepeats` on every item. -/
def dropRepeatsItems : List Json → List Json
  | [] => []
  | j :: rest => dropRepeats j :: dropRepeatsItems rest

/-- `dropRepeats` on every member, added to the members before them. -/
def dropRepeatsMembers (done : List (String × Json)) : List (String × Json) → List (String × Json)
  | [] => done
  | (name, j) :: rest => dropRepeatsMembers (setMember done name (dropRepeats j)) rest

end

end Json
end Estimating
