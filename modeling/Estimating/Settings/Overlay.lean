/-
Settings laid over other settings.

* `Setting.overlay` — one value over another: the members of objects are laid over each other one by
  one, their names in small letters, and anything else replaces what it is laid over;
* `Setting.placeOf?`, `Setting.setItem` — a place of a list, and a list with an item set there, which
  is found there again (`Setting.getElem?_setItem`);
* `Setting.overlayAt` — a value laid over the one at the end of a path.  What is on the way becomes
  an object or a list as the path asks for it.
-/
import Estimating.Settings.Path

set_option autoImplicit false

namespace Estimating.Setting

/-! ### Members and items -/

/-- The members of an object; anything else has none. -/
def members : Json → List (String × Json)
  | .object ms => ms
  | _ => []

/-- The items of a list; anything else has none. -/
def items : Json → List Json
  | .array js => js
  | _ => []

/-- The member of a name, or the given value where there is none. -/
def memberOr (default : Json) (j : Json) (name : String) : Json := (j.field? name).getD default

/-- An object with a member set. -/
def setMember (j : Json) (name : String) (value : Json) : Json :=
  .object (Json.setMember (members j) name value)

/-- No list of settings is this long. -/
def itemBound : Nat := 2 ^ 32

/-- The place in a list of a given length that a number stands for, unless it is out of reach. -/
def placeOf? (length : Nat) (i : Int) : Option Nat :=
  let k := if 0 ≤ i then i else i + length
  if 0 ≤ k ∧ k < itemBound then some k.toNat else none

/-- A list with an item set, after as many nulls as are missing. -/
def setItem (js : List Json) (k : Nat) (value : Json) : List Json :=
  (js ++ List.replicate (k + 1 - js.length) Json.null).set k value

/-- An item that was set is found at its place. -/
theorem getElem?_setItem (js : List Json) (k : Nat) (value : Json) :
    (setItem js k value)[k]? = some value := by
  unfold setItem
  rw [List.getElem?_set_self]
  rw [List.length_append, List.length_replicate]
  omega

/-- A number that is not negative stands for the place of that number. -/
theorem placeOf?_of_lt {length : Nat} {i : Int} (h : 0 ≤ i) (h' : i < itemBound) :
    placeOf? length i = some i.toNat := by
  simp [placeOf?, h, h']

/-! ### Values -/

mutual

/-- A value laid over another one. -/
def overlay (below : Json) : Json → Json
  | .object above => overlayMembers below above
  | above => above

/-- Members laid over a value. -/
def overlayMembers (below : Json) : List (String × Json) → Json
  | [] => below
  | (name, j) :: rest =>
    let name := lowerText name
    overlayMembers (setMember below name (overlay (memberOr (.object []) below name) j)) rest

end

/-- A value laid over the one at the end of a path; `none` if a place is out of reach. -/
def overlayAt (below : Json) (value : Json) : Path → Option Json
  | [] => some below
  | [.name s] => some (setMember below s (overlay (memberOr (.object []) below s) value))
  | [.place i] => do
    let k ← placeOf? (items below).length i
    return .array (setItem (items below) k value)
  | .name s :: rest => do
    return setMember below s (← overlayAt (memberOr .null below s) value rest)
  | .place i :: rest => do
    let k ← placeOf? (items below).length i
    return .array (setItem (items below) k (← overlayAt ((items below)[k]?.getD .null) value rest))

/-- Members laid over a value, each at the end of the path that its name writes. -/
def overlayAll (below : Json) (above : List (String × Json)) : Option Json :=
  above.foldlM (fun j m => overlayAt j m.2 (readPath m.1)) below

end Estimating.Setting
