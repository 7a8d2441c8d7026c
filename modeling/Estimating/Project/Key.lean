/-
Keys of rules and of learned patterns.

A rule belongs to a room type and a finish level; a pattern belongs to a rule and one of its items.
Both kinds of key are written with bars between their parts.

* `Room`, `Finish` — room types and finish levels, in their order;
* `RuleKey`, `RuleKey.text`, `RuleKey.read` — keys `room|finish`;
* `isItemRef` — whether a text can name an item;
* `PatternKey`, `PatternKey.text`, `PatternKey.read` — keys `room|finish|item`, whose item is one
  that `isItemRef` accepts;
* `KeyError` — why a text is no key.
-/
import Estimating.Json.Record
import Estimating.Text.Blank

set_option autoImplicit false

namespace Estimating

/-! ### Errors -/

/-- Why a text is no key. -/
inductive KeyError
  | unknownRoom (text : String)
  | unknownFinish (text : String)
  | /-- A rule key has one bar. -/
    ruleKeyForm (key : String)
  | ruleKeyPart (key : String) (cause : KeyError)
  | /-- A pattern key has two bars. -/
    patternKeyForm (key : String)
  | patternKeyRule (key : String) (cause : KeyError)
  | patternKeyItem (key : String)
deriving DecidableEq, Repr

/-- The wording of a key error. -/
def KeyError.message : KeyError → String
  | unknownRoom text => "Unknown room type: '" ++ text ++ "'"
  | unknownFinish text => "Unknown finish level: '" ++ text ++ "'"
  | ruleKeyForm key =>
    "Invalid rule key '" ++ key ++
      "': expected exactly one '|' in the form roomType|finishLevel"
  | ruleKeyPart key cause => "Invalid rule key '" ++ key ++ "': " ++ cause.message
  | patternKeyForm key =>
    "Invalid pattern key '" ++ key ++ "': expected roomType|finishLevel|itemRef"
  | patternKeyRule key cause => "Invalid pattern key '" ++ key ++ "': " ++ cause.message
  | patternKeyItem key =>
    "Invalid pattern key '" ++ key ++ "': item ref must be non-empty and must not contain '|'"

/-! ### Rooms and finishes -/

/-- The kind of room that is renovated. -/
inductive Room
  | bathroom
  | kitchen
  | flooring
deriving DecidableEq, Repr

namespace Room

/-- The name of a room type. -/
def name : Room → String
  | bathroom => "bathroom"
  | kitchen => "kitchen"
  | flooring => "flooring"

/-- The room type of a name. -/
def read : String → Except KeyError Room
  | "bathroom" => .ok bathroom
  | "kitchen" => .ok kitchen
  | "flooring" => .ok flooring
  | text => .error (.unknownRoom text)

/-- The place in the order of room types. -/
def rank : Room → Nat
  | bathroom => 0
  | kitchen => 1
  | flooring => 2

theorem read_name (r : Room) : read r.name = .ok r := by cases r <;> rfl

/-- A room type as JSON. -/
def toJson (r : Room) : Json := .string r.name

/-- The room type that a JSON constant names. -/
def ofJson? (j : Json) : Option Room := (Json.name? j).bind fun s => (read s).toOption

end Room

/-- The finish that the customer asks for. -/
inductive Finish
  | basic
  | standard
  | premium
deriving DecidableEq, Repr

namespace Finish

/-- The name of a finish level. -/
def name : Finish → String
  | basic => "basic"
  | standard => "standard"
  | premium => "premium"

/-- The finish level of a name. -/
def read : String → Except KeyError Finish
  | "basic" => .ok basic
  | "standard" => .ok standard
  | "premium" => .ok premium
  | text => .error (.unknownFinish text)

/-- The place in the order of finish levels. -/
def rank : Finish → Nat
  | basic => 0
  | standard => 1
  | premium => 2

theorem read_name (f : Finish) : read f.name = .ok f := by cases f <;> rfl

/-- A finish level as JSON. -/
def toJson (f : Finish) : Json := .string f.name

/-- The finish level that a JSON constant names. -/
def ofJson? (j : Json) : Option Finish := (Json.name? j).bind fun s => (read s).toOption

end Finish

/-! ### Rule keys -/

/-- The part of a text before its first bar, and the part after it if there is a bar. -/
def splitBar (cs : List Char) : List Char × Option (List Char) :=
  match cs.dropWhile (· != '|') with
  | _ :: rest => (cs.takeWhile (· != '|'), some rest)
  | [] => (cs, none)

/-- What a rule is kept under. -/
structure RuleKey where
  room : Room
  finish : Finish
deriving DecidableEq, Repr

namespace RuleKey

/-- The written form. -/
def text (k : RuleKey) : String := k.room.name ++ "|" ++ k.finish.name

/-- Reads a rule key. -/
def read (s : String) : Except KeyError RuleKey :=
  match splitBar s.toList with
  | (room, some finish) =>
    if finish.contains '|' then .error (.ruleKeyForm s)
    else
      match Room.read (String.ofList room) with
      | .error e => .error (.ruleKeyPart s e)
      | .ok room =>
        match Finish.read (String.ofList finish) with
        | .error e => .error (.ruleKeyPart s e)
        | .ok finish => .ok ⟨room, finish⟩
  | (_, none) => .error (.ruleKeyForm s)

/-- The place in the order of rule keys: by room type, then by finish level. -/
def rank (k : RuleKey) : Nat := 3 * k.room.rank + k.finish.rank

theorem rank_injective {a b : RuleKey} (h : a.rank = b.rank) : a = b := by
  obtain ⟨r, f⟩ := a
  obtain ⟨r', f'⟩ := b
  cases r <;> cases f <;> cases r' <;> cases f' <;> first | rfl | cases h

instance : Ord RuleKey := ⟨compareOn rank⟩

instance : Std.TransOrd RuleKey := inferInstanceAs (Std.TransCmp (compareOn rank))

instance : Std.LawfulEqOrd RuleKey where
  eq_of_compare {a b} h := by
    have h : compare a.rank b.rank = .eq := h
    exact rank_injective (Std.LawfulEqOrd.eq_of_compare h)

/-- A rule key as JSON. -/
def toJson (k : RuleKey) : Json := .string k.text

/-- The rule key that a JSON string writes. -/
def ofJson? (j : Json) : Option RuleKey := (Json.text? j).bind fun s => (read s).toOption

end RuleKey

/-! ### Pattern keys -/

/-- Whether a text can name an item: it is not blank and has no bar in it. -/
def isItemRef (item : String) : Bool := !Text.allBlank item && !item.toList.contains '|'

/-- What a learned pattern is kept under. -/
structure PatternKey where
  ruleKey : RuleKey
  item : String
  isItemRef_item : isItemRef item = true
deriving DecidableEq, Repr

namespace PatternKey

/-- The written form of the parts of a key. -/
def join (ruleKey : RuleKey) (item : String) : String := ruleKey.text ++ "|" ++ item

/-- The written form. -/
def text (k : PatternKey) : String := join k.ruleKey k.item

/-- The key of an item under a rule. -/
def make (ruleKey : RuleKey) (item : String) : Except KeyError PatternKey :=
  if h : isItemRef item = true then .ok ⟨ruleKey, item, h⟩
  else .error (.patternKeyItem (join ruleKey item))

/-- A key is made of its parts. -/
theorem make_eq (key : PatternKey) : make key.ruleKey key.item = .ok key :=
  dif_pos key.isItemRef_item

/-- A key has the parts that it is made of. -/
theorem make_eq_ok {ruleKey : RuleKey} {item : String} {key : PatternKey}
    (h : make ruleKey item = .ok key) : key.ruleKey = ruleKey ∧ key.item = item := by
  unfold make at h
  split at h
  · cases h
    exact ⟨rfl, rfl⟩
  · cases h

/-- Reads a pattern key. -/
def read (s : String) : Except KeyError PatternKey :=
  match splitBar s.toList with
  | (_, none) => .error (.patternKeyForm s)
  | (room, some rest) =>
    match splitBar rest with
    | (_, none) => .error (.patternKeyForm s)
    | (finish, some item) =>
      match RuleKey.read (String.ofList (room ++ '|' :: finish)) with
      | .error e => .error (.patternKeyRule s e)
      | .ok ruleKey => make ruleKey (String.ofList item)

/-- The order of pattern keys: by rule key, then by item. -/
def order : PatternKey → PatternKey → Ordering :=
  compareLex (compareOn ruleKey) (compareOn item)

instance : Ord PatternKey := ⟨order⟩

instance : Std.TransOrd PatternKey :=
  inferInstanceAs (Std.TransCmp (compareLex (compareOn ruleKey) (compareOn item)))

theorem eq_of_parts {a b : PatternKey} (hr : a.ruleKey = b.ruleKey) (hi : a.item = b.item) :
    a = b := by
  cases a
  cases b
  cases hr
  cases hi
  rfl

instance : Std.LawfulEqOrd PatternKey where
  eq_of_compare {a b} h := by
    have h : (compare a.ruleKey b.ruleKey).then (compare a.item b.item) = .eq := h
    rw [Ordering.then_eq_eq] at h
    exact eq_of_parts (Std.LawfulEqOrd.eq_of_compare h.1) (Std.LawfulEqOrd.eq_of_compare h.2)

/-- A pattern key as JSON. -/
def toJson (k : PatternKey) : Json := .string k.text

/-- The pattern key that a JSON string writes. -/
def ofJson? (j : Json) : Option PatternKey := (Json.text? j).bind fun s => (read s).toOption

end PatternKey
end Estimating
