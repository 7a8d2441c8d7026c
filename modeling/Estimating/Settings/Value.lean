/-
Settings: values that people write into files and environment variables.

A setting is a JSON value.  Its type need not be just the one that is asked for: a count may be
given as a text or a fraction, a truth value as a number or a word.

* `Setting.ofText` — the value that the text of a variable stands for;
* `Setting.reading` — how values are read out of settings.
-/
import Estimating.Json.Record
import Estimating.Json.Writer

set_option autoImplicit false

namespace Estimating.Setting

/-! ### Texts -/

/-- A letter as a small letter.  Besides the capital letters of ASCII, only the sign of the unit
kelvin becomes a letter of ASCII. -/
def lowerChar (c : Char) : Char := if c = '\u212a' then 'k' else c.toLower

/-- A text in small letters. -/
def lower (cs : List Char) : List Char := cs.map lowerChar

/-- A name in small letters. -/
def lowerText (s : String) : String := String.ofList (lower s.toList)

/-- Reads a sign, if there is one, and digits. -/
def readInteger? (cs : List Char) : Option Int :=
  let (negative, ds) := Decimal.takeSign cs
  if ds ≠ [] ∧ ds.all Char.isDigit then
    some (if negative then -(Json.digitsValue ds : Int) else Json.digitsValue ds)
  else none

/-- Reads an integer of 64 bits with a sign. -/
def readInt64? (cs : List Char) : Option Int :=
  (readInteger? cs).filter fun n => -2 ^ 63 ≤ n ∧ n < 2 ^ 63

/-- Reads a natural number of 64 bits; a plus sign may stand in front of it. -/
def readCount? (cs : List Char) : Option Nat :=
  if cs.head? = some '-' then none
  else ((readInteger? cs).map Int.toNat).filter fun n => n < 2 ^ 64

/-- Reads digits with at most one point among them: the number that they form without the point, and
how many stand behind it. -/
def readPointed? (cs : List Char) : Option (Nat × Nat) :=
  let whole := cs.takeWhile Char.isDigit
  match cs.drop whole.length with
  | [] => if whole = [] then none else some (Json.digitsValue whole, 0)
  | '.' :: fraction =>
    if fraction.all Char.isDigit ∧ whole ++ fraction ≠ [] then
      some (Json.digitsValue (whole ++ fraction), fraction.length)
    else none
  | _ => none

/-- Reads a binary64 number: digits with or without a point and an exponent, or the name of an
infinity or of no number. -/
def readReal? (cs : List Char) : Option Binary64 :=
  let (negative, body) := Decimal.takeSign cs
  let word := lowerText (String.ofList body)
  if word = "inf" ∨ word = "infinity" then some (.infinite negative)
  else if word = "nan" then some .notANumber
  else
    let mantissa := body.takeWhile fun c => c != 'e' && c != 'E'
    match readPointed? mantissa, Json.readExponent? (body.drop mantissa.length) with
    | some (n, s), some e => some ((Binary64.ofScientific n (e.getD 0 - s)).withSign negative)
    | _, _ => none

/-- The value that a text stands for: a truth value, an integer, a number or the text itself. -/
def ofText (text : String) : Json :=
  let cs := text.toList
  if lower cs = "true".toList then .bool true
  else if lower cs = "false".toList then .bool false
  else
    match readInt64? cs with
    | some n => .integer n
    | none =>
      match readReal? cs with
      | some x => .real x
      | none => .string text

/-! ### Conversions -/

/-- A setting whose integers have 64 bits and a sign; larger ones are binary64 numbers. -/
def widen : Json → Json
  | .integer n => if n < 2 ^ 63 then .integer n else .real (.ofRatio n.toNat 1)
  | j => j

/-- The truth value that a word stands for. -/
def wordFlag? (word : String) : Option Bool :=
  if word ∈ ["true", "on", "yes"] then some true
  else if word ∈ ["false", "off", "no"] then some false
  else none

/-- A text.  Truth values and numbers are written out. -/
def text? (j : Json) : Option String :=
  match widen j with
  | .string s => some s
  | .bool b => some (if b then "true" else "false")
  | .integer n => some (String.ofList (Json.integerChars n))
  | .real x => some x.text
  | _ => none

/-- A truth value.  A number is true unless it is zero. -/
def flag? (j : Json) : Option Bool :=
  match widen j with
  | .bool b => some b
  | .integer n => some (n != 0)
  | .real x => some !x.isZero
  | .string s =>
    let word := lowerText s
    if word = "1" then some true else if word = "0" then some false else wordFlag? word
  | _ => none

/-- A count of 64 bits.  A fraction is rounded, and a truth value counts as one or zero. -/
def count64? (j : Json) : Option Nat :=
  match widen j with
  | .integer n => if 0 ≤ n then some n.toNat else none
  | .bool b => some b.toNat
  | .real x => some x.toCount
  | .string s =>
    match wordFlag? (lowerText s) with
    | some b => some b.toNat
    | none => readCount? s.toList
  | _ => none

/-- A count of 32 bits. -/
def count32? (j : Json) : Option Nat := (count64? j).filter (· < 2 ^ 32)

/-- A decimal. -/
def decimal? (j : Json) : Option Decimal := Decimal.ofJson? (widen j)

/-- Reading with conversions. -/
def reading : Json.Reading := ⟨text?, flag?, count32?, count64?, decimal?, true⟩

end Estimating.Setting
