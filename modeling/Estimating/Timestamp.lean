/-
Instants of universal time, to the nanosecond.

* `Date` — a day of the Gregorian calendar, with `Date.next`, `Date.previous` and
  `Date.ofUnixDays`;
* `Timestamp` — a day and a time of day; a leap second is the sixtieth second of its minute;
* `Timestamp.text` — the written form: no fraction, or the fewest of three, six or nine digits that
  hold it, and `Z`;
* `Timestamp.read?` — reads a date, a time and a distance from universal time, which is removed.
  Numbers may have fewer digits than the written form has, and white space may stand in front of
  them and before the signs between them.
-/
import Estimating.Json.Record
import Estimating.Text.Blank

set_option autoImplicit false

namespace Estimating

/-! ### Days -/

/-- Whether a year has a 29th of February. -/
def isLeapYear (year : Int) : Bool := year % 4 == 0 && (year % 100 != 0 || year % 400 == 0)

/-- The number of days of a month. -/
def daysInMonth (year : Int) (month : Nat) : Nat :=
  if month = 2 then (if isLeapYear year then 29 else 28)
  else if month = 4 ∨ month = 6 ∨ month = 9 ∨ month = 11 then 30
  else 31

/-- A day. -/
structure Date where
  year : Int
  month : Nat
  day : Nat
deriving DecidableEq, Repr

namespace Date

/-- The first year that dates reach. -/
def firstYear : Int := -262143

/-- The last year that dates reach. -/
def lastYear : Int := 262142

/-- Whether the day is one of the calendar. -/
def isValid (d : Date) : Bool :=
  firstYear ≤ d.year && d.year ≤ lastYear && 1 ≤ d.month && d.month ≤ 12 && 1 ≤ d.day &&
    d.day ≤ daysInMonth d.year d.month

/-- The day after. -/
def next (d : Date) : Date :=
  if d.day < daysInMonth d.year d.month then { d with day := d.day + 1 }
  else if d.month < 12 then ⟨d.year, d.month + 1, 1⟩
  else ⟨d.year + 1, 1, 1⟩

/-- The day before. -/
def previous (d : Date) : Date :=
  if 1 < d.day then { d with day := d.day - 1 }
  else if 1 < d.month then ⟨d.year, d.month - 1, daysInMonth d.year (d.month - 1)⟩
  else ⟨d.year - 1, 12, 31⟩

/-- The day so many days after the first of March of the year 0.  Counted from there, leap days come
last in their cycles of 4, 100 and 400 years. -/
def ofMarchDays (days : Int) : Date :=
  let era := days / 146097
  let dayOfEra := (days % 146097).toNat
  let yearOfEra := (dayOfEra - dayOfEra / 1460 + dayOfEra / 36524 - dayOfEra / 146096) / 365
  let dayOfYear := dayOfEra - (365 * yearOfEra + yearOfEra / 4 - yearOfEra / 100)
  let marchMonth := (5 * dayOfYear + 2) / 153
  let day := dayOfYear - (153 * marchMonth + 2) / 5 + 1
  let month := if marchMonth < 10 then marchMonth + 3 else marchMonth - 9
  ⟨yearOfEra + era * 400 + (if month ≤ 2 then 1 else 0), month, day⟩

/-- The day so many days after the first day of 1970. -/
def ofUnixDays (days : Int) : Date := ofMarchDays (days + 719468)

end Date

/-! ### Instants -/

/-- An instant of universal time. -/
structure Timestamp where
  date : Date
  /-- Minutes since midnight. -/
  minute : Nat
  /-- Seconds of the minute, 60 for a leap second. -/
  second : Nat
  nanosecond : Nat
deriving DecidableEq, Repr

namespace Timestamp

/-- Minutes of a day. -/
def minutesPerDay : Nat := 24 * 60

/-- Midnight of the first day of 1970. -/
def epoch : Timestamp := ⟨⟨1970, 1, 1⟩, 0, 0, 0⟩

instance : Inhabited Timestamp := ⟨epoch⟩

/-- The instant of a local time that is `offset` minutes ahead of universal time, for an offset of
less than a day. -/
def ofLocal (date : Date) (minute second nanosecond : Nat) (offset : Int) : Timestamp :=
  let m := (minute : Int) - offset
  if m < 0 then ⟨date.previous, (m + minutesPerDay).toNat, second, nanosecond⟩
  else if m < minutesPerDay then ⟨date, m.toNat, second, nanosecond⟩
  else ⟨date.next, (m - minutesPerDay).toNat, second, nanosecond⟩

/-- The instant so many seconds after the beginning of 1970. -/
def ofUnixSeconds (seconds : Int) (nanosecond : Nat) : Timestamp :=
  let second := (seconds % 86400).toNat
  ⟨Date.ofUnixDays (seconds / 86400), second / 60, second % 60, nanosecond⟩

/-! ### Writing -/

open Decimal (lastDigits digits)

/-- A year: four digits, and a sign and at least four digits outside of these. -/
def yearChars (year : Int) : List Char :=
  if 0 ≤ year ∧ year ≤ 9999 then lastDigits 4 year.toNat
  else
    let ds := digits year.natAbs
    (if year < 0 then '-' else '+') :: List.replicate (4 - ds.length) '0' ++ ds

/-- The fraction of a second. -/
def fractionChars (nanosecond : Nat) : List Char :=
  if nanosecond = 0 then []
  else if nanosecond % 1000000 = 0 then '.' :: lastDigits 3 (nanosecond / 1000000)
  else if nanosecond % 1000 = 0 then '.' :: lastDigits 6 (nanosecond / 1000)
  else '.' :: lastDigits 9 nanosecond

/-- The written form, as characters. -/
def chars (t : Timestamp) : List Char :=
  yearChars t.date.year ++ '-' :: lastDigits 2 t.date.month ++ '-' :: lastDigits 2 t.date.day ++
    'T' :: lastDigits 2 (t.minute / 60) ++ ':' :: lastDigits 2 (t.minute % 60) ++
    ':' :: lastDigits 2 t.second ++ fractionChars t.nanosecond ++ ['Z']

/-- The written form. -/
def text (t : Timestamp) : String := String.ofList t.chars

/-! ### Reading -/

/-- The rest of a text after white space. -/
def skipBlank (cs : List Char) : List Char := cs.dropWhile Text.isBlank

/-- Takes a number of at least one and at most `most` digits. -/
def takeNumber? (most : Nat) (cs : List Char) : Option (Nat × List Char) :=
  let ds := (cs.takeWhile Char.isDigit).take most
  if ds = [] then none else some (Json.digitsValue ds, cs.drop ds.length)

/-- Takes a number of one or two digits after white space. -/
def takePart? (cs : List Char) : Option (Nat × List Char) := takeNumber? 2 (skipBlank cs)

/-- Takes a year: up to four digits, or any number of them after a sign. -/
def takeYear? (cs : List Char) : Option (Int × List Char) :=
  match skipBlank cs with
  | '-' :: rest => (takeNumber? rest.length rest).map fun p => (-(p.1 : Int), p.2)
  | '+' :: rest => (takeNumber? rest.length rest).map fun p => ((p.1 : Int), p.2)
  | rest => (takeNumber? 4 rest).map fun p => ((p.1 : Int), p.2)

/-- Takes a sign after white space. -/
def takeSign? (sign : Char) (cs : List Char) : Option (List Char) :=
  match skipBlank cs with
  | c :: rest => if c = sign then some rest else none
  | [] => none

/-- Takes a fraction of a second, if there is one.  Digits behind the ninth have no effect. -/
def takeFraction? : List Char → Option (Nat × List Char)
  | '.' :: rest =>
    let ds := (rest.takeWhile Char.isDigit).take 9
    if ds = [] then none
    else some (Json.digitsValue ds * 10 ^ (9 - ds.length), rest.dropWhile Char.isDigit)
  | rest => some (0, rest)

/-- Takes a distance from universal time after its sign, in minutes: two digits of hours, colons or
white space, and two digits of minutes. -/
def takeDistance? : List Char → Option (Nat × List Char)
  | h :: h' :: rest =>
    match rest.dropWhile (fun c => c == ':' || Text.isBlank c) with
    | m :: m' :: rest =>
      if [h, h', m, m'].all Char.isDigit then
        let hours := Json.digitsValue [h, h']
        let minutes := Json.digitsValue [m, m']
        if hours < 24 ∧ minutes < 60 then some (hours * 60 + minutes, rest) else none
      else none
    | _ => none
  | _ => none

/-- Takes the distance from universal time, in minutes. -/
def takeOffset? (cs : List Char) : Option (Int × List Char) :=
  match skipBlank cs with
  | 'Z' :: rest | 'z' :: rest => some (0, rest)
  | '+' :: rest => (takeDistance? rest).map fun p => ((p.1 : Int), p.2)
  | '-' :: rest | '−' :: rest => (takeDistance? rest).map fun p => (-(p.1 : Int), p.2)
  | u :: t :: c :: rest =>
    if [u, t, c].map Char.toUpper = ['U', 'T', 'C'] then some (0, rest) else none
  | _ => none

/-- Reads an instant.  Its day must be one of the calendar in universal time as well as where the
text was written. -/
def read? (cs : List Char) : Option Timestamp := do
  let (year, cs) ← takeYear? cs
  let (month, cs) ← takePart? (← takeSign? '-' cs)
  let (day, cs) ← takePart? (← takeSign? '-' cs)
  match cs with
  | mark :: cs =>
    if mark = 'T' ∨ mark = 't' ∨ mark = ' ' then
      let (hour, cs) ← takePart? cs
      let (minute, cs) ← takePart? (← takeSign? ':' cs)
      let (second, cs) ← takePart? (← takeSign? ':' cs)
      let (nanosecond, cs) ← takeFraction? cs
      let (offset, cs) ← takeOffset? cs
      let date : Date := ⟨year, month, day⟩
      let t := ofLocal date (hour * 60 + minute) second nanosecond offset
      if date.isValid ∧ hour < 24 ∧ minute < 60 ∧ second ≤ 60 ∧ skipBlank cs = [] ∧
          t.date.isValid then
        some t
      else none
    else none
  | [] => none

/-- An instant as JSON. -/
def toJson (t : Timestamp) : Json := .string t.text

/-- The instant that a JSON string writes. -/
def ofJson? (j : Json) : Option Timestamp := (Json.text? j).bind fun s => read? s.toList

end Timestamp
end Estimating
