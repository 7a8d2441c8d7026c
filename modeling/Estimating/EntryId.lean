/-
Identifiers of log entries: numbers of 128 bits, written in hexadecimal.

* `EntryId` — an identifier;
* `EntryId.text` — its 32 digits in groups of 8, 4, 4, 4 and 12;
* `EntryId.ofRandom` — the identifier of a random number;
* `EntryId.read?` — reads that form, the same in braces or after `urn:uuid:`, and the digits alone,
  all in upper or lower case.
-/
import Estimating.Json.Reader
import Estimating.Json.Record

set_option autoImplicit false

namespace Estimating

/-- An identifier of a log entry. -/
structure EntryId where
  value : Nat
  value_lt : value < 2 ^ 128
deriving DecidableEq

namespace EntryId

instance : Repr EntryId := ⟨fun x _ => repr x.value⟩

instance : Inhabited EntryId := ⟨⟨0, by decide⟩⟩

/-- The lengths of the groups of digits. -/
def groups : List Nat := [8, 4, 4, 4, 12]

/-- The last `k` hexadecimal digits of a number. -/
def hexDigits : Nat → Nat → List Char
  | 0, _ => []
  | k + 1, n => hexDigits k (n / 16) ++ [Nat.digitChar (n % 16)]

/-- Digits cut into groups with hyphens between them. -/
def hyphenate : List Nat → List Char → List Char
  | [], cs => cs
  | [_], cs => cs
  | k :: rest, cs => cs.take k ++ '-' :: hyphenate rest (cs.drop k)

/-- The digits of a hyphenated text. -/
def unhyphenate? : List Nat → List Char → Option (List Char)
  | [], cs => if cs = [] then some [] else none
  | [k], cs => if cs.length = k then some cs else none
  | k :: rest, cs =>
    match cs.drop k with
    | '-' :: more => (unhyphenate? rest more).map (cs.take k ++ ·)
    | _ => none

/-- The written form. -/
def text (x : EntryId) : String := String.ofList (hyphenate groups (hexDigits 32 x.value))

/-- The identifier of 32 hexadecimal digits. -/
def ofDigits? (cs : List Char) : Option EntryId :=
  if cs.length = 32 then
    match cs.foldlM (fun n c => (Json.hexValue? c).map (16 * n + ·)) 0 with
    | some n => if h : n < 2 ^ 128 then some ⟨n, h⟩ else none
    | none => none
  else none

/-- What may stand in front of a hyphenated identifier, in upper or lower case. -/
def mark : List Char := ['u', 'r', 'n', ':', 'u', 'u', 'i', 'd', ':']

/-- What is inside of braces or behind `urn:uuid:`, where a text has these. -/
def inner (cs : List Char) : List Char :=
  if cs.length = 38 ∧ cs.head? = some '\x7b' ∧ cs.getLast? = some '\x7d' then (cs.drop 1).dropLast
  else if cs.length = 45 ∧ (cs.take 9).map Char.toLower = mark then cs.drop 9
  else cs

/-- Reads an identifier. -/
def read? (cs : List Char) : Option EntryId :=
  if cs.length = 32 then ofDigits? cs else (unhyphenate? groups (inner cs)).bind ofDigits?

/-- The identifier of a random number: 122 of its bits, beside the marks of a random identifier. -/
def ofRandom (n : Nat) : EntryId :=
  let low := n % 2 ^ 62
  let middle := n / 2 ^ 62 % 2 ^ 12
  let high := n / 2 ^ 74 % 2 ^ 48
  ⟨(((high * 16 + 4) * 2 ^ 12 + middle) * 4 + 2) * 2 ^ 62 + low, by omega⟩

/-- An identifier as JSON. -/
def toJson (x : EntryId) : Json := .string x.text

/-- The identifier that a JSON string writes. -/
def ofJson? (j : Json) : Option EntryId := (Json.text? j).bind fun s => read? s.toList

end EntryId
end Estimating
