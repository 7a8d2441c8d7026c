/-
Writing JSON texts.

* `Json.escape`, `Json.quote` — a string with its escapes, and between its quotes;
* `Json.compact` — a value without any white space, which never holds a line break;
* `Json.pretty` — a value over several lines, two spaces deeper at each level.
-/
import Estimating.Json.Value
import Estimating.Text.Visible

set_option autoImplicit false

namespace Estimating.Json

/-- A character of a string.  Quotes, backslashes and control characters are escaped. -/
def escapeChar (c : Char) : List Char :=
  match c with
  | '"' => ['\\', '"']
  | '\\' => ['\\', '\\']
  | '\x08' => ['\\', 'b']
  | '\x0c' => ['\\', 'f']
  | '\n' => ['\\', 'n']
  | '\r' => ['\\', 'r']
  | '\t' => ['\\', 't']
  | c =>
    if c.toNat < 0x20 then
      ['\\', 'u', '0', '0', Nat.digitChar (c.toNat / 16), Nat.digitChar (c.toNat % 16)]
    else [c]

/-- The characters of a string. -/
def escape (cs : List Char) : List Char := cs.flatMap escapeChar

/-- A string between its quotes. -/
def quote (s : String) : List Char := '"' :: escape s.toList ++ ['"']

/-- An integer. -/
def integerChars (n : Int) : List Char :=
  if n < 0 then '-' :: Decimal.digits n.natAbs else Decimal.digits n.natAbs

/-- A constant, number or string; nothing for any other value. -/
def scalarChars : Json → List Char
  | null => "null".toList
  | bool true => "true".toList
  | bool false => "false".toList
  | integer n => integerChars n
  | real x => x.text.toList
  | string s => quote s
  | array _ | object _ | meaningless => []

mutual

/-- A value without white space, as characters. -/
def compactChars : Json → List Char
  | array items => '[' :: compactItems items ++ [']']
  | object members => '\x7b' :: compactMembers members ++ ['\x7d']
  | j => scalarChars j

/-- Items with commas between them. -/
def compactItems : List Json → List Char
  | [] => []
  | [j] => compactChars j
  | j :: rest => compactChars j ++ ',' :: compactItems rest

/-- Members with commas between them. -/
def compactMembers : List (String × Json) → List Char
  | [] => []
  | [(name, j)] => quote name ++ ':' :: compactChars j
  | (name, j) :: rest => quote name ++ ':' :: compactChars j ++ ',' :: compactMembers rest

end

/-- A value without white space. -/
def compact (j : Json) : String := String.ofList (compactChars j)

/-- A line break and the white space that begins a line `depth` levels deep. -/
def newline (depth : Nat) : List Char := '\n' :: List.replicate (2 * depth) ' '

mutual

/-- A value over several lines, as characters. -/
def prettyChars (depth : Nat) : Json → List Char
  | array [] => ['[', ']']
  | array items => '[' :: prettyItems (depth + 1) items ++ newline depth ++ [']']
  | object [] => ['\x7b', '\x7d']
  | object members => '\x7b' :: prettyMembers (depth + 1) members ++ newline depth ++ ['\x7d']
  | j => scalarChars j

/-- Items on lines of their own, with commas between them. -/
def prettyItems (depth : Nat) : List Json → List Char
  | [] => []
  | [j] => newline depth ++ prettyChars depth j
  | j :: rest => newline depth ++ prettyChars depth j ++ ',' :: prettyItems depth rest

/-- Members on lines of their own, with commas between them. -/
def prettyMembers (depth : Nat) : List (String × Json) → List Char
  | [] => []
  | [(name, j)] => newline depth ++ quote name ++ ':' :: ' ' :: prettyChars depth j
  | (name, j) :: rest =>
    newline depth ++ quote name ++ ':' :: ' ' :: prettyChars depth j ++
      ',' :: prettyMembers depth rest

end

/-- A value over several lines. -/
def pretty (j : Json) : String := String.ofList (prettyChars 0 j)

end Estimating.Json
