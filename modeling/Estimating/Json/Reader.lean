/-
Reading JSON texts.

A text is cut into tokens, and the tokens are taken one at a time by an automaton whose stack holds
the arrays and objects that are still open.  The grammar is the strict one: no comment, no comma
before a closing bracket, no control character in a string.  Numbers that are too large and halves of
surrogate pairs are within the grammar, but what holds them has no meaning.

* `Json.Token`, `Json.tokens` — the tokens of a text;
* `Json.readString`, `Json.ofCodeUnits?` — the body of a string with its escapes undone, and the
  text that it stands for;
* `Json.Progress`, `Json.Progress.step` — the automaton;
* `Json.parse` — the value of a text, which may be meaningless in parts;
* `Json.parsePlain` — the value of a text that has a meaning throughout.
-/
import Estimating.Json.Value

set_option autoImplicit false

namespace Estimating.Json

/-! ### Tokens -/

/-- A token of a JSON text.  Numbers and the three constants are values already. -/
inductive Token
  | leftBrace
  | rightBrace
  | leftBracket
  | rightBracket
  | colon
  | comma
  | /-- A string, with its text if it stands for one. -/
    text (s : Option String)
  | scalar (value : Json)
deriving Repr

/-- White space between tokens. -/
def isSpace (c : Char) : Bool := c == ' ' || c == '\n' || c == '\t' || c == '\r'

/-- The value of a hexadecimal digit. -/
def hexValue? (c : Char) : Option Nat :=
  if c.isDigit then some (c.toNat - '0'.toNat)
  else if 'a' ≤ c ∧ c ≤ 'f' then some (c.toNat - 'a'.toNat + 10)
  else if 'A' ≤ c ∧ c ≤ 'F' then some (c.toNat - 'A'.toNat + 10)
  else none

/-- The value of four hexadecimal digits. -/
def hexValue4? (a b c d : Char) : Option Nat := do
  return (((← hexValue? a) * 16 + (← hexValue? b)) * 16 + (← hexValue? c)) * 16 + (← hexValue? d)

/-- The character of an escape of one letter. -/
def unescape? : Char → Option Char
  | '"' => some '"'
  | '\\' => some '\\'
  | '/' => some '/'
  | 'b' => some '\x08'
  | 'f' => some '\x0c'
  | 'n' => some '\n'
  | 'r' => some '\r'
  | 't' => some '\t'
  | _ => none

/-- A unit in front of what has been read. -/
def push (n : Nat) : Option (List Nat × List Char) → Option (List Nat × List Char)
  | some (s, rest) => some (n :: s, rest)
  | none => none

theorem exists_of_push {n : Nat} {r : Option (List Nat × List Char)} {s : List Nat}
    {rest : List Char} (h : push n r = some (s, rest)) : ∃ s', r = some (s', rest) := by
  match r with
  | none => cases h
  | some (s', _) => cases h; exact ⟨s', rfl⟩

/-- Reads a string after its opening quote: the code points of its characters and the code units of
its escapes, and what follows the closing quote. -/
def readString : List Char → Option (List Nat × List Char)
  | '"' :: rest => some ([], rest)
  | '\\' :: 'u' :: a :: b :: c :: d :: rest =>
    match hexValue4? a b c d with
    | some n => push n (readString rest)
    | none => none
  | '\\' :: e :: rest =>
    match unescape? e with
    | some x => push x.toNat (readString rest)
    | none => none
  | c :: rest =>
    if c.toNat < 0x20 ∨ c = '\\' then none
    else push c.toNat (readString rest)
  | [] => none

theorem length_readString {cs : List Char} {s : List Nat} {rest : List Char}
    (h : readString cs = some (s, rest)) : rest.length < cs.length := by
  fun_induction readString cs generalizing s rest <;> (try simp only [List.length_cons] at *) <;>
    grind [exists_of_push]

/-- Whether a code unit is the first half of a surrogate pair. -/
def isHighSurrogate (n : Nat) : Bool := 0xd800 ≤ n && n ≤ 0xdbff

/-- Whether a code unit is the second half of a surrogate pair. -/
def isLowSurrogate (n : Nat) : Bool := 0xdc00 ≤ n && n ≤ 0xdfff

/-- The characters of code points and code units, unless there is a half of a surrogate pair without
the other half. -/
def ofCodeUnits? : List Nat → Option (List Char)
  | [] => some []
  | [n] => if isHighSurrogate n ∨ isLowSurrogate n then none else some [Char.ofNat n]
  | n :: m :: rest =>
    if isHighSurrogate n ∧ isLowSurrogate m then
      (ofCodeUnits? rest).map (Char.ofNat (0x10000 + (n - 0xd800) * 0x400 + (m - 0xdc00)) :: ·)
    else if isHighSurrogate n ∨ isLowSurrogate n then none
    else (ofCodeUnits? (m :: rest)).map (Char.ofNat n :: ·)

/-- A character of a number or a constant. -/
def isBare (c : Char) : Bool := c.isAlphanum || c == '+' || c == '-' || c == '.'

/-- The constant or number that a run of characters writes. -/
def bare? (cs : List Char) : Option Json :=
  if cs = "null".toList then some null
  else if cs = "true".toList then some (bool true)
  else if cs = "false".toList then some (bool false)
  else (Numeral.ofChars? cs).map fun n => n.toJson?.getD meaningless

/-- The token that a sign writes. -/
def sign? : Char → Option Token
  | '\x7b' => some .leftBrace
  | '\x7d' => some .rightBrace
  | '[' => some .leftBracket
  | ']' => some .rightBracket
  | ':' => some .colon
  | ',' => some .comma
  | _ => none

/-- The tokens of a text. -/
def tokens : List Char → Option (List Token)
  | [] => some []
  | c :: rest =>
    if isSpace c then tokens rest
    else
      match sign? c with
      | some t => (tokens rest).map (t :: ·)
      | none =>
        if c = '"' then
          match _h : readString rest with
          | some (s, rest') =>
            (tokens rest').map (.text ((ofCodeUnits? s).map String.ofList) :: ·)
          | none => none
        else if isBare c then
          let more := rest.takeWhile isBare
          match bare? (c :: more) with
          | some j => (tokens (rest.drop more.length)).map (.scalar j :: ·)
          | none => none
        else none
termination_by cs => cs.length
decreasing_by
  · rw [List.length_cons]; omega
  · rw [List.length_cons]; omega
  · have := length_readString _h
    rw [List.length_cons]; omega
  · rw [List.length_cons, List.length_drop]; omega

/-! ### The automaton -/

/-- The members of an object that is being read, the last one first.  A name may be a string that
stands for no text. -/
abbrev NamedValues := List (Option String × Json)

/-- An array or object that is still open, with what it holds so far, the last entry first. -/
inductive Open
  | array (items : List Json)
  | /-- An object; a value for `name` comes next. -/
    object (members : NamedValues) (name : Option String)
deriving Repr

/-- How far a text has been read. -/
inductive Progress
  | /-- A value comes next. -/
    value (outer : List Open)
  | /-- An array has been opened. -/
    firstItem (outer : List Open)
  | /-- An object has been opened. -/
    firstName (outer : List Open)
  | /-- The name of a further member comes next. -/
    name (members : NamedValues) (outer : List Open)
  | /-- The colon after a name comes next. -/
    colon (members : NamedValues) (name : Option String) (outer : List Open)
  | /-- A value is complete. -/
    complete (value : Json) (outer : List Open)
deriving Repr

/-- The object with the given members, the last one first. -/
def ofNamedValues (members : NamedValues) : Json :=
  match members.reverse.mapM fun m => m.1.map fun name => (name, m.2) with
  | some members => object members
  | none => meaningless

/-- The first token of a value. -/
def Progress.begin (outer : List Open) : Token → Option Progress
  | .text (some s) => some (.complete (string s) outer)
  | .text none => some (.complete meaningless outer)
  | .scalar j => some (.complete j outer)
  | .leftBracket => some (.firstItem outer)
  | .leftBrace => some (.firstName outer)
  | _ => none

/-- One token. -/
def Progress.step (p : Progress) (t : Token) : Option Progress :=
  match p, t with
  | .value outer, t => Progress.begin outer t
  | .firstItem outer, .rightBracket => some (.complete (.array []) outer)
  | .firstItem outer, t => Progress.begin (.array [] :: outer) t
  | .firstName outer, .rightBrace => some (.complete (.object []) outer)
  | .firstName outer, .text s => some (.colon [] s outer)
  | .name members outer, .text s => some (.colon members s outer)
  | .colon members s outer, .colon => some (.value (.object members s :: outer))
  | .complete j (.array items :: outer), .comma => some (.value (.array (j :: items) :: outer))
  | .complete j (.array items :: outer), .rightBracket =>
    some (.complete (.array (j :: items).reverse) outer)
  | .complete j (.object members s :: outer), .comma => some (.name ((s, j) :: members) outer)
  | .complete j (.object members s :: outer), .rightBrace =>
    some (.complete (ofNamedValues ((s, j) :: members)) outer)
  | _, _ => none

/-- The value of a text.  Parts of it may have no meaning. -/
def parse (text : String) : Option Json := do
  match ← (← tokens text.toList).foldlM Progress.step (.value []) with
  | .complete j [] => some j
  | _ => none

/-- The value of a text, if it has a meaning throughout and is not nested too deep. -/
def parsePlain (text : String) : Option Json := (parse text).filter isPlain

end Estimating.Json
