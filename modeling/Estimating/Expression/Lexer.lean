/-
Splitting an expression into tokens.

A text is first checked as a whole: its length, then its characters, then whether it holds
anything but white space.  After that it is cut from left to right into the longest words it can be
cut into: single signs, runs of digits and points, and runs of letters, digits and underscores that
do not begin with a digit.

* `Expression.isNumberChar`, `Expression.isNameStart`, `Expression.isNameChar`,
  `Expression.isAllowed` — the character classes;
* `Expression.readLiteral` — the value of a run of digits and points;
* `Expression.firstWord` — the word at the head of a text and how many characters follow its first;
* `Expression.tokensFrom` — all tokens of a text, with their offsets;
* `Expression.tokenize` — the checks and the tokens.
-/
import Estimating.Expression.Error
import Estimating.Text.Blank

set_option autoImplicit false

namespace Estimating.Expression

/-! ### Character classes -/

/-- A character of a number. -/
def isNumberChar (c : Char) : Bool := c.isDigit || c == '.'

/-- A first character of a name. -/
def isNameStart (c : Char) : Bool := c.isAlpha || c == '_'

/-- A character of a name. -/
def isNameChar (c : Char) : Bool := c.isAlphanum || c == '_'

/-- A character that may stand in an expression. -/
def isAllowed (c : Char) : Bool :=
  c.isAlphanum || Text.isAsciiBlank c || c == '_' || c == '+' || c == '-' || c == '*' || c == '/' ||
    c == '(' || c == ')' || c == '.' || c == ','

/-! ### Words -/

/-- A run of digits and points as a plain numeral: a point at one end gets a zero beside it. -/
def fullNumeral (text : List Char) : List Char :=
  if text.head? = some '.' then '0' :: text
  else if text.getLast? = some '.' then text ++ ['0']
  else text

/-- The value of a run of digits and points. -/
def readLiteral (limit : Decimal) (text : List Char) : Except GrammarFault Decimal :=
  if text.count '.' > 1 ∨ text = ['.'] then .error (.malformedNumber (String.ofList text))
  else
    match Decimal.readPlain (fullNumeral text) with
    | .error e => .error (.invalidNumber (String.ofList text) e)
    | .ok x =>
      if x < limit then .ok x else .error (.literalTooLarge (String.ofList text) limit)

/-- Whether the next character that is no white space opens a parenthesis. -/
def opensCall (rest : List Char) : Bool := (rest.dropWhile Text.isAsciiBlank).head? == some '('

/-- What a name means: a function where a parenthesis follows, a variable elsewhere. -/
def readName (name : String) (isCall : Bool) : Except GrammarFault Word :=
  if isCall then
    match Function.ofName? name with
    | some f => .ok (.function f)
    | none => .error (.unknownFunction name)
  else .ok (.variable name)

/-- The word that begins with `c`, and how many characters of `rest` belong to it. -/
def firstWord (limits : Limits) (c : Char) (rest : List Char) : Except GrammarFault (Word × Nat) :=
  if c = '(' then .ok (.leftParen, 0)
  else if c = ')' then .ok (.rightParen, 0)
  else if c = ',' then .ok (.comma, 0)
  else if isNumberChar c then
    let more := rest.takeWhile isNumberChar
    (readLiteral limits.maxLiteral (c :: more)).map fun x => (.number x, more.length)
  else if isNameStart c then
    let more := rest.takeWhile isNameChar
    (readName (String.ofList (c :: more)) (opensCall (rest.drop more.length))).map
      fun word => (word, more.length)
  else
    match Operator.ofChar? c with
    | some op => .ok (.operator op, 0)
    | none => .error (.forbidden c)

/-! ### Token lists -/

/-- The tokens of a text that begins at offset `position`, after `count` tokens. -/
def tokensFrom (limits : Limits) (position count : Nat) :
    List Char → Except Error (List Token)
  | [] => .ok []
  | c :: rest =>
    if Text.isAsciiBlank c then tokensFrom limits (position + 1) count rest
    else
      match firstWord limits c rest with
      | .error fault => .error (.grammar position fault)
      | .ok (word, n) =>
        let next := position + 1 + n
        if count + 1 > limits.maxTokens then
          .error (.grammar next (.tooManyTokens limits.maxTokens))
        else
          (tokensFrom limits next (count + 1) (rest.drop n)).map (⟨word, position⟩ :: ·)
termination_by cs => cs.length
decreasing_by
  · rw [List.length_cons]; omega
  · rw [List.length_cons, List.length_drop]; omega

/-- The fault of a text as a whole, with its place, if it has one. -/
def sourceFault? (limits : Limits) (cs : List Char) : Option Error :=
  if cs.length > limits.maxLength then
    some (.grammar limits.maxLength (.tooLong limits.maxLength))
  else
    match cs.dropWhile isAllowed with
    | c :: _ => some (.grammar (cs.takeWhile isAllowed).length (.forbidden c))
    | [] => if cs.all Text.isAsciiBlank then some (.grammar 0 .empty) else none

/-- The tokens of an expression. -/
def tokenize (source : String) (limits : Limits) : Except Error (List Token) :=
  match sourceFault? limits source.toList with
  | some e => .error e
  | none => tokensFrom limits 0 0 source.toList

end Estimating.Expression
