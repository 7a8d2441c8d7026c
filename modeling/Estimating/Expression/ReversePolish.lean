/-
Putting the tokens of an expression into reverse Polish order.

The tokens are taken one at a time.  Numbers and variables go to the output at once; operators,
functions and opening parentheses wait on a stack until what they apply to is complete.  For every
open parenthesis a frame tells which function it belongs to, if any, and counts the arguments.

* `Expression.Arrangement` — the state between two tokens;
* `Expression.Arrangement.step` — one token;
* `Expression.Arrangement.finish` — the end of the list;
* `Expression.reversePolish` — the whole list.
-/
import Estimating.Expression.Error

set_option autoImplicit false

namespace Estimating.Expression

/-- An open parenthesis. -/
structure Frame where
  /-- The function whose arguments it opens. -/
  call : Option Function
  /-- How many arguments have begun. -/
  arguments : Nat
  /-- Where it stands. -/
  position : Nat
deriving DecidableEq, Repr

/-- The state between two tokens. -/
structure Arrangement where
  /-- What has been put out, the last token first. -/
  output : List Token
  /-- What waits, the last token first. -/
  stack : List Token
  /-- The open parentheses, the innermost first. -/
  frames : List Frame
  /-- What may come next. -/
  expected : Expectation
  /-- The function that the next parenthesis belongs to. -/
  pending : Option Function
  /-- One past the offset of the last token. -/
  ending : Nat
deriving DecidableEq, Repr

namespace Arrangement

/-- Nothing read yet. -/
def start : Arrangement := ⟨[], [], [], .operand, none, 0⟩

/-- Checks that a token comes where it may. -/
def require (s : Arrangement) (wanted : Expectation) (t : Token) : Except Error Unit :=
  if s.expected = wanted then .ok ()
  else .error (.grammar t.position (.unexpected s.expected t.word))

/-- Puts out what waits above the innermost open parenthesis; it stays on top.  Without one there
is the given fault. -/
def flushToParen (s : Arrangement) (position : Nat) (fault : GrammarFault) :
    Except Error Arrangement :=
  let waiting := s.stack.takeWhile (·.word ≠ .leftParen)
  match s.stack.drop waiting.length with
  | [] => .error (.grammar position fault)
  | below => .ok { s with output := waiting.reverse ++ s.output, stack := below }

/-- Whether a waiting token is applied before an operator of the given precedence. -/
def bindsFirst (precedence : Nat) (t : Token) : Bool :=
  match t.word with
  | .operator op => precedence ≤ op.precedence
  | _ => false

/-- Puts out a number or variable. -/
def operand (s : Arrangement) (t : Token) : Except Error Arrangement := do
  s.require .operand t
  return { s with output := t :: s.output, expected := .operator }

/-- Lets a function wait for its parenthesis. -/
def function (s : Arrangement) (f : Function) (t : Token) : Except Error Arrangement := do
  s.require .operand t
  return { s with stack := t :: s.stack, pending := some f }

/-- Opens a parenthesis, which belongs to the pending function. -/
def openParen (s : Arrangement) (t : Token) : Except Error Arrangement := do
  s.require .operand t
  return { s with
    stack := t :: s.stack, frames := ⟨s.pending, 1, t.position⟩ :: s.frames, pending := none }

/-- Ends an argument of a call. -/
def comma (s : Arrangement) (t : Token) : Except Error Arrangement := do
  s.require .operator t
  let s ← s.flushToParen t.position .strayComma
  match s.frames with
  | ⟨some f, n, p⟩ :: outer =>
    return { s with frames := ⟨some f, n + 1, p⟩ :: outer, expected := .operand }
  | _ => throw (.grammar t.position .strayComma)

/-- Closes the innermost parenthesis; a call is put out once its arguments are complete. -/
def closeParen (s : Arrangement) (t : Token) : Except Error Arrangement := do
  s.require .operator t
  let s ← s.flushToParen t.position .unmatchedParen
  match s.frames with
  | [] => throw (.grammar t.position .unmatchedParen)
  | ⟨none, _, _⟩ :: outer =>
    return { s with stack := s.stack.tail, frames := outer, expected := .operator }
  | ⟨some f, n, p⟩ :: outer =>
    if n = f.arity then
      return { s with
        output := s.stack.tail.take 1 ++ s.output, stack := s.stack.tail.tail,
        frames := outer, expected := .operator }
    else throw (.grammar p (.wrongArity f n))

/-- Lets an operator wait, after those that are applied before it. -/
def operator (s : Arrangement) (op : Operator) (t : Token) : Except Error Arrangement := do
  s.require .operator t
  let first := s.stack.takeWhile (bindsFirst op.precedence)
  return { s with
    output := first.reverse ++ s.output, stack := t :: s.stack.drop first.length,
    expected := .operand }

/-- One token. -/
def step (s : Arrangement) (t : Token) : Except Error Arrangement :=
  let s := { s with ending := t.position + 1 }
  match t.word with
  | .number _ | .variable _ => s.operand t
  | .function f => s.function f t
  | .leftParen => s.openParen t
  | .comma => s.comma t
  | .rightParen => s.closeParen t
  | .operator op => s.operator op t

/-- The output after the last token. -/
def finish (s : Arrangement) : Except Error (List Token) :=
  if s.expected = .operand then .error (.grammar s.ending .unexpectedEnd)
  else
    match s.stack.find? (·.word = .leftParen) with
    | some t => .error (.grammar t.position .unclosedParen)
    | none => .ok (s.output.reverse ++ s.stack)

end Arrangement

/-- A list of tokens in reverse Polish order. -/
def reversePolish (tokens : List Token) : Except Error (List Token) := do
  (← tokens.foldlM Arrangement.step .start).finish

end Estimating.Expression
