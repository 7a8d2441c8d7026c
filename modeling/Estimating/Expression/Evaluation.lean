/-
Evaluating a list of tokens in reverse Polish order.

Numbers go on a stack, operators and functions take their operands from it.  What is left at the
end, one number, is the result; it is rounded to two fraction digits and has to lie between zero and
the largest result.

* `Expression.lookup` — the number that a name stands for;
* `Expression.Operator.apply`, `Expression.Function.apply` — what operators and functions compute;
* `Expression.evalStep` — one token;
* `Expression.checkResult` — rounding and range of the result;
* `Expression.evaluate` — the whole list.
-/
import Estimating.Bindings
import Estimating.Expression.Error

set_option autoImplicit false

namespace Estimating.Expression

/-- The number that a name stands for. -/
def lookup (bindings : Bindings) (name : String) (position : Nat) : Except Error Decimal :=
  match bindings[name]? with
  | some (.number x) => .ok x
  | some (.tag _) => .error (.tag name position)
  | none => .error (.unbound name position)

/-- The result of an operation, if it is a decimal. -/
def Operator.compute : Operator → Decimal → Decimal → Option Decimal
  | add => Decimal.add
  | sub => Decimal.sub
  | mul => Decimal.mul
  | div => Decimal.div

/-- The result of an operation. -/
def Operator.apply (op : Operator) (lhs rhs : Decimal) (position : Nat) : Except Error Decimal :=
  if op = div ∧ rhs.isZero then .error (.arithmetic position .divisionByZero)
  else
    match op.compute lhs rhs with
    | some x => .ok x
    | none => .error (.arithmetic position (.overflow lhs op rhs))

/-- The value of a call on its arguments, the last one first, and the numbers below them; `none` if
there are too few.  `ceil` and `floor` see their argument at two fraction digits, and `case` chooses
by whether its first argument is zero. -/
def Function.apply : Function → List Decimal → Option (Decimal × List Decimal)
  | ceil, x :: below => some (x.roundMoney.ceil, below)
  | floor, x :: below => some (x.roundMoney.floor, below)
  | round, x :: below => some (x.roundMoney, below)
  | min, y :: x :: below => some (x.smaller y, below)
  | max, y :: x :: below => some (x.larger y, below)
  | case, z :: y :: x :: below => some (if x.isZero then z else y, below)
  | _, _ => none

/-- The stack, its top first, after one more token. -/
def evalStep (bindings : Bindings) (stack : List Decimal) (t : Token) :
    Except Error (List Decimal) :=
  match t.word, stack with
  | .number x, stack => .ok (x :: stack)
  | .variable name, stack => (lookup bindings name t.position).map (· :: stack)
  | .operator op, rhs :: lhs :: below => (op.apply lhs rhs t.position).map (· :: below)
  | .operator op, _ => .error (.grammar t.position (.missingOperand (.operator op)))
  | .function f, stack =>
    match f.apply stack with
    | some (x, below) => .ok (x :: below)
    | none => .error (.grammar t.position (.missingOperand (.function f)))
  | word, _ => .error (.grammar t.position (.unordered word))

/-- The number left on the stack. -/
def singleValue : List Decimal → Except Error Decimal
  | [x] => .ok x
  | [] => .error (.grammar 0 .noValue)
  | stack => .error (.grammar 0 (.leftOver stack.length))

/-- The rounded result, if it lies between zero and the limit. -/
def checkResult (limit x : Decimal) : Except Error Decimal :=
  if x.roundMoney < .zero ∨ limit < x.roundMoney then .error (.range x.roundMoney limit)
  else .ok x.roundMoney

/-- The result of a list of tokens in reverse Polish order. -/
def evaluate (tokens : List Token) (bindings : Bindings) (limits : Limits) :
    Except Error Decimal := do
  checkResult limits.maxResult (← singleValue (← tokens.foldlM (evalStep bindings) []))

end Estimating.Expression
