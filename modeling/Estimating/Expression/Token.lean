/-
The words of a quantity expression.

* `Expression.Operator` — the four operators, with their precedence and symbol;
* `Expression.Function` — the six built-in functions, with their name and arity;
* `Expression.Word`, `Expression.Token` — a word, and a word with the offset of its first character;
* `Expression.Limits` — bounds on an expression and its result.
-/
import Estimating.Decimal.Numeral

set_option autoImplicit false

namespace Estimating.Expression

/-- An operator between two operands. -/
inductive Operator
  | add
  | sub
  | mul
  | div
deriving DecidableEq, Repr

namespace Operator

/-- The symbol that an expression writes. -/
def symbol : Operator → Char
  | add => '+'
  | sub => '-'
  | mul => '*'
  | div => '/'

/-- The operator that a character writes. -/
def ofChar? : Char → Option Operator
  | '+' => some add
  | '-' => some sub
  | '*' => some mul
  | '/' => some div
  | _ => none

/-- Products and quotients bind tighter than sums and differences. -/
def precedence : Operator → Nat
  | add | sub => 1
  | mul | div => 2

theorem ofChar?_symbol (op : Operator) : ofChar? op.symbol = some op := by cases op <;> rfl

end Operator

/-- A built-in function. -/
inductive Function
  | ceil
  | floor
  | round
  | min
  | max
  | case
deriving DecidableEq, Repr

namespace Function

/-- The name that an expression calls a function by. -/
def name : Function → String
  | ceil => "ceil"
  | floor => "floor"
  | round => "round"
  | min => "min"
  | max => "max"
  | case => "case"

/-- The function with the given name. -/
def ofName? : String → Option Function
  | "ceil" => some ceil
  | "floor" => some floor
  | "round" => some round
  | "min" => some min
  | "max" => some max
  | "case" => some case
  | _ => none

/-- How many arguments a call has. -/
def arity : Function → Nat
  | ceil | floor | round => 1
  | min | max => 2
  | case => 3

theorem ofName?_name (f : Function) : ofName? f.name = some f := by cases f <;> rfl

end Function

/-- A word of an expression. -/
inductive Word
  | number (value : Decimal)
  | variable (name : String)
  | operator (op : Operator)
  | function (f : Function)
  | leftParen
  | rightParen
  | comma
deriving DecidableEq, Repr

namespace Word

/-- A word as error messages name it. -/
def describe : Word → String
  | number x => "number " ++ x.text
  | .variable name => "variable '" ++ name ++ "'"
  | operator op => "operator '" ++ op.symbol.toString ++ "'"
  | function f => "function '" ++ f.name ++ "'"
  | leftParen => "'('"
  | rightParen => "')'"
  | comma => "','"

end Word

/-- A word and where it begins. -/
structure Token where
  word : Word
  /-- The offset of the first character. -/
  position : Nat
deriving DecidableEq, Repr

/-- Bounds on an expression and its result. -/
structure Limits where
  /-- The most characters of an expression. -/
  maxLength : Nat
  /-- The most tokens of an expression. -/
  maxTokens : Nat
  /-- Number literals lie strictly below this. -/
  maxLiteral : Decimal
  /-- Results lie between zero and this. -/
  maxResult : Decimal
deriving DecidableEq, Repr

/-- The limits in force unless others are set. -/
def Limits.standard : Limits := ⟨512, 256, .whole 1000000, .whole 100000⟩

end Estimating.Expression
