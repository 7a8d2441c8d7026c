/-
What can be wrong with an expression or its evaluation.

* `Expression.GrammarFault` — the ways in which a text is no expression;
* `Expression.ArithmeticFault` — the ways in which an operation has no result;
* `Expression.Error` — an error with its place; `Expression.Error.message` is its wording and
  `Expression.Error.kind` the class it is reported under.
-/
import Estimating.Expression.Token
import Estimating.Text.Visible

set_option autoImplicit false

namespace Estimating.Expression

/-- What may come next while an expression is read. -/
inductive Expectation
  | operand
  | operator
deriving DecidableEq, Repr

/-- The words that may come next, for a message. -/
def Expectation.describe : Expectation → String
  | operand => "a number, variable, function or '('"
  | operator => "an operator, ',' or ')'"

/-- A way in which a text or a list of tokens is no expression. -/
inductive GrammarFault
  | tooLong (limit : Nat)
  | forbidden (c : Char)
  | empty
  | tooManyTokens (limit : Nat)
  | malformedNumber (text : String)
  | invalidNumber (text : String) (cause : Decimal.NumeralError)
  | literalTooLarge (text : String) (limit : Decimal)
  | unknownFunction (name : String)
  | unexpected (expected : Expectation) (found : Word)
  | strayComma
  | unmatchedParen
  | wrongArity (f : Function) (given : Nat)
  | unexpectedEnd
  | unclosedParen
  | missingOperand (word : Word)
  | unordered (word : Word)
  | noValue
  | leftOver (count : Nat)
deriving DecidableEq, Repr

/-- The wording of a grammar fault. -/
def GrammarFault.message : GrammarFault → String
  | tooLong limit => "expression is longer than " ++ toString limit ++ " characters"
  | forbidden c => "character " ++ Text.quoteChar c ++ " is not allowed"
  | empty => "empty expression"
  | tooManyTokens limit => "expression has more than " ++ toString limit ++ " tokens"
  | malformedNumber text => "malformed number '" ++ text ++ "'"
  | invalidNumber text cause => "invalid number '" ++ text ++ "': " ++ cause.message
  | literalTooLarge text limit => "number " ++ text ++ " must be below " ++ limit.text
  | unknownFunction name => "unknown function '" ++ name ++ "'"
  | unexpected expected found =>
    "expected " ++ expected.describe ++ ", found " ++ found.describe
  | strayComma => "',' outside of a function call"
  | unmatchedParen => "unmatched ')'"
  | wrongArity f given =>
    f.name ++ "() takes " ++ toString f.arity ++ " argument" ++ (if f.arity = 1 then "" else "s") ++
      ", got " ++ toString given
  | unexpectedEnd => "unexpected end of expression"
  | unclosedParen => "unclosed '('"
  | missingOperand word => "missing operand for " ++ word.describe
  | unordered word => "unexpected " ++ word.describe ++ " in compiled expression"
  | noValue => "expression produced no value"
  | leftOver count => "expression left " ++ toString count ++ " values on the stack"

/-- A way in which an operation has no result. -/
inductive ArithmeticFault
  | divisionByZero
  | overflow (lhs : Decimal) (op : Operator) (rhs : Decimal)
deriving DecidableEq, Repr

/-- The wording of an arithmetic fault. -/
def ArithmeticFault.message : ArithmeticFault → String
  | divisionByZero => "division by zero"
  | overflow lhs op rhs =>
    "overflow in " ++ lhs.text ++ " " ++ op.symbol.toString ++ " " ++ rhs.text

/-- An error of reading or evaluating an expression. -/
inductive Error
  | /-- The text or token list is no expression. -/
    grammar (position : Nat) (fault : GrammarFault)
  | /-- A name stands for nothing. -/
    unbound (name : String) (position : Nat)
  | /-- A name stands for a tag. -/
    tag (name : String) (position : Nat)
  | /-- The result is negative or too large. -/
    range (value limit : Decimal)
  | /-- An operation has no result. -/
    arithmetic (position : Nat) (fault : ArithmeticFault)
deriving DecidableEq, Repr

/-- The classes that errors are reported under. -/
inductive ErrorKind
  | grammar
  | unbound
  | tag
  | range
  | arithmetic
deriving DecidableEq, Repr

/-- The name of an error class. -/
def ErrorKind.name : ErrorKind → String
  | grammar => "SyntaxError"
  | unbound => "UndefinedVariableError"
  | tag => "TypeError"
  | range => "RangeError"
  | arithmetic => "ArithmeticError"

namespace Error

/-- The class of an error. -/
def kind : Error → ErrorKind
  | grammar .. => .grammar
  | unbound .. => .unbound
  | tag .. => .tag
  | range .. => .range
  | arithmetic .. => .arithmetic

/-- The wording of an error. -/
def message : Error → String
  | grammar position fault =>
    "Syntax error at position " ++ toString position ++ ": " ++ fault.message
  | unbound name position =>
    "Undefined variable '" ++ name ++ "' at position " ++ toString position
  | tag name position =>
    "Type error at position " ++ toString position ++ ": '" ++ name ++
      "' is a tag and cannot be used in arithmetic"
  | range value limit =>
    "Result " ++ value.text ++ " is out of range [0, " ++ limit.text ++ "]"
  | arithmetic position fault =>
    "Arithmetic error at position " ++ toString position ++ ": " ++ fault.message

end Error
end Estimating.Expression
