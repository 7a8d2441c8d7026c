/-
Expressions ready for evaluation.

* `Expression` — a source text with its tokens in reverse Polish order and the limits it was
  compiled under;
* `Expression.compile`, `Expression.eval` — tokenize and reorder once, evaluate as often as needed;
* `Expression.names` — the names that an expression mentions, in order;
* `Expression.evalText` — both steps for a text.
-/
import Estimating.Expression.Evaluation
import Estimating.Expression.Lexer
import Estimating.Expression.ReversePolish
import Std.Data.ExtTreeSet

set_option autoImplicit false

namespace Estimating

/-- A compiled expression. -/
structure Expression where
  source : String
  /-- The tokens in reverse Polish order. -/
  tokens : List Expression.Token
  limits : Expression.Limits
deriving DecidableEq, Repr

namespace Expression

/-- Compiles a source text. -/
def compile (source : String) (limits : Limits) : Except Error Expression := do
  let tokens ← tokenize source limits
  let tokens ← reversePolish tokens
  return ⟨source, tokens, limits⟩

/-- The value of an expression. -/
def eval (e : Expression) (bindings : Bindings) : Except Error Decimal :=
  evaluate e.tokens bindings e.limits

/-- The name of a variable token. -/
def Token.variableName? (t : Token) : Option String :=
  match t.word with
  | .variable name => some name
  | _ => none

/-- The names that an expression mentions, each once and in order. -/
def names (e : Expression) : List String :=
  (Std.ExtTreeSet.ofList (e.tokens.filterMap Token.variableName?)).toList

/-- The value of a source text. -/
def evalText (source : String) (bindings : Bindings) (limits : Limits) : Except Error Decimal := do
  (← compile source limits).eval bindings

end Expression
end Estimating
