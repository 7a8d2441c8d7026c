/-
Expression trees: what a list of tokens in reverse Polish order is a listing of.

A tree has numbers and names at its leaves, two trees below every operator, and below every function
exactly as many trees as it takes arguments.  Each node keeps the offset of its token, so a tree and
its listing hold the same data.

* `Expression.Tree`, `Expression.Tree.polish` — a tree, and its tokens with every node after the
  nodes below it;
* `Expression.Tree.nodes`, `Expression.Tree.map_root_nodes` — the nodes in the order of the listing;
* `Expression.Tree.value` — the value of a tree, worked out from left to right;
* `Expression.Tree.polish_append_inj` — **a listing is read in one way only**, whatever stands
  before it; in particular distinct trees have distinct listings
  (`Expression.Tree.polish_injective`);
* `Expression.Tree.findSome?_nodes` — the error of a tree is that of its first node without a value.
-/
import Estimating.Expression.Evaluation
import Mathlib.Data.Fin.Tuple.Basic
import Mathlib.Data.List.OfFn

set_option autoImplicit false

namespace Estimating.Expression

/-! ### Trees and their listings -/

/-- An expression tree. -/
inductive Tree
  | literal (value : Decimal) (position : Nat)
  | name (text : String) (position : Nat)
  | binary (op : Operator) (position : Nat) (lhs rhs : Tree)
  | call (f : Function) (position : Nat) (args : Fin f.arity → Tree)

namespace Tree

/-- The token of the topmost node. -/
def root : Tree → Token
  | literal x p => ⟨.number x, p⟩
  | name text p => ⟨.variable text, p⟩
  | binary op p _ _ => ⟨.operator op, p⟩
  | call f p _ => ⟨.function f, p⟩

/-- The listing of a tree in reverse Polish order. -/
def polish : Tree → List Token
  | literal x p => [⟨.number x, p⟩]
  | name text p => [⟨.variable text, p⟩]
  | binary op p lhs rhs => lhs.polish ++ rhs.polish ++ [⟨.operator op, p⟩]
  | call f p args => (List.ofFn fun i => (args i).polish).flatten ++ [⟨.function f, p⟩]

/-- The listing of a family of trees, one after the other. -/
def polishAll {n : Nat} (args : Fin n → Tree) : List Token :=
  (List.ofFn fun i => (args i).polish).flatten

/-- The family that begins with `first`. -/
def prepend {n : Nat} (first : Tree) (others : Fin n → Tree) : Fin (n + 1) → Tree :=
  Fin.cons first others

@[simp] theorem polish_binary (op : Operator) (p : Nat) (lhs rhs : Tree) :
    (binary op p lhs rhs).polish = lhs.polish ++ rhs.polish ++ [⟨.operator op, p⟩] := rfl

@[simp] theorem polish_call (f : Function) (p : Nat) (args : Fin f.arity → Tree) :
    (call f p args).polish = polishAll args ++ [⟨.function f, p⟩] := rfl

@[simp] theorem polishAll_zero (args : Fin 0 → Tree) : polishAll args = [] := rfl

theorem polishAll_succ {n : Nat} (args : Fin (n + 1) → Tree) :
    polishAll args = (args 0).polish ++ polishAll fun i => args i.succ := by
  simp only [polishAll, List.ofFn_succ, List.flatten_cons]

theorem polishAll_castSucc {n : Nat} (args : Fin (n + 1) → Tree) :
    polishAll args = polishAll (fun i => args i.castSucc) ++ (args (Fin.last n)).polish := by
  simp only [polishAll, List.ofFn_succ', List.concat_eq_append, List.flatten_append,
    List.flatten_cons, List.flatten_nil, List.append_nil]

@[simp] theorem polishAll_prepend {n : Nat} (first : Tree) (others : Fin n → Tree) :
    polishAll (prepend first others) = first.polish ++ polishAll others := by
  simp only [polishAll_succ, prepend, Fin.cons_zero, Fin.cons_succ]

/-- The nodes of a tree, each as the tree that it tops, in the order of the listing. -/
def nodes : Tree → List Tree
  | literal x p => [literal x p]
  | name text p => [name text p]
  | binary op p lhs rhs => lhs.nodes ++ rhs.nodes ++ [binary op p lhs rhs]
  | call f p args => (List.ofFn fun i => (args i).nodes).flatten ++ [call f p args]

/-- The listing names the nodes in their order. -/
theorem map_root_nodes (t : Tree) : t.nodes.map root = t.polish := by
  induction t with
  | literal x p => rfl
  | name text p => rfl
  | binary op p lhs rhs ihl ihr => simp [nodes, polish, root, ihl, ihr]
  | call f p args ih =>
      simp [nodes, polish, root, List.map_flatten, List.map_ofFn, Function.comp_def, ih]

/-! ### Reading a listing -/

/-- The listing of a family of known size is read in one way only, if those of its members are. -/
theorem polishAll_append_inj : ∀ {n : Nat} {args args' : Fin n → Tree} {us us' : List Token},
    (∀ i, ∀ {t : Tree} {vs vs' : List Token},
      vs ++ (args i).polish = vs' ++ t.polish → args i = t ∧ vs = vs') →
    us ++ polishAll args = us' ++ polishAll args' → args = args' ∧ us = us' := by
  intro n
  induction n with
  | zero =>
      intro args args' us us' _ h
      exact ⟨funext nofun, by simpa using h⟩
  | succ n ih =>
      intro args args' us us' read h
      rw [polishAll_castSucc, polishAll_castSucc, ← List.append_assoc, ← List.append_assoc] at h
      -- the last listing is read first, then those before it
      obtain ⟨hlast, h⟩ := read (Fin.last n) h
      obtain ⟨hinit, hus⟩ := ih (fun i => read i.castSucc) h
      refine ⟨funext fun i => ?_, hus⟩
      cases i using Fin.lastCases with
      | last => exact hlast
      | cast i => exact congrFun hinit i

/-- What a listing holds before its last token. -/
def operands : Tree → List Token
  | literal _ _ => []
  | name _ _ => []
  | binary _ _ lhs rhs => lhs.polish ++ rhs.polish
  | call _ _ args => polishAll args

theorem polish_eq_operands (t : Tree) : t.polish = t.operands ++ [t.root] := by
  cases t <;> rfl

/-- Two listings with one end have one root, and what stands before it is the same. -/
theorem root_eq_of_append {t t' : Tree} {us us' : List Token}
    (h : us ++ t.polish = us' ++ t'.polish) :
    t.root = t'.root ∧ us ++ t.operands = us' ++ t'.operands := by
  rw [polish_eq_operands, polish_eq_operands, ← List.append_assoc, ← List.append_assoc] at h
  obtain ⟨hops, hroot⟩ := List.append_inj' h rfl
  exact ⟨List.singleton_inj.1 hroot, hops⟩

/-- **A listing is read in one way only**: from its end, whatever stands before it. -/
theorem polish_append_inj (t : Tree) : ∀ {t' : Tree} {us us' : List Token},
    us ++ t.polish = us' ++ t'.polish → t = t' ∧ us = us' := by
  induction t with
  | literal x p =>
      intro t' us us' h
      obtain ⟨hroot, hops⟩ := root_eq_of_append h
      cases t' <;> simp only [root, Token.mk.injEq, Word.number.injEq, reduceCtorEq, false_and]
        at hroot
      obtain ⟨rfl, rfl⟩ := hroot
      exact ⟨rfl, by simpa [operands] using hops⟩
  | name text p =>
      intro t' us us' h
      obtain ⟨hroot, hops⟩ := root_eq_of_append h
      cases t' <;> simp only [root, Token.mk.injEq, Word.variable.injEq, reduceCtorEq, false_and]
        at hroot
      obtain ⟨rfl, rfl⟩ := hroot
      exact ⟨rfl, by simpa [operands] using hops⟩
  | binary op p lhs rhs ihl ihr =>
      intro t' us us' h
      obtain ⟨hroot, hops⟩ := root_eq_of_append h
      cases t' <;> simp only [root, Token.mk.injEq, Word.operator.injEq, reduceCtorEq, false_and]
        at hroot
      obtain ⟨rfl, rfl⟩ := hroot
      simp only [operands, ← List.append_assoc] at hops
      obtain ⟨rfl, hrest⟩ := ihr hops
      obtain ⟨rfl, hus⟩ := ihl hrest
      exact ⟨rfl, hus⟩
  | call f p args ih =>
      intro t' us us' h
      obtain ⟨hroot, hops⟩ := root_eq_of_append h
      cases t' <;> simp only [root, Token.mk.injEq, Word.function.injEq, reduceCtorEq, false_and]
        at hroot
      obtain ⟨rfl, rfl⟩ := hroot
      obtain ⟨rfl, hus⟩ := polishAll_append_inj (fun i => ih i) hops
      exact ⟨rfl, hus⟩

/-- Distinct trees have distinct listings. -/
theorem polish_injective {t t' : Tree} (h : t.polish = t'.polish) : t = t' := by
  have h' : [] ++ t.polish = [] ++ t'.polish := h
  exact (polish_append_inj t h').1

/-! ### Values -/

/-- The values of several results, the first one worked out first, up to the first error. -/
def collect {ε α : Type} : {n : Nat} → (Fin n → Except ε α) → Except ε (Fin n → α)
  | 0, _ => .ok nofun
  | _ + 1, results => do
    let first ← results 0
    let others ← collect fun i => results i.succ
    return Fin.cons first others

end Tree

/-- What a function makes of its arguments.  `ceil` and `floor` see theirs at two fraction digits,
and `case` chooses by whether the first one is zero. -/
def Function.value : (f : Function) → (Fin f.arity → Decimal) → Decimal
  | .ceil, (x : Fin 1 → Decimal) => (x 0).roundMoney.ceil
  | .floor, (x : Fin 1 → Decimal) => (x 0).roundMoney.floor
  | .round, (x : Fin 1 → Decimal) => (x 0).roundMoney
  | .min, (x : Fin 2 → Decimal) => (x 0).smaller (x 1)
  | .max, (x : Fin 2 → Decimal) => (x 0).larger (x 1)
  | .case, (x : Fin 3 → Decimal) => if (x 0).isZero then x 2 else x 1

namespace Tree

/-- The value of a tree: of everything below a node first, from left to right, then of the node.  A
call works out all of its arguments. -/
def value (bindings : Bindings) : Tree → Except Error Decimal
  | literal x _ => .ok x
  | name text p => lookup bindings text p
  | binary op p lhs rhs => do op.apply (← lhs.value bindings) (← rhs.value bindings) p
  | call f _ args => f.value <$> collect fun i => (args i).value bindings

/-- The error of a result, if it is one. -/
def failure? {ε α : Type} : Except ε α → Option ε
  | .ok _ => none
  | .error e => some e

theorem findSome?_collect {ε α β : Type} (fail : β → Option ε) : ∀ {n : Nat}
    (lists : Fin n → List β) (results : Fin n → Except ε α),
    (∀ i, (lists i).findSome? fail = failure? (results i)) →
    (List.ofFn lists).flatten.findSome? fail = failure? (collect results) := by
  intro n
  induction n with
  | zero => intro _ _ _; rfl
  | succ n ih =>
      intro lists results h
      rw [List.ofFn_succ, List.flatten_cons, List.findSome?_append, h 0,
        ih _ (fun i => results i.succ) fun i => h i.succ]
      cases h0 : results 0 with
      | error e => simp [collect, h0, failure?, bind, Except.bind]
      | ok x =>
          cases hs : collect fun i => results i.succ with
          | error e => simp [collect, h0, hs, failure?, bind, Except.bind]
          | ok xs => simp [collect, h0, hs, failure?, bind, Except.bind, pure, Except.pure]

/-- The error of a tree is that of its first node without a value, in the order of the listing. -/
theorem findSome?_nodes (bindings : Bindings) (t : Tree) :
    t.nodes.findSome? (fun s => failure? (s.value bindings)) = failure? (t.value bindings) := by
  induction t with
  | literal x p => rfl
  | name text p => simp [nodes]
  | binary op p lhs rhs ihl ihr =>
      rw [nodes, List.findSome?_append, List.findSome?_append, ihl, ihr]
      cases hl : lhs.value bindings with
      | error e => simp [value, hl, failure?, bind, Except.bind]
      | ok x =>
          cases hr : rhs.value bindings with
          | error e => simp [value, hl, hr, failure?, bind, Except.bind]
          | ok y => simp [failure?]
  | call f p args ih =>
      rw [nodes, List.findSome?_append, findSome?_collect _ _ _ ih]
      cases hs : collect fun i => (args i).value bindings with
      | error e => simp [value, hs, failure?]
      | ok xs => simp [value, hs, failure?]

end Tree
end Estimating.Expression
