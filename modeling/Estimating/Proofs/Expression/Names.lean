/-
The names that an expression mentions are those that its value depends on.

A name is looked up where its token is reached, and nothing else looks at the bindings.  So bindings
that agree on the names of an expression give it one result.  The other way round a result is the
value of a tree whose listing holds all the tokens, and a tree has a value only where each of its
nodes has one.  So no name may be without a number, not even below a `case` that chooses another
branch: a call works out all of its arguments.

* `Expression.mem_names_iff` — the names are those of the variable tokens;
* `Expression.evalStep_congr`, `Expression.evaluate_congr` — **only the names of the tokens are
  looked up**;
* `Expression.Tree.exists_value_of_mem_nodes`, `Expression.exists_number_of_evaluate` — where there
  is a result, each node has a value and **each name stands for a number**;
* `Expression.names_exact` — both for the names of an expression.
-/
import Estimating.Proofs.Expression.Evaluation

set_option autoImplicit false

namespace Estimating.Expression

variable {bindings bindings' : Bindings} {limits : Limits}

/-- The names of an expression are those of its variable tokens. -/
theorem mem_names_iff {e : Expression} {name : String} :
    name ∈ e.names ↔ ∃ p, ⟨.variable name, p⟩ ∈ e.tokens := by
  rw [names, Std.ExtTreeSet.mem_toList, Std.ExtTreeSet.mem_ofList, List.contains_iff_mem,
    List.mem_filterMap]
  constructor
  · rintro ⟨⟨word, p⟩, ht, hname⟩
    cases word with
    | «variable» text =>
        cases hname
        exact ⟨p, ht⟩
    | _ => cases hname
  · rintro ⟨p, ht⟩
    exact ⟨_, ht, rfl⟩

/-! ### Bindings that agree -/

/-- A token is worked out alike under bindings that agree on its name, if it is one. -/
theorem evalStep_congr {t : Token}
    (h : ∀ name, t.word = .variable name → bindings[name]? = bindings'[name]?)
    (stack : List Decimal) : evalStep bindings stack t = evalStep bindings' stack t := by
  obtain ⟨word, p⟩ := t
  cases word with
  | «variable» name => simp only [evalStep, lookup, h name rfl]
  | operator op => rcases stack with _ | ⟨y, _ | ⟨x, below⟩⟩ <;> rfl
  | _ => rfl

theorem foldlM_evalStep_congr {ts : List Token}
    (h : ∀ name p, ⟨.variable name, p⟩ ∈ ts → bindings[name]? = bindings'[name]?) :
    ∀ stack, ts.foldlM (evalStep bindings) stack = ts.foldlM (evalStep bindings') stack := by
  induction ts with
  | nil => exact fun _ => rfl
  | cons t ts ih =>
      intro stack
      have hstep : evalStep bindings stack t = evalStep bindings' stack t := by
        refine evalStep_congr (fun name hname => h name t.position ?_) stack
        rw [← hname]
        exact List.mem_cons_self
      have hrest := ih fun name p hmem => h name p (List.mem_cons_of_mem _ hmem)
      rw [List.foldlM_cons, List.foldlM_cons, hstep]
      exact congrArg _ (funext hrest)

/-- **Only the names of the tokens are looked up.** -/
theorem evaluate_congr {ts : List Token}
    (h : ∀ name p, ⟨.variable name, p⟩ ∈ ts → bindings[name]? = bindings'[name]?) :
    evaluate ts bindings limits = evaluate ts bindings' limits := by
  rw [evaluate, evaluate, foldlM_evalStep_congr h]

/-! ### Names without a number -/

/-- Where a tree has a value, each of its nodes has one. -/
theorem Tree.exists_value_of_mem_nodes {t : Tree} {x : Decimal} (h : t.value bindings = .ok x) :
    ∀ s ∈ t.nodes, ∃ y, s.value bindings = .ok y := by
  intro s hs
  have hfirst := t.findSome?_nodes bindings
  rw [failure?_eq_none.2 ⟨x, h⟩, List.findSome?_eq_none_iff] at hfirst
  exact failure?_eq_none.1 (hfirst s hs)

/-- What a name stands for, where it has a value. -/
theorem lookup_eq_ok {name : String} {p : Nat} {x : Decimal} :
    lookup bindings name p = .ok x ↔ bindings[name]? = some (.number x) := by
  unfold lookup
  split <;> simp_all

/-- **Where a list of tokens has a result, each of its names stands for a number.** -/
theorem exists_number_of_evaluate {ts : List Token} {v : Decimal}
    (h : evaluate ts bindings limits = .ok v) {name : String} {p : Nat}
    (hmem : ⟨.variable name, p⟩ ∈ ts) : ∃ x, bindings[name]? = some (.number x) := by
  obtain ⟨t, y, rfl, hvalue, -⟩ := exists_tree_of_evaluate h
  rw [← t.map_root_nodes] at hmem
  obtain ⟨s, hs, hroot⟩ := List.mem_map.1 hmem
  obtain ⟨x, hx⟩ := Tree.exists_value_of_mem_nodes hvalue s hs
  -- the node is the name itself
  cases s with
  | name text q =>
      cases hroot
      exact ⟨x, lookup_eq_ok.1 hx⟩
  | _ => cases hroot

/-- **The names of an expression are what its value depends on.**  Bindings that agree on them give
the same value or the same error, whatever else they bind.  If one of the names is unbound or stands
for a tag, there is an error, whatever the other names stand for and wherever the name occurs.  This
holds of every expression that a source text compiles to, as of any other one. -/
theorem names_exact (e : Expression) :
    (∀ bindings bindings' : Bindings, (∀ name ∈ e.names, bindings[name]? = bindings'[name]?) →
      e.eval bindings = e.eval bindings') ∧
    ∀ name ∈ e.names, ∀ bindings : Bindings,
      (bindings[name]? = none ∨ ∃ text, bindings[name]? = some (.tag text)) →
      ∃ err, e.eval bindings = .error err := by
  constructor
  · intro bindings bindings' h
    exact evaluate_congr fun name p hmem => h name (mem_names_iff.2 ⟨p, hmem⟩)
  · intro name hname bindings hnone
    obtain ⟨p, hmem⟩ := mem_names_iff.1 hname
    cases heval : e.eval bindings with
    | error err => exact ⟨err, rfl⟩
    | ok v =>
        obtain ⟨x, hx⟩ := exists_number_of_evaluate heval hmem
        rw [hx] at hnone
        rcases hnone with hnone | ⟨text, htag⟩
        · cases hnone
        · cases htag

/-- A flag that is set, and further bindings. -/
def flagged (more : List (String × Binding)) : Bindings :=
  Table.ofList (("flag", .number .one) :: more)

/-- A name in the branch that `case` does not choose has to have a number, and a name that does not
occur makes no difference. -/
theorem names_exact_case :
    ∃ e, compile "case(flag, 6, wall)" .standard = .ok e ∧ e.names = ["flag", "wall"] ∧
      e.eval (flagged [("wall", .number .two)]) = .ok (.hundredths 600) ∧
      e.eval (flagged [("wall", .number .two), ("room", .tag "bath")]) = .ok (.hundredths 600) ∧
      (∃ err, e.eval (flagged []) = .error err) ∧
      ∃ err, e.eval (flagged [("wall", .tag "brick")]) = .error err := by
  let e : Expression := ⟨"case(flag, 6, wall)", [⟨.variable "flag", 5⟩, ⟨.number (.whole 6), 11⟩,
    ⟨.variable "wall", 14⟩, ⟨.function .case, 0⟩], .standard⟩
  have hcompile : compile "case(flag, 6, wall)" .standard = .ok e := by decide +kernel
  have hnames : e.names = ["flag", "wall"] := by decide +kernel
  have hwall : "wall" ∈ e.names := by simp [hnames]
  have hvalue : e.eval (flagged [("wall", .number .two)]) = .ok (.hundredths 600) := by
    decide +kernel
  have hsame : e.eval (flagged [("wall", .number .two), ("room", .tag "bath")]) =
      e.eval (flagged [("wall", .number .two)]) := by
    refine (names_exact e).1 _ _ ?_
    rw [hnames]
    decide +kernel
  obtain ⟨-, herror⟩ := names_exact e
  exact ⟨e, hcompile, hnames, hvalue, hsame.trans hvalue,
    herror "wall" hwall _ (.inl (by decide +kernel)),
    herror "wall" hwall _ (.inr ⟨"brick", by decide +kernel⟩)⟩

end Estimating.Expression
