/-
Evaluating a list of tokens is evaluating the tree that it lists.

Run from left to right, the listing of a tree puts the value of the tree on the stack, whatever lies
there already, or ends with the error of the tree.  The other way round, whatever a list of tokens
puts on the stack are values of trees, and the list is made of the listings of these trees.

* `Expression.Function.apply_eq_some_iff` — a function finds its arguments on the stack, the last
  one first;
* `Expression.Tree.foldlM_polish` — **a listing computes the value of its tree**;
* `Expression.exists_trees` — what a list of tokens leaves on the stack are values of trees;
* `Expression.exists_derivation_of_compile` — what a source text was compiled from;
* `Expression.evaluate_iff_tree` — **the lists with a result are the listings of trees** whose value
  lies in range after rounding; an error is that of the first failing node, and no compiled
  expression fails by the grammar.
-/
import Estimating.Expression.Compiled
import Estimating.Proofs.Expression.ReversePolish

set_option autoImplicit false

namespace Estimating.Expression

/-! ### Functions and their arguments -/

theorem Function.apply_args (f : Function) (xs : Fin f.arity → Decimal) (below : List Decimal) :
    f.apply ((List.ofFn xs).reverse ++ below) = some (f.value xs, below) := by
  cases f <;> rfl

/-- A function finds its arguments on the stack, the last one first. -/
theorem Function.apply_eq_some_iff {f : Function} {stack below : List Decimal} {x : Decimal} :
    f.apply stack = some (x, below) ↔
      ∃ xs : Fin f.arity → Decimal, stack = (List.ofFn xs).reverse ++ below ∧ x = f.value xs := by
  constructor
  · intro h
    have harity : f.arity ≤ stack.length := by
      unfold Function.apply at h
      split at h <;> simp_all [Function.arity]
    let args := (stack.take f.arity).reverse
    have hargs : args.length = f.arity := by simp [args, harity]
    let xs : Fin f.arity → Decimal := fun i => args.get (i.cast hargs.symm)
    have hxs : List.ofFn xs = args := by
      refine List.ext_getElem (by simp [hargs]) ?_
      intro i h₁ h₂
      simp [xs]
    have hstack : (List.ofFn xs).reverse ++ stack.drop f.arity = stack := by
      rw [hxs, List.reverse_reverse, List.take_append_drop]
    have happly := f.apply_args xs (stack.drop f.arity)
    rw [hstack, h, Option.some.injEq, Prod.mk.injEq] at happly
    exact ⟨_, by rw [happly.2, hstack], happly.1⟩
  · rintro ⟨xs, rfl, rfl⟩
    exact f.apply_args xs below

/-! ### One token -/

variable {bindings : Bindings}

theorem evalStep_operator (op : Operator) (p : Nat) (x y : Decimal) (st : List Decimal) :
    evalStep bindings (y :: x :: st) ⟨.operator op, p⟩ = (op.apply x y p).map (· :: st) := rfl

theorem evalStep_function (f : Function) (p : Nat) (xs : Fin f.arity → Decimal)
    (st : List Decimal) :
    evalStep bindings ((List.ofFn xs).reverse ++ st) ⟨.function f, p⟩ = .ok (f.value xs :: st) := by
  simp only [evalStep, f.apply_args xs st]

/-! ### From trees to values -/

namespace Tree

/-- The listings of several trees put their values on the stack, the last one on top. -/
theorem foldlM_polishAll : ∀ {n : Nat} (args : Fin n → Tree),
    (∀ i st, (args i).polish.foldlM (evalStep bindings) st =
      ((args i).value bindings).map (· :: st)) →
    ∀ st, (polishAll args).foldlM (evalStep bindings) st =
      (collect fun i => (args i).value bindings).map fun xs => (List.ofFn xs).reverse ++ st := by
  intro n
  induction n with
  | zero => intro args _ st; rfl
  | succ n ih =>
      intro args h st
      rw [polishAll_succ, List.foldlM_append, h 0 st]
      cases h0 : (args 0).value bindings with
      | error e => simp [collect, h0, Except.map, bind, Except.bind]
      | ok x =>
          have hrest := ih (fun i => args i.succ) (fun i => h i.succ) (x :: st)
          cases hs : collect fun i => (args i.succ).value bindings with
          | error e => simp [collect, h0, hs, hrest, Except.map, bind, Except.bind]
          | ok xs =>
              simp [collect, h0, hs, hrest, Except.map, bind, Except.bind, pure, Except.pure,
                List.ofFn_succ]

/-- **A listing computes the value of its tree**, on top of what lies on the stack. -/
theorem foldlM_polish (t : Tree) : ∀ st,
    t.polish.foldlM (evalStep bindings) st = (t.value bindings).map (· :: st) := by
  induction t with
  | literal x p => intro st; rfl
  | name text p =>
      intro st
      simp only [polish, value, List.foldlM_cons, List.foldlM_nil, bind_pure]
      rfl
  | binary op p lhs rhs ihl ihr =>
      intro st
      rw [polish_binary, List.foldlM_append, List.foldlM_append, ihl, value]
      cases hl : lhs.value bindings with
      | error e => rfl
      | ok x =>
          show (rhs.polish.foldlM (evalStep bindings) (x :: st) >>= _) = _
          rw [ihr]
          cases hr : rhs.value bindings with
          | error e => rfl
          | ok y =>
              show [_].foldlM (evalStep bindings) (y :: x :: st) = _
              rw [List.foldlM_cons, evalStep_operator]
              cases hop : op.apply x y p with
              | error e => simp [hop, bind, Except.bind, Except.map]
              | ok z => simp [hop, bind, Except.bind, Except.map, pure, Except.pure]
  | call f p args ih =>
      intro st
      rw [polish_call, List.foldlM_append, foldlM_polishAll args ih, value]
      cases hs : collect fun i => (args i).value bindings with
      | error e => rfl
      | ok xs =>
          show [_].foldlM (evalStep bindings) ((List.ofFn xs).reverse ++ st) = _
          rw [List.foldlM_cons, evalStep_function]
          rfl

end Tree

/-- Evaluating a listing is evaluating the tree. -/
theorem evaluate_polish (t : Tree) (limits : Limits) :
    evaluate t.polish bindings limits =
      t.value bindings >>= checkResult limits.maxResult := by
  rw [evaluate, t.foldlM_polish]
  cases t.value bindings with
  | error e => rfl
  | ok x => rfl

/-! ### From values to trees -/

/-- Trees and their values, both with the last one first. -/
def Valued (bindings : Bindings) (trees : List Tree) (stack : List Decimal) : Prop :=
  List.Forall₂ (fun t x => t.value bindings = .ok x) trees stack

/-- The listings of some trees, the last one given first. -/
def listings : List Tree → List Token
  | [] => []
  | t :: below => listings below ++ t.polish

theorem Tree.collect_ok {n : Nat} {results : Fin n → Except Error Decimal}
    {xs : Fin n → Decimal} (h : ∀ i, results i = .ok (xs i)) : collect results = .ok xs := by
  induction n with
  | zero => exact congrArg Except.ok (funext nofun)
  | succ n ih =>
      have hothers : collect (fun i => results i.succ) = .ok fun i => xs i.succ :=
        ih fun i => h i.succ
      simp only [collect, h 0, hothers, bind, Except.bind, pure, Except.pure]
      exact congrArg Except.ok (Fin.cons_self_tail xs)

/-- The arguments of a function are values of trees, one after the other in the listing. -/
theorem Valued.exists_args {n : Nat} : ∀ {xs : Fin n → Decimal} {trees : List Tree}
    {below : List Decimal}, Valued bindings trees ((List.ofFn xs).reverse ++ below) →
    ∃ (args : Fin n → Tree) (others : List Tree), (∀ i, (args i).value bindings = .ok (xs i)) ∧
      Valued bindings others below ∧ listings trees = listings others ++ Tree.polishAll args := by
  induction n with
  | zero =>
      intro xs trees below h
      exact ⟨fun i => i.elim0, trees, fun i => i.elim0, by simpa using h, by simp⟩
  | succ n ih =>
      intro xs trees below h
      rw [List.ofFn_succ, List.reverse_cons, List.append_assoc, List.singleton_append] at h
      obtain ⟨args, others, hargs, hothers, hlist⟩ := ih h
      -- the first argument lies below the others
      cases hothers with
      | @cons t _ others _ ht hbelow =>
          refine ⟨Tree.prepend t args, others, ?_, hbelow, ?_⟩
          · intro i
            cases i using Fin.cases with
            | zero => exact ht
            | succ i => exact hargs i
          · rw [hlist, Tree.polishAll_prepend, listings, List.append_assoc]

/-- One token makes one tree of those before it, or adds one. -/
theorem Valued.step {trees : List Tree} {stack stack' : List Decimal} {t : Token}
    (h : Valued bindings trees stack) (hstep : evalStep bindings stack t = .ok stack') :
    ∃ trees', Valued bindings trees' stack' ∧ listings trees' = listings trees ++ [t] := by
  obtain ⟨w, p⟩ := t
  cases w with
  | number x =>
      cases hstep
      exact ⟨.literal x p :: trees, .cons rfl h, rfl⟩
  | «variable» name =>
      obtain ⟨x, hx, rfl⟩ := Except.map_eq_ok.1 hstep
      exact ⟨.name name p :: trees, .cons hx h, rfl⟩
  | operator op =>
      cases h with
      | nil => cases hstep
      | @cons rhs y _ _ hy h =>
          cases h with
          | nil => cases hstep
          | @cons lhs x others below hx h =>
              rw [evalStep_operator] at hstep
              obtain ⟨z, hz, rfl⟩ := Except.map_eq_ok.1 hstep
              refine ⟨.binary op p lhs rhs :: others, .cons ?_ h, ?_⟩
              · simp only [Tree.value, hx, hy, bind, Except.bind, hz]
              · simp [listings]
  | function f =>
      simp only [evalStep] at hstep
      split at hstep
      · next x below happly =>
          cases hstep
          obtain ⟨xs, rfl, rfl⟩ := Function.apply_eq_some_iff.1 happly
          obtain ⟨args, others, hargs, hothers, hlist⟩ := h.exists_args
          refine ⟨.call f p args :: others, .cons ?_ hothers, ?_⟩
          · simp only [Tree.value, Tree.collect_ok hargs]
            rfl
          · rw [hlist, listings, Tree.polish_call, List.append_assoc]
      · cases hstep
  | leftParen => cases hstep
  | rightParen => cases hstep
  | comma => cases hstep

/-- What a list of tokens leaves on the stack are values of trees, and the list is made of their
listings. -/
theorem exists_trees {ts : List Token} : ∀ {trees : List Tree} {stack stack' : List Decimal},
    Valued bindings trees stack → ts.foldlM (evalStep bindings) stack = .ok stack' →
    ∃ trees', Valued bindings trees' stack' ∧ listings trees' = listings trees ++ ts := by
  induction ts with
  | nil =>
      intro trees stack stack' h hrun
      cases hrun
      exact ⟨trees, h, (List.append_nil _).symm⟩
  | cons t ts ih =>
      intro trees stack stack' h hrun
      rw [List.foldlM_cons] at hrun
      obtain ⟨stack₁, hstep, hrun⟩ := Except.bind_eq_ok.1 hrun
      obtain ⟨trees₁, h₁, hlist₁⟩ := h.step hstep
      obtain ⟨trees', h', hlist'⟩ := ih h₁ hrun
      exact ⟨trees', h', by rw [hlist', hlist₁, List.append_assoc, List.singleton_append]⟩

theorem singleValue_eq_ok {stack : List Decimal} {x : Decimal} :
    singleValue stack = .ok x ↔ stack = [x] := by
  unfold singleValue
  split <;> simp_all

theorem checkResult_eq_ok {limit x v : Decimal} :
    checkResult limit x = .ok v ↔ v = x.roundMoney ∧ .zero ≤ v ∧ v ≤ limit := by
  unfold checkResult
  split
  · next h =>
      refine ⟨nofun, ?_⟩
      rintro ⟨rfl, hlo, hhi⟩
      rcases h with h | h
      · exact absurd hlo (Decimal.not_le.2 h)
      · exact absurd hhi (Decimal.not_le.2 h)
  · next h =>
      rw [not_or, Decimal.not_lt, Decimal.not_lt] at h
      constructor
      · intro hv
        cases hv
        exact ⟨rfl, h⟩
      · rintro ⟨rfl, -⟩
        rfl

/-- A list with a result is the listing of a tree with a value. -/
theorem exists_tree_of_evaluate {ts : List Token} {limits : Limits} {v : Decimal}
    (h : evaluate ts bindings limits = .ok v) :
    ∃ (t : Tree) (x : Decimal), t.polish = ts ∧ t.value bindings = .ok x ∧
      checkResult limits.maxResult x = .ok v := by
  rw [evaluate] at h
  obtain ⟨stack, hrun, h⟩ := Except.bind_eq_ok.1 h
  obtain ⟨x, hx, hv⟩ := Except.bind_eq_ok.1 h
  obtain rfl := singleValue_eq_ok.1 hx
  have hnil : Valued bindings [] [] := .nil
  obtain ⟨trees, htrees, hlist⟩ := exists_trees hnil hrun
  cases htrees with
  | @cons t _ _ _ ht hrest =>
      cases hrest
      exact ⟨t, x, by simpa [listings] using hlist, ht, hv⟩

/-! ### Errors -/

theorem lookup_error {name : String} {p : Nat} {e : Error}
    (h : lookup bindings name p = .error e) : e = .unbound name p ∨ e = .tag name p := by
  unfold lookup at h
  split at h <;> cases h
  · exact .inr rfl
  · exact .inl rfl

/-- The operator that has no result. -/
def ArithmeticFault.operator : ArithmeticFault → Operator
  | divisionByZero => .div
  | overflow _ op _ => op

theorem Operator.apply_error {op : Operator} {x y : Decimal} {p : Nat} {e : Error}
    (h : op.apply x y p = .error e) : ∃ fault, e = .arithmetic p fault ∧ fault.operator = op := by
  unfold Operator.apply at h
  split at h
  · next hdiv =>
      cases h
      exact ⟨_, rfl, hdiv.1.symm⟩
  · split at h <;> cases h
    exact ⟨_, rfl, rfl⟩

theorem checkResult_error {limit x : Decimal} {e : Error} (h : checkResult limit x = .error e) :
    e = .range x.roundMoney limit := by
  unfold checkResult at h
  split at h <;> cases h
  rfl

namespace Tree

/-- The error of several results is the error of one of them. -/
theorem exists_of_collect_error {n : Nat} {results : Fin n → Except Error Decimal} {e : Error}
    (h : collect results = .error e) : ∃ i, results i = .error e := by
  induction n with
  | zero => cases h
  | succ n ih =>
      rcases Except.bind_eq_error.1 h with h | ⟨x, _, h⟩
      · exact ⟨0, h⟩
      · rcases Except.bind_eq_error.1 h with h | ⟨xs, _, h⟩
        · obtain ⟨i, hi⟩ := ih h
          exact ⟨i.succ, hi⟩
        · cases h

/-- No tree fails by the grammar. -/
theorem value_kind {t : Tree} {e : Error} (h : t.value bindings = .error e) :
    e.kind ≠ .grammar := by
  induction t with
  | literal x p => cases h
  | name text p => rcases lookup_error h with rfl | rfl <;> exact nofun
  | binary op p lhs rhs ihl ihr =>
      rcases Except.bind_eq_error.1 h with h | ⟨x, _, h⟩
      · exact ihl h
      · rcases Except.bind_eq_error.1 h with h | ⟨y, _, h⟩
        · exact ihr h
        · obtain ⟨fault, rfl, -⟩ := Operator.apply_error h
          exact nofun
  | call f p args ih =>
      obtain ⟨i, hi⟩ := exists_of_collect_error (Except.map_eq_error.1 h)
      exact ih i hi

theorem failure?_eq_some {ε α : Type} {r : Except ε α} {e : ε} :
    failure? r = some e ↔ r = .error e := by
  cases r <;> simp [failure?]

theorem failure?_eq_none {ε α : Type} {r : Except ε α} :
    failure? r = none ↔ ∃ x, r = .ok x := by
  cases r <;> simp [failure?]

/-- A tree without a value has a first node without one, and fails as that node does. -/
theorem exists_first_failure {t : Tree} {e : Error} (h : t.value bindings = .error e) :
    ∃ before s after, t.nodes = before ++ s :: after ∧ s.value bindings = .error e ∧
      ∀ s' ∈ before, ∃ x, s'.value bindings = .ok x := by
  have hfirst := t.findSome?_nodes bindings
  rw [failure?_eq_some.2 h] at hfirst
  obtain ⟨before, s, after, hnodes, hs, hbefore⟩ := List.findSome?_eq_some_iff.1 hfirst
  refine ⟨before, s, after, hnodes, failure?_eq_some.1 hs, ?_⟩
  intro s' hs'
  exact failure?_eq_none.1 (hbefore s' hs')

end Tree

/-! ### Compiled expressions -/

/-- What a source text was compiled from. -/
theorem exists_derivation_of_compile {source : String} {limits : Limits} {e : Expression}
    (h : compile source limits = .ok e) : ∃ d : Derivation .expr,
      tokenize source limits = .ok d.yield ∧ e = ⟨source, d.tree.polish, limits⟩ := by
  obtain ⟨ts, hts, h⟩ := Except.bind_eq_ok.1 h
  obtain ⟨out, hout, h⟩ := Except.bind_eq_ok.1 h
  cases h
  obtain ⟨d, rfl⟩ := exists_yield_of_reversePolish (callsOpen_of_tokenize hts) hout
  obtain rfl := Except.ok.inj ((reversePolish_yield d).symm.trans hout)
  exact ⟨d, hts, rfl⟩

/-- A compiled expression never fails by the grammar. -/
theorem eval_kind {source : String} {limits : Limits} {e : Expression} {err : Error}
    (h : compile source limits = .ok e) (herr : e.eval bindings = .error err) :
    err.kind ≠ .grammar := by
  obtain ⟨d, -, rfl⟩ := exists_derivation_of_compile h
  have heval : evaluate d.tree.polish bindings limits = _ := evaluate_polish d.tree limits
  rcases Except.bind_eq_error.1 (heval.symm.trans herr) with hval | ⟨x, _, hcheck⟩
  · exact Tree.value_kind hval
  · rw [checkResult_error hcheck]
    exact nofun

/-! ### Lists with a result -/

/-- **The lists of tokens with a result are the listings of trees** whose value, rounded to two
fraction digits, lies between zero and the limit.  A tree is known from its listing; where it has no
value, the error is that of its first node without one.  A compiled expression never fails by the
grammar. -/
theorem evaluate_iff_tree :
    (∀ rpn bindings limits,
      (∀ t t' : Tree, t.polish = rpn → t'.polish = rpn → t = t') ∧
      (∀ v, evaluate rpn bindings limits = .ok v ↔
        ∃ (t : Tree) (x : Decimal), t.polish = rpn ∧ t.value bindings = .ok x ∧
          v = x.roundMoney ∧ .zero ≤ v ∧ v ≤ limits.maxResult) ∧
      ∀ (t : Tree) (e : Error), t.polish = rpn → t.value bindings = .error e →
        evaluate rpn bindings limits = .error e ∧ t.nodes.map Tree.root = rpn ∧
        ∃ before s after, t.nodes = before ++ s :: after ∧ s.value bindings = .error e ∧
          ∀ s' ∈ before, ∃ x, s'.value bindings = .ok x) ∧
    ∀ source limits e bindings err, compile source limits = .ok e →
      e.eval bindings = .error err → err.kind ≠ .grammar := by
  refine ⟨fun rpn bindings limits => ⟨?_, ?_, ?_⟩, fun _ _ _ _ _ => eval_kind⟩
  · intro t t' ht ht'
    exact Tree.polish_injective (ht.trans ht'.symm)
  · intro v
    constructor
    · intro h
      obtain ⟨t, x, ht, hx, hv⟩ := exists_tree_of_evaluate h
      exact ⟨t, x, ht, hx, checkResult_eq_ok.1 hv⟩
    · rintro ⟨t, x, rfl, hx, hv⟩
      rw [evaluate_polish, hx]
      exact checkResult_eq_ok.2 hv
  · rintro t e rfl he
    refine ⟨?_, t.map_root_nodes, Tree.exists_first_failure he⟩
    rw [evaluate_polish, he]
    rfl

/-- A difference may be negative on the way, and of two nodes without a value the first one
counts. -/
theorem evaluate_difference :
    evaluate [⟨.number .one, 4⟩, ⟨.number (.whole 3), 6⟩, ⟨.operator .sub, 5⟩,
        ⟨.number .zero, 8⟩, ⟨.function .max, 0⟩] ∅ .standard = .ok (.hundredths 0) ∧
      evaluate [⟨.number .one, 0⟩, ⟨.number .zero, 2⟩, ⟨.operator .div, 1⟩, ⟨.variable "x", 4⟩,
        ⟨.operator .add, 3⟩] ∅ .standard = .error (.arithmetic 1 .divisionByZero) := by
  let args : Fin 2 → Tree := Tree.prepend (.binary .sub 5 (.literal .one 4) (.literal (.whole 3) 6))
    fun _ => .literal .zero 8
  let difference : Tree := .call .max 0 args
  let quotient : Tree := .binary .add 3 (.binary .div 1 (.literal .one 0) (.literal .zero 2))
    (.name "x" 4)
  have hdifference : difference.value ∅ = .ok .zero := by decide +kernel
  constructor
  · exact ((evaluate_iff_tree.1 _ ∅ .standard).2.1 _).2
      ⟨difference, .zero, rfl, hdifference, by decide +kernel, by decide, by decide⟩
  · exact ((evaluate_iff_tree.1 _ ∅ .standard).2.2 quotient _ rfl rfl).1

end Estimating.Expression
