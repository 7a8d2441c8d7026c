/-
Expressions that are worked out exactly.

Beside the value that a tree has among the decimals stands its value among the rationals, where no
operation rounds and none is too large.  The two agree at every node of a tree whose operators have
results that decimals can have: not only at its top, and whatever the scales of the numbers in it.
Only the rounding that is part of the language is left, that of the functions and that of the result.

* `Expression.Operator.exact`, `Expression.Function.exact`, `Expression.Tree.exact` — values among
  the rationals;
* `Expression.Tree.Exact` — no divisor is zero, and every operator has a representable result;
* `Expression.Tree.exists_value_eq` — **such a tree has its exact value**;
* `Expression.evalText_exact` — **a source text with such a tree has the rounded exact value as its
  result, or is out of range by it**.
-/
import Estimating.Proofs.Expression.Names
import Estimating.Proofs.Expression.Written
import Mathlib.Data.Fin.VecNotation

set_option autoImplicit false

namespace Estimating

/-- The value that a name stands for. -/
def Bindings.valueOf (bindings : Bindings) (name : String) : Rat :=
  match bindings[name]? with
  | some (.number x) => x.toRat
  | _ => 0

theorem Bindings.valueOf_of_number {bindings : Bindings} {name : String} {x : Decimal}
    (h : bindings[name]? = some (.number x)) : bindings.valueOf name = x.toRat := by
  rw [valueOf, h]

namespace Expression

open Decimal
open Matrix (vecHead vecTail)

/-! ### Values among the rationals -/

/-- The exact result of an operator. -/
def Operator.exact : Operator → Rat → Rat → Rat
  | add, x, y => x + y
  | sub, x, y => x - y
  | mul, x, y => x * y
  | div, x, y => x / y

/-- The exact value of a call.  `ceil`, `floor` and `round` see their argument at two fraction
digits. -/
def Function.exact : (f : Function) → (Fin f.arity → Rat) → Rat
  | .ceil, (q : Fin 1 → Rat) => ⌈nearest 2 (vecHead q)⌉
  | .floor, (q : Fin 1 → Rat) => ⌊nearest 2 (vecHead q)⌋
  | .round, (q : Fin 1 → Rat) => nearest 2 (vecHead q)
  | .min, (q : Fin 2 → Rat) => Min.min (vecHead q) (vecHead (vecTail q))
  | .max, (q : Fin 2 → Rat) => Max.max (vecHead q) (vecHead (vecTail q))
  | .case, (q : Fin 3 → Rat) =>
    if vecHead q = 0 then vecHead (vecTail (vecTail q)) else vecHead (vecTail q)

namespace Tree

/-- The exact value of a tree, where names have the values `ν`. -/
def exact (ν : String → Rat) : Tree → Rat
  | literal x _ => x.toRat
  | name text _ => ν text
  | binary op _ lhs rhs => op.exact (lhs.exact ν) (rhs.exact ν)
  | call f _ args => f.exact fun i => (args i).exact ν

/-- No divisor is zero, and the exact result of every operator is representable. -/
def Exact (ν : String → Rat) : Tree → Prop
  | literal _ _ => True
  | name _ _ => True
  | binary op _ lhs rhs => lhs.Exact ν ∧ rhs.Exact ν ∧ (op = .div → rhs.exact ν ≠ 0) ∧
      Representable (op.exact (lhs.exact ν) (rhs.exact ν))
  | call _ _ args => ∀ i, (args i).Exact ν

/-! ### Nodes -/

theorem mem_nodes_self (t : Tree) : t ∈ t.nodes := by
  cases t <;> simp [nodes]

theorem mem_nodes_arg {f : Function} {p : Nat} {args : Fin f.arity → Tree} {s : Tree}
    (i : Fin f.arity) (h : s ∈ (args i).nodes) : s ∈ (call f p args).nodes :=
  List.mem_append_left _ (List.mem_flatten_of_mem (List.mem_ofFn.2 ⟨i, rfl⟩) h)

/-- The nodes of a node are nodes of the tree. -/
theorem nodes_trans {s t : Tree} (h : s ∈ t.nodes) {r : Tree} (hr : r ∈ s.nodes) : r ∈ t.nodes := by
  induction t with
  | literal x p =>
      obtain rfl := List.mem_singleton.1 h
      exact hr
  | name text p =>
      obtain rfl := List.mem_singleton.1 h
      exact hr
  | binary op p lhs rhs ihl ihr =>
      rcases List.mem_append.1 h with h | h
      · rcases List.mem_append.1 h with h | h
        · exact List.mem_append_left _ (List.mem_append_left _ (ihl h))
        · exact List.mem_append_left _ (List.mem_append_right _ (ihr h))
      · obtain rfl := List.mem_singleton.1 h
        exact hr
  | call f p args ih =>
      rcases List.mem_append.1 h with h | h
      · obtain ⟨nodes, hnodes, h⟩ := List.mem_flatten.1 h
        obtain ⟨i, rfl⟩ := List.mem_ofFn.1 hnodes
        exact mem_nodes_arg i (ih i h)
      · obtain rfl := List.mem_singleton.1 h
        exact hr

theorem Exact.of_mem {ν : String → Rat} {s t : Tree} (h : t.Exact ν) (hs : s ∈ t.nodes) :
    s.Exact ν := by
  induction t with
  | literal x p =>
      obtain rfl := List.mem_singleton.1 hs
      exact h
  | name text p =>
      obtain rfl := List.mem_singleton.1 hs
      exact h
  | binary op p lhs rhs ihl ihr =>
      rcases List.mem_append.1 hs with hs | hs
      · rcases List.mem_append.1 hs with hs | hs
        · exact ihl h.1 hs
        · exact ihr h.2.1 hs
      · obtain rfl := List.mem_singleton.1 hs
        exact h
  | call f p args ih =>
      rcases List.mem_append.1 hs with hs | hs
      · obtain ⟨nodes, hnodes, hs⟩ := List.mem_flatten.1 hs
        obtain ⟨i, rfl⟩ := List.mem_ofFn.1 hnodes
        exact ih i (h i) hs
      · obtain rfl := List.mem_singleton.1 hs
        exact h

end Tree

/-! ### Exact results -/

variable {bindings : Bindings}

/-- The result of an operator is exact if it is representable, and there always is one then. -/
theorem Operator.exists_apply_eq {op : Operator} {x y : Decimal} (hdiv : op = .div → y.toRat ≠ 0)
    (h : Representable (op.exact x.toRat y.toRat)) (p : Nat) :
    ∃ z, op.apply x y p = .ok z ∧ z.toRat = op.exact x.toRat y.toRat := by
  have hcompute : ∃ z, op.compute x y = some z ∧ z.toRat = op.exact x.toRat y.toRat := by
    cases op with
    | add => exact exists_add_eq h
    | sub => exact exists_sub_eq h
    | mul => exact exists_mul_eq h
    | div => exact exists_div_eq (hdiv rfl) h
  obtain ⟨z, hz, hvalue⟩ := hcompute
  have hnonzero : ¬ (op = .div ∧ y.isZero = true) :=
    fun hzero => hdiv hzero.1 (toRat_of_isZero hzero.2)
  refine ⟨z, ?_, hvalue⟩
  rw [Operator.apply, if_neg hnonzero, hz]

/-- Functions are exact on any arguments. -/
theorem Function.toRat_value (f : Function) (xs : Fin f.arity → Decimal) :
    (f.value xs).toRat = f.exact fun i => (xs i).toRat := by
  cases f with
  | ceil => exact (toRat_ceil _).trans (by rw [toRat_roundMoney]; rfl)
  | floor => exact (toRat_floor _).trans (by rw [toRat_roundMoney]; rfl)
  | round => exact toRat_roundMoney _
  | min => exact toRat_smaller _ _
  | max => exact toRat_larger _ _
  | case =>
      have hchoice (x y z : Decimal) : (if x.isZero then z else y).toRat =
          if x.toRat = 0 then z.toRat else y.toRat := by
        simp only [toRat_eq_zero_iff]
        split <;> rfl
      exact hchoice _ _ _

/-- **A tree whose operators have representable results has its exact value.** -/
theorem Tree.exists_value_eq {t : Tree}
    (hnames : ∀ text p, .name text p ∈ t.nodes → ∃ x, bindings[text]? = some (.number x))
    (h : t.Exact bindings.valueOf) :
    ∃ x, t.value bindings = .ok x ∧ x.toRat = t.exact bindings.valueOf := by
  induction t with
  | literal x p => exact ⟨x, rfl, rfl⟩
  | name text p =>
      obtain ⟨x, hx⟩ := hnames text p (mem_nodes_self _)
      refine ⟨x, ?_, (Bindings.valueOf_of_number hx).symm⟩
      rw [value, lookup, hx]
  | binary op p lhs rhs ihl ihr =>
      obtain ⟨hlhs, hrhs, hdiv, hop⟩ := h
      obtain ⟨x, hx, hxvalue⟩ := ihl (fun text q hs => hnames text q
        (List.mem_append_left _ (List.mem_append_left _ hs))) hlhs
      obtain ⟨y, hy, hyvalue⟩ := ihr (fun text q hs => hnames text q
        (List.mem_append_left _ (List.mem_append_right _ hs))) hrhs
      rw [← hyvalue] at hdiv
      rw [← hxvalue, ← hyvalue] at hop
      obtain ⟨z, hz, hzvalue⟩ := Operator.exists_apply_eq hdiv hop p
      refine ⟨z, ?_, ?_⟩
      · simp only [value, hx, hy, bind, Except.bind, hz]
      · rw [hzvalue, exact, hxvalue, hyvalue]
  | call f p args ih =>
      have hargs : ∀ i, ∃ x, (args i).value bindings = .ok x ∧
          x.toRat = (args i).exact bindings.valueOf := by
        intro i
        exact ih i (fun text q hs => hnames text q (mem_nodes_arg i hs)) (h i)
      choose xs hxs hvalues using hargs
      refine ⟨f.value xs, ?_, ?_⟩
      · simp only [value, collect_ok hxs]
        rfl
      · rw [f.toRat_value, exact]
        exact congrArg f.exact (funext hvalues)

/-! ### Source texts -/

/-- The check of a result, by its exact value. -/
theorem checkResult_eq (limit x : Decimal) : checkResult limit x =
    if 0 ≤ x.roundMoney.toRat ∧ x.roundMoney.toRat ≤ limit.toRat then .ok x.roundMoney
    else .error (.range x.roundMoney limit) := by
  have hrange : (x.roundMoney < .zero ∨ limit < x.roundMoney) ↔
      ¬ (0 ≤ x.roundMoney.toRat ∧ x.roundMoney.toRat ≤ limit.toRat) := by
    rw [not_and_or, lt_iff_toRat, lt_iff_toRat, toRat_zero, Rat.not_le, Rat.not_le]
  unfold checkResult
  simp only [hrange]
  split <;> simp_all

/-- **A source text whose tree is exact has the rounded exact value as its result**, or is out of
range by that value: no operation is too large, and none rounds.  Its number literals stand for what
they write, as long as decimals have those values. -/
theorem evalText_exact :
    ∀ source limits e, compile source limits = .ok e →
      ∃ d : Derivation .expr, tokenize source limits = .ok d.yield ∧ e.tokens = d.tree.polish ∧
        (∀ x p, .literal x p ∈ d.tree.nodes →
          Representable (written (numberAt source.toList p)) →
          x.toRat = written (numberAt source.toList p)) ∧
        ∀ bindings : Bindings, (∀ name ∈ e.names, ∃ x, bindings[name]? = some (.number x)) →
          d.tree.Exact bindings.valueOf →
          (∀ s ∈ d.tree.nodes, ∃ x, s.value bindings = .ok x ∧
            x.toRat = s.exact bindings.valueOf) ∧
          ∃ v : Decimal, v.Tidy 2 ∧ v.toRat = nearest 2 (d.tree.exact bindings.valueOf) ∧
            evalText source bindings limits =
              if 0 ≤ v.toRat ∧ v.toRat ≤ limits.maxResult.toRat then .ok v
              else .error (.range v limits.maxResult) := by
  intro source limits e he
  obtain ⟨d, hd, rfl⟩ := exists_derivation_of_compile he
  have hroot {s : Tree} (hs : s ∈ d.tree.nodes) : s.root ∈ d.tree.polish :=
    d.tree.map_root_nodes ▸ List.mem_map_of_mem hs
  refine ⟨d, hd, rfl, ?_, ?_⟩
  · intro x p hnode
    exact toRat_of_mem_tokenize hd (d.mem_yield_of_mem_listing (d.polish_tree ▸ hroot hnode))
  intro bindings hbindings hexact
  have hnames : ∀ text p, .name text p ∈ d.tree.nodes →
      ∃ x, bindings[text]? = some (.number x) :=
    fun text p hnode => hbindings text (mem_names_iff.2 ⟨p, hroot hnode⟩)
  have hvalue : ∀ s ∈ d.tree.nodes, ∃ x, s.value bindings = .ok x ∧
      x.toRat = s.exact bindings.valueOf := by
    intro s hs
    exact Tree.exists_value_eq (fun text p h => hnames text p (Tree.nodes_trans hs h))
      (hexact.of_mem hs)
  obtain ⟨x, hx, hxvalue⟩ := hvalue d.tree (Tree.mem_nodes_self _)
  refine ⟨hvalue, x.roundMoney, tidy_roundTo x (by decide), ?_, ?_⟩
  · rw [toRat_roundMoney, hxvalue]
  · have heval : evalText source bindings limits = evaluate d.tree.polish bindings limits := by
      rw [evalText, he]
      rfl
    rw [heval, evaluate_polish, hx]
    exact checkResult_eq limits.maxResult x

/-- A quotient with more digits than its operands has its exact value, and only the result is
rounded. -/
theorem evalText_exact_quotient :
    evalText "ceil(area / 2.5) + area / 8" (Table.ofList [("area", .number (.tenths 123))])
      .standard = .ok (.hundredths 654) := by
  let bindings : Bindings := Table.ofList [("area", .number (.tenths 123))]
  let fifth : Tree := .binary .div 10 (.name "area" 5) (.literal (.tenths 25) 12)
  let eighth : Tree := .binary .div 24 (.name "area" 19) (.literal (.whole 8) 26)
  let sum : Tree := .binary .add 17 (.call .ceil 0 fun _ => fifth) eighth
  let e : Expression := ⟨"ceil(area / 2.5) + area / 8", sum.polish, .standard⟩
  obtain ⟨d, -, htokens, -, hexact⟩ := evalText_exact e.source .standard e (by decide +kernel)
  have htree : sum = d.tree := Tree.polish_injective htokens
  have hnames : ∀ name ∈ e.names, ∃ x, bindings[name]? = some (.number x) := by
    have harea : e.names = ["area"] := by decide +kernel
    rw [harea]
    exact List.forall_mem_singleton.2 ⟨.tenths 123, by decide +kernel⟩
  have hfifth : fifth.Exact bindings.valueOf :=
    ⟨trivial, trivial, fun _ => by decide +kernel, 492, 2, by decide, by decide, by decide +kernel⟩
  have heighth : eighth.Exact bindings.valueOf :=
    ⟨trivial, trivial, fun _ => by decide +kernel, 15375, 4, by decide, by decide, by decide +kernel⟩
  have hsum : sum.Exact bindings.valueOf :=
    ⟨fun _ => hfifth, heighth, nofun, 65375, 4, by decide, by decide, by decide +kernel⟩
  obtain ⟨-, v, hv, hvalue, heval⟩ := hexact bindings hnames (htree ▸ hsum)
  have hresult : nearest 2 (d.tree.exact bindings.valueOf) = (Decimal.hundredths 654).toRat := by
    rw [← htree]
    decide +kernel
  obtain rfl := hv.eq (y := .hundredths 654) ⟨by decide, by decide, by decide⟩
    (toRat_eq_iff.1 (hvalue.trans hresult))
  exact heval.trans (if_pos (by decide +kernel))

end Expression
end Estimating
