/-
What any list of tokens is put in order to.

The lexer puts a parenthesis behind every function, but a list that is given directly need not have
one there.  A function then waits for the next parenthesis, wherever it stands, and when that one is
closed, the token below it on the stack is put out as the call.  Below a parenthesis there is the
function itself, or an operator, except behind a comma: there the parenthesis of the arguments lies on
top.  So a list is put in order as it should be unless a function that waits at a comma gets a
parenthesis right behind it.  If one does, the list may be accepted, but the parenthesis of the
arguments is put out, and it is never closed.

* `Expression.Balanced` — parentheses match;
* `Expression.Waits`, `Expression.Stray` — a function waits for its parenthesis, and gets one behind
  a comma;
* `Expression.Arrangement.Moves` — all that one token can do;
* `Expression.Arrangement.Moves.kept` — **no token is lost on the way**, and
  `Expression.Arrangement.Keeps` — what is kept after a run;
* `Expression.Arrangement.Foresees` — when a parenthesis is about to lie on another one;
* `Expression.belows`, `Expression.Arrangement.Traps` — open parentheses and the tokens below them;
* `Expression.reversePolish_balanced` — **an accepted list is balanced, and its numbers, names,
  operators and functions are put out and nothing else**, unless there is such a function;
* `Expression.stray_accepted` — a list that is accepted although a parenthesis is not closed.
-/
import Estimating.Proofs.Expression.ReversePolish
import Mathlib.Data.List.Basic
import Mathlib.Data.List.Induction

set_option autoImplicit false

namespace Estimating.Expression

variable {ts us out : List Token} {t : Token}

/-! ### Parentheses -/

/-- How many parentheses are opened. -/
def opened (ts : List Token) : Nat := ts.countP fun t => decide (t.word = .leftParen)

/-- How many parentheses are closed. -/
def closed (ts : List Token) : Nat := ts.countP fun t => decide (t.word = .rightParen)

theorem opened_cons : opened (t :: ts) = opened ts + if t.word = .leftParen then 1 else 0 := by
  simp [opened, List.countP_cons]

theorem closed_cons : closed (t :: ts) = closed ts + if t.word = .rightParen then 1 else 0 := by
  simp [closed, List.countP_cons]

theorem opened_perm (h : ts.Perm us) : opened ts = opened us := h.countP_eq _

theorem closed_perm (h : ts.Perm us) : closed ts = closed us := h.countP_eq _

/-- Every parenthesis is closed, and none is before it is opened. -/
structure Balanced (ts : List Token) : Prop where
  closed_le : ∀ us, us <+: ts → closed us ≤ opened us
  closed_eq : closed ts = opened ts

/-- A function stands at the end that has not been given a parenthesis. -/
def Waits (ts : List Token) : Prop :=
  ∃ before t between, ts = before ++ t :: between ∧ (∃ f, t.word = .function f) ∧
    ∀ u ∈ between, u.word ≠ .leftParen

/-- A function that waits at a comma is given the parenthesis right behind it. -/
def Stray (ts : List Token) : Prop :=
  ∃ before comma paren, before ++ [comma, paren] <+: ts ∧ Waits before ∧ comma.word = .comma ∧
    paren.word = .leftParen

theorem not_waits_nil : ¬ Waits [] := by
  rintro ⟨before, t, between, h, -⟩
  exact absurd h.symm (by simp)

theorem waits_append_singleton : Waits (ts ++ [t]) ↔
    (∃ f, t.word = .function f) ∨ Waits ts ∧ t.word ≠ .leftParen := by
  constructor
  · rintro ⟨before, u, between, h, hu, hbetween⟩
    rcases List.eq_nil_or_concat between with rfl | ⟨between, v, rfl⟩
    · obtain ⟨-, rfl⟩ := List.append_singleton_inj.1 h
      exact .inl hu
    · rw [List.concat_eq_append, List.forall_mem_append, List.forall_mem_singleton] at hbetween
      rw [List.concat_eq_append, ← List.cons_append, ← List.append_assoc] at h
      obtain ⟨rfl, rfl⟩ := List.append_singleton_inj.1 h
      exact .inr ⟨⟨before, u, between, rfl, hu, hbetween.1⟩, hbetween.2⟩
  · rintro (hf | ⟨⟨before, u, between, rfl, hu, hbetween⟩, ht⟩)
    · exact ⟨ts, t, [], rfl, hf, nofun⟩
    · refine ⟨before, u, between ++ [t], by simp, hu, ?_⟩
      rw [List.forall_mem_append, List.forall_mem_singleton]
      exact ⟨hbetween, ht⟩

theorem stray_append_singleton : Stray (ts ++ [t]) ↔
    Stray ts ∨ (Waits ts ∧ ∃ us comma, ts = us ++ [comma] ∧ comma.word = .comma) ∧
      t.word = .leftParen := by
  have hwaits {us : List Token} {comma : Token} (hcomma : comma.word = .comma) :
      Waits (us ++ [comma]) ↔ Waits us := by
    simp [waits_append_singleton, hcomma]
  constructor
  · rintro ⟨us, comma, paren, hfront, hus, hcomma, hparen⟩
    rcases List.prefix_concat_iff.1 hfront with h | h
    · have hsplit : us ++ [comma, paren] = us ++ [comma] ++ [paren] := by simp
      obtain ⟨rfl, rfl⟩ := List.append_singleton_inj.1 (hsplit ▸ h)
      exact .inr ⟨⟨(hwaits hcomma).2 hus, us, comma, rfl, hcomma⟩, hparen⟩
    · exact .inl ⟨us, comma, paren, h, hus, hcomma, hparen⟩
  · rintro (⟨us, comma, paren, hfront, h⟩ | ⟨⟨hts, us, comma, rfl, hcomma⟩, hparen⟩)
    · exact ⟨us, comma, paren, hfront.trans (List.prefix_append _ _), h⟩
    · exact ⟨us, comma, t, by simp, (hwaits hcomma).1 hts, hcomma, hparen⟩

theorem not_stray_nil : ¬ Stray [] := by
  rintro ⟨us, comma, paren, hfront, -⟩
  exact absurd (List.prefix_nil.1 hfront) (by simp)

/-- No function waits longer in a list of the lexer. -/
theorem CallsOpen.not_stray (h : CallsOpen ts) : ¬ Stray ts := by
  rintro ⟨-, comma, paren, ⟨after, rfl⟩, ⟨before, t, between, rfl, ⟨f, hf⟩, hbetween⟩, hcomma, -⟩
  rw [List.append_assoc, List.append_assoc, List.cons_append] at h
  obtain ⟨o, us, hus⟩ := h.append_right.head hf
  cases between with
  | nil =>
      cases (List.cons.inj hus).1
      cases hcomma
  | cons u between =>
      cases (List.cons.inj hus).1
      exact hbetween _ List.mem_cons_self rfl

/-! ### What is below a parenthesis -/

/-- For every open parenthesis on a stack, the tokens below it. -/
def belows : List Token → List (List Token)
  | [] => []
  | t :: below => if t.word = .leftParen then below :: belows below else belows below

theorem belows_paren {below : List Token} (h : t.word = .leftParen) :
    belows (t :: below) = below :: belows below := if_pos h

theorem belows_append {w below : List Token} (hw : ∀ u ∈ w, u.word ≠ .leftParen) :
    belows (w ++ below) = belows below := by
  induction w with
  | nil => rfl
  | cons u w ih =>
      obtain ⟨hu, hw⟩ := List.forall_mem_cons.1 hw
      rw [List.cons_append, belows, if_neg hu, ih hw]

namespace Arrangement

variable {s s' : Arrangement}

/-! ### What a token does -/

/-- All that one token can do: put out what waits, and be put out or wait itself, or open or close a
parenthesis. -/
inductive Moves (s : Arrangement) (t : Token) : Arrangement → Prop
  | operand (hs : s.expected = .operand) (ht : t.word.isListed = true)
      (hplain : ∀ f, t.word ≠ .function f) :
      Moves s t { s with
        output := t :: s.output, expected := .operator, ending := t.position + 1 }
  | function {f : Function} (hs : s.expected = .operand) (ht : t.word = .function f) :
      Moves s t { s with stack := t :: s.stack, pending := some f, ending := t.position + 1 }
  | openParen (hs : s.expected = .operand) (ht : t.word = .leftParen) :
      Moves s t { s with
        stack := t :: s.stack, frames := ⟨s.pending, 1, t.position⟩ :: s.frames, pending := none,
        ending := t.position + 1 }
  | comma {w below : List Token} {o : Token} {f : Function} {n p : Nat} {outer : List Frame}
      (ht : t.word = .comma) (hstack : s.stack = w ++ o :: below)
      (hw : ∀ u ∈ w, u.word ≠ .leftParen) (ho : o.word = .leftParen)
      (hframes : s.frames = ⟨some f, n, p⟩ :: outer) :
      Moves s t { s with
        output := w.reverse ++ s.output, stack := o :: below,
        frames := ⟨some f, n + 1, p⟩ :: outer, expected := .operand, ending := t.position + 1 }
  | closeGroup {w below : List Token} {o : Token} {n p : Nat} {outer : List Frame}
      (ht : t.word = .rightParen) (hstack : s.stack = w ++ o :: below)
      (hw : ∀ u ∈ w, u.word ≠ .leftParen) (ho : o.word = .leftParen)
      (hframes : s.frames = ⟨none, n, p⟩ :: outer) :
      Moves s t { s with
        output := w.reverse ++ s.output, stack := below, frames := outer,
        expected := .operator, ending := t.position + 1 }
  | closeCall {w below : List Token} {o : Token} {f : Function} {n p : Nat} {outer : List Frame}
      (ht : t.word = .rightParen) (hstack : s.stack = w ++ o :: below)
      (hw : ∀ u ∈ w, u.word ≠ .leftParen) (ho : o.word = .leftParen)
      (hframes : s.frames = ⟨some f, n, p⟩ :: outer) :
      Moves s t { s with
        output := below.take 1 ++ (w.reverse ++ s.output), stack := below.tail, frames := outer,
        expected := .operator, ending := t.position + 1 }
  | operator {op : Operator} {w below : List Token} (ht : t.word = .operator op)
      (hstack : s.stack = w ++ below) (hw : ∀ u ∈ w, u.word ≠ .leftParen) :
      Moves s t { s with
        output := w.reverse ++ s.output, stack := t :: below, expected := .operand,
        ending := t.position + 1 }

theorem expected_of_require {wanted : Expectation} {u : Unit} (h : s.require wanted t = .ok u) :
    s.expected = wanted := by
  unfold require at h
  split at h
  · assumption
  · cases h

/-- What waits above the innermost open parenthesis is put out, and there is one. -/
theorem exists_of_flushToParen {p : Nat} {fault : GrammarFault}
    (h : s.flushToParen p fault = .ok s') : ∃ w o below, s.stack = w ++ o :: below ∧
      (∀ u ∈ w, u.word ≠ .leftParen) ∧ o.word = .leftParen ∧
      s' = { s with output := w.reverse ++ s.output, stack := o :: below } := by
  have hsplit := List.takeWhile_append_dropWhile
    (p := fun t : Token => decide (t.word ≠ .leftParen)) (l := s.stack)
  have hdrop : s.stack.drop (s.stack.takeWhile fun t => decide (t.word ≠ .leftParen)).length =
      s.stack.dropWhile fun t => decide (t.word ≠ .leftParen) := by
    nth_rewrite 2 [← hsplit]
    exact List.drop_left
  simp only [flushToParen, hdrop] at h
  split at h
  · cases h
  · next hnot =>
      cases h
      obtain ⟨o, below, hbelow⟩ := List.exists_cons_of_ne_nil hnot
      have ho := List.head_dropWhile_not _ hnot
      simp only [hbelow, List.head_cons, decide_eq_false_iff_not, not_not] at ho
      refine ⟨_, o, below, hbelow ▸ hsplit.symm, fun u hu => ?_, ho, by rw [hbelow]⟩
      have hu := List.mem_takeWhile_imp hu
      exact of_decide_eq_true hu

theorem moves_operator {op : Operator} (ht : t.word = .operator op)
    (h : { s with ending := t.position + 1 }.operator op t = .ok s') : Moves s t s' := by
  obtain ⟨_, -, h⟩ := Except.bind_eq_ok.1 h
  cases h
  refine .operator ht (List.prefix_iff_eq_append.1 (List.takeWhile_prefix _)).symm fun u hu => ?_
  have hu := List.mem_takeWhile_imp hu
  intro hparen
  rw [bindsFirst, hparen] at hu
  cases hu

/-- **All that one token can do.** -/
theorem moves_of_step (h : s.step t = .ok s') : Moves s t s' := by
  simp only [step] at h
  split at h
  case h_1 hword =>
    obtain ⟨_, hrequire, h⟩ := Except.bind_eq_ok.1 h
    cases h
    exact .operand (expected_of_require hrequire) (by rw [hword]; rfl) (by simp [hword])
  case h_2 hword =>
    obtain ⟨_, hrequire, h⟩ := Except.bind_eq_ok.1 h
    cases h
    exact .operand (expected_of_require hrequire) (by rw [hword]; rfl) (by simp [hword])
  case h_3 hword =>
    obtain ⟨_, hrequire, h⟩ := Except.bind_eq_ok.1 h
    cases h
    exact .function (expected_of_require hrequire) hword
  case h_4 hword =>
    obtain ⟨_, hrequire, h⟩ := Except.bind_eq_ok.1 h
    cases h
    exact .openParen (expected_of_require hrequire) hword
  case h_5 hword =>
    obtain ⟨_, -, h⟩ := Except.bind_eq_ok.1 h
    obtain ⟨s₁, hflush, h⟩ := Except.bind_eq_ok.1 h
    obtain ⟨w, o, below, hstack, hw, ho, rfl⟩ := exists_of_flushToParen hflush
    split at h
    · next hframes =>
        cases h
        exact .comma hword hstack hw ho hframes
    · cases h
  case h_6 hword =>
    obtain ⟨_, -, h⟩ := Except.bind_eq_ok.1 h
    obtain ⟨s₁, hflush, h⟩ := Except.bind_eq_ok.1 h
    obtain ⟨w, o, below, hstack, hw, ho, rfl⟩ := exists_of_flushToParen hflush
    split at h
    · cases h
    · next hframes =>
        cases h
        exact .closeGroup hword hstack hw ho hframes
    · next hframes =>
        split at h
        · cases h
          exact .closeCall hword hstack hw ho hframes
        · cases h
  case h_7 op hword => exact moves_operator hword h

/-- What is true at the beginning and stays true with every token is true after all of them. -/
theorem run_induction {P : List Token → Arrangement → Prop} (start : P [] .start)
    (step : ∀ ts s t s', P ts s → Moves s t s' → P (ts ++ [t]) s') :
    ∀ {ts : List Token} {s : Arrangement}, ts.foldlM Arrangement.step .start = .ok s → P ts s := by
  intro ts
  induction ts using List.reverseRecOn with
  | nil =>
      intro s h
      cases h
      exact start
  | append_singleton ts t ih =>
      intro s h
      rw [List.foldlM_append] at h
      obtain ⟨s₁, hrun, h⟩ := Except.bind_eq_ok.1 h
      obtain ⟨s₂, hstep, h⟩ := Except.bind_eq_ok.1 h
      cases h
      exact step ts s₁ t _ (ih hrun) (moves_of_step hstep)

/-! ### No token is lost -/

/-- All that has been put out or waits. -/
def kept (s : Arrangement) : List Token := s.output ++ s.stack

/-- Putting out what waits loses nothing. -/
theorem perm_put {w below output : List Token} :
    (w.reverse ++ output ++ below).Perm (output ++ (w ++ below)) := by
  rw [List.append_assoc]
  refine ((List.reverse_perm w).append_right _).trans ?_
  rw [← List.append_assoc, ← List.append_assoc]
  exact List.perm_append_comm.append_right _

/-- **No token is lost**: it is kept, or it is a comma, or it is a closing parenthesis and an opening
one goes. -/
theorem Moves.kept (h : Moves s t s') :
    (s'.kept.Perm (t :: s.kept) ∧ (t.word.isListed = true ∨ t.word = .leftParen)) ∨
      (s'.kept.Perm s.kept ∧ t.word = .comma) ∨
      ∃ o, o.word = .leftParen ∧ s.kept.Perm (o :: s'.kept) ∧ t.word = .rightParen := by
  cases h with
  | operand _ ht => exact .inl ⟨.refl _, .inl ht⟩
  | function _ ht => exact .inl ⟨List.perm_middle, .inl (by rw [ht]; rfl)⟩
  | openParen _ ht => exact .inl ⟨List.perm_middle, .inr ht⟩
  | comma ht hstack =>
      refine .inr (.inl ⟨?_, ht⟩)
      rw [Arrangement.kept, Arrangement.kept, hstack]
      exact perm_put
  | @closeGroup w below o _ _ _ ht hstack _ ho =>
      refine .inr (.inr ⟨o, ho, ?_, ht⟩)
      rw [Arrangement.kept, Arrangement.kept, hstack]
      exact perm_put.symm.trans List.perm_middle
  | @closeCall w below o _ _ _ _ ht hstack _ ho =>
      refine .inr (.inr ⟨o, ho, ?_, ht⟩)
      rw [Arrangement.kept, Arrangement.kept, hstack]
      have hbelow : (below.take 1 ++ (w.reverse ++ s.output) ++ below.tail).Perm
          (w.reverse ++ s.output ++ below) := by
        refine (List.perm_append_comm.append_right _).trans ?_
        rw [List.append_assoc, ← List.drop_one, List.take_append_drop]
      exact (perm_put.symm.trans List.perm_middle).trans (hbelow.symm.cons o)
  | operator ht hstack =>
      refine .inl ⟨?_, .inl (by rw [ht]; rfl)⟩
      rw [Arrangement.kept, Arrangement.kept, hstack]
      exact List.perm_middle.trans (perm_put.cons t)

/-- What is kept of the tokens `ts`. -/
structure Keeps (ts : List Token) (s : Arrangement) : Prop where
  listed : (s.kept.filter (·.word.isListed)).Perm (ts.filter (·.word.isListed))
  parens : opened s.kept + closed ts = opened ts
  only : ∀ t ∈ s.kept, t.word.isListed = true ∨ t.word = .leftParen

theorem keeps_start : Keeps [] .start := ⟨.refl _, rfl, nofun⟩

theorem Keeps.move (h : Keeps ts s) (hmove : Moves s t s') : Keeps (ts ++ [t]) s' := by
  have hts : (ts ++ [t]).Perm (t :: ts) := List.perm_append_singleton t ts
  have hfilter := (hts.filter (·.word.isListed)).symm
  have hparens := h.parens
  rcases hmove.kept with ⟨hkept, ht⟩ | ⟨hkept, ht⟩ | ⟨o, ho, hkept, ht⟩
  · refine ⟨(hkept.filter _).trans (.trans ?_ hfilter), ?_, fun u hu => ?_⟩
    · rw [List.filter_cons, List.filter_cons]
      split
      · exact h.listed.cons t
      · exact h.listed
    · have hnot : t.word ≠ .rightParen := by
        rintro heq
        rw [heq] at ht
        rcases ht with ht | ht <;> cases ht
      rw [opened_perm hkept, opened_perm hts, closed_perm hts, opened_cons, opened_cons, closed_cons,
        if_neg hnot]
      omega
    · rcases List.mem_cons.1 (hkept.mem_iff.1 hu) with rfl | hu
      · exact ht
      · exact h.only u hu
  · have hnot : t.word ≠ .leftParen ∧ t.word ≠ .rightParen := by simp [ht]
    refine ⟨(hkept.filter _).trans (.trans ?_ hfilter), ?_, fun u hu => ?_⟩
    · rw [List.filter_cons_of_neg (by rw [ht]; exact Bool.false_ne_true)]
      exact h.listed
    · rw [opened_perm hkept, opened_perm hts, closed_perm hts, opened_cons, closed_cons,
        if_neg hnot.1, if_neg hnot.2]
      omega
    · exact h.only u (hkept.mem_iff.1 hu)
  · have hnot : t.word ≠ .leftParen := by simp [ht]
    refine ⟨.trans ?_ hfilter, ?_, fun u hu => ?_⟩
    · have hlisted := hkept.filter (·.word.isListed)
      rw [List.filter_cons_of_neg (by rw [ho]; exact Bool.false_ne_true)] at hlisted
      rw [List.filter_cons_of_neg (by rw [ht]; exact Bool.false_ne_true)]
      exact hlisted.symm.trans h.listed
    · rw [opened_perm hkept, opened_cons, if_pos ho] at hparens
      rw [opened_perm hts, closed_perm hts, opened_cons, closed_cons, if_neg hnot, if_pos ht]
      omega
    · exact h.only u (hkept.mem_iff.2 (List.mem_cons_of_mem o hu))

theorem keeps_of_run (h : ts.foldlM step .start = .ok s) : Keeps ts s :=
  run_induction (P := Keeps) keeps_start (fun _ _ _ _ => .move) h

/-- At no time have more parentheses been closed than opened. -/
theorem closed_le_of_run (h : ts.foldlM step .start = .ok s) (hfront : us <+: ts) :
    closed us ≤ opened us := by
  obtain ⟨vs, rfl⟩ := hfront
  rw [List.foldlM_append] at h
  obtain ⟨s₁, hrun, -⟩ := Except.bind_eq_ok.1 h
  have := (keeps_of_run hrun).parens
  omega

/-! ### Functions that wait -/

/-- A parenthesis lies on top of a stack. -/
def OnParen (stack : List Token) : Prop := ∃ o ∈ stack.head?, o.word = .leftParen

theorem onParen_cons {stack : List Token} : OnParen (t :: stack) ↔ t.word = .leftParen := by
  simp [OnParen]

/-- What can be told of the next parenthesis after the tokens `ts`: whether a function waits for it,
and whether it would then lie right on another one. -/
structure Foresees (ts : List Token) (s : Arrangement) : Prop where
  pending : s.pending ≠ none ↔ Waits ts
  onParen : s.expected = .operand → s.pending ≠ none →
    (OnParen s.stack ↔ ∃ us comma, ts = us ++ [comma] ∧ comma.word = .comma)

theorem foresees_start : Foresees [] .start :=
  ⟨iff_of_false (fun h => h rfl) not_waits_nil, fun _ h => absurd rfl h⟩

/-- Whether a list ends in a comma. -/
theorem exists_append_comma_iff :
    (∃ us comma, ts ++ [t] = us ++ [comma] ∧ comma.word = .comma) ↔ t.word = .comma := by
  constructor
  · rintro ⟨us, comma, h, hcomma⟩
    obtain ⟨-, rfl⟩ := List.append_singleton_inj.1 h
    exact hcomma
  · exact fun h => ⟨ts, t, rfl, h⟩

theorem Foresees.move (h : Foresees ts s) (hmove : Moves s t s') : Foresees (ts ++ [t]) s' := by
  -- most tokens leave the function that waits as it is
  have hsame (hplain : ∀ f, t.word ≠ .function f) (hparen : t.word ≠ .leftParen) :
      s.pending ≠ none ↔ Waits (ts ++ [t]) := by
    rw [waits_append_singleton, h.pending]
    simp [hplain, hparen]
  cases hmove with
  | operand _ ht hplain =>
      refine ⟨hsame hplain fun hparen => ?_, nofun⟩
      rw [hparen] at ht
      cases ht
  | @function f _ ht =>
      refine ⟨iff_of_true nofun (waits_append_singleton.2 (.inl ⟨f, ht⟩)), fun _ _ => ?_⟩
      rw [exists_append_comma_iff, onParen_cons, ht]
      exact iff_of_false nofun nofun
  | openParen _ ht =>
      refine ⟨iff_of_false (fun h => h rfl) ?_, fun _ h => absurd rfl h⟩
      rw [waits_append_singleton, ht]
      simp
  | comma ht _ _ ho =>
      refine ⟨hsame (by simp [ht]) (by simp [ht]), fun _ _ => ?_⟩
      rw [exists_append_comma_iff, onParen_cons]
      exact iff_of_true ho ht
  | closeGroup ht => exact ⟨hsame (by simp [ht]) (by simp [ht]), nofun⟩
  | closeCall ht => exact ⟨hsame (by simp [ht]) (by simp [ht]), nofun⟩
  | operator ht =>
      refine ⟨hsame (by simp [ht]) (by simp [ht]), fun _ _ => ?_⟩
      rw [exists_append_comma_iff, onParen_cons, ht]
      exact iff_of_false nofun nofun

/-! ### Parentheses that are put out -/

/-- An open parenthesis belongs to a function, but lies right on another one. -/
def Trapped (frames : List Frame) (stack : List Token) : Prop :=
  ∃ e ∈ frames.zip (belows stack), e.1.call ≠ none ∧ OnParen e.2

section

variable {frames : List Frame} {fr : Frame} {w below : List Token}

theorem trapped_append (hw : ∀ u ∈ w, u.word ≠ .leftParen) :
    Trapped frames (w ++ below) ↔ Trapped frames below := by
  rw [Trapped, belows_append hw, Trapped]

theorem trapped_cons (ht : t.word ≠ .leftParen) :
    Trapped frames (t :: below) ↔ Trapped frames below :=
  trapped_append (w := [t]) (List.forall_mem_singleton.2 ht)

theorem trapped_paren (ht : t.word = .leftParen) : Trapped (fr :: frames) (t :: below) ↔
    (fr.call ≠ none ∧ OnParen below) ∨ Trapped frames below := by
  rw [Trapped, belows_paren ht, List.zip_cons_cons, List.exists_mem_cons_iff, Trapped]

/-- What waits above the innermost open parenthesis makes no difference. -/
theorem trapped_open {o : Token} (hw : ∀ u ∈ w, u.word ≠ .leftParen) (ho : o.word = .leftParen) :
    Trapped (fr :: frames) (w ++ o :: below) ↔
      (fr.call ≠ none ∧ OnParen below) ∨ Trapped frames below := by
  rw [trapped_append hw, trapped_paren ho]

end

/-- Parentheses are put out only for a function that waits at a comma.  Until then every open
parenthesis has its frame, and such a function is known by the parenthesis that it was given. -/
structure Traps (ts : List Token) (s : Arrangement) : Prop where
  leak : ∀ o ∈ s.output, o.word = .leftParen → Stray ts
  sync : (∀ o ∈ s.output, o.word ≠ .leftParen) →
    s.frames.length = (belows s.stack).length ∧ (Stray ts ↔ Trapped s.frames s.stack)

theorem traps_start : Traps [] .start :=
  ⟨nofun, fun _ => ⟨rfl, iff_of_false not_stray_nil nofun⟩⟩

theorem Moves.output_subset (h : Moves s t s') : s.output ⊆ s'.output := by
  cases h with
  | operand => exact List.subset_cons_self _ _
  | function => exact List.Subset.refl _
  | openParen => exact List.Subset.refl _
  | comma => exact List.subset_append_right _ _
  | closeGroup => exact List.subset_append_right _ _
  | closeCall => exact fun u hu => List.mem_append_right _ (List.mem_append_right _ hu)
  | operator => exact List.subset_append_right _ _

theorem Traps.move (h : Traps ts s) (hforesees : Foresees ts s) (hmove : Moves s t s') :
    Traps (ts ++ [t]) s' := by
  by_cases hleak : ∃ o ∈ s.output, o.word = .leftParen
  · obtain ⟨o, ho, hparen⟩ := hleak
    have hstray : Stray (ts ++ [t]) := stray_append_singleton.2 (.inl (h.leak o ho hparen))
    exact ⟨fun _ _ _ => hstray, fun hclean => absurd hparen (hclean o (hmove.output_subset ho))⟩
  have hclean : ∀ o ∈ s.output, o.word ≠ .leftParen := fun o ho hparen => hleak ⟨o, ho, hparen⟩
  obtain ⟨hlength, hstray⟩ := h.sync hclean
  -- only an opening parenthesis can be given to a function
  have hsame (ht : t.word ≠ .leftParen) : Stray (ts ++ [t]) ↔ Trapped s.frames s.stack := by
    rw [stray_append_singleton, ← hstray]
    simp [ht]
  have hput {w : List Token} (hw : ∀ u ∈ w, u.word ≠ .leftParen) :
      ∀ u ∈ w.reverse ++ s.output, u.word ≠ .leftParen := by
    rw [List.forall_mem_append]
    exact ⟨fun u hu => hw u (List.mem_reverse.1 hu), hclean⟩
  cases hmove with
  | operand _ ht hplain =>
      have hparen : t.word ≠ .leftParen := by
        intro hparen
        rw [hparen] at ht
        cases ht
      have hall : ∀ o ∈ t :: s.output, o.word ≠ .leftParen :=
        List.forall_mem_cons.2 ⟨hparen, hclean⟩
      exact ⟨fun o ho hopen => absurd hopen (hall o ho), fun _ => ⟨hlength, hsame hparen⟩⟩
  | function _ ht =>
      have hparen : t.word ≠ .leftParen := by simp [ht]
      refine ⟨fun o ho hopen => absurd hopen (hclean o ho), fun _ => ?_⟩
      rw [belows, if_neg hparen, trapped_cons hparen]
      exact ⟨hlength, hsame hparen⟩
  | openParen hexpected ht =>
      refine ⟨fun o ho hopen => absurd hopen (hclean o ho), fun _ => ?_⟩
      rw [belows_paren ht, trapped_paren ht, stray_append_singleton, hstray, or_comm]
      refine ⟨by simpa using hlength, or_congr_left ?_⟩
      -- the new parenthesis is in the wrong place exactly if it comes behind a comma
      rw [← hforesees.pending, and_iff_left ht]
      exact and_congr_right fun hpending => (hforesees.onParen hexpected hpending).symm
  | @comma w below o f n p outer ht hstack hw ho hframes =>
      refine ⟨fun u hu hopen => absurd hopen (hput hw u hu), fun _ => ?_⟩
      rw [hstack, hframes, belows_append hw] at hlength
      have hsame := hsame (by simp [ht])
      rw [hstack, hframes, trapped_open hw ho] at hsame
      rw [trapped_paren ho]
      exact ⟨hlength, hsame⟩
  | @closeGroup w below o n p outer ht hstack hw ho hframes =>
      refine ⟨fun u hu hopen => absurd hopen (hput hw u hu), fun _ => ?_⟩
      rw [hstack, hframes, belows_append hw, belows_paren ho] at hlength
      have hsame := hsame (by simp [ht])
      rw [hstack, hframes, trapped_open hw ho] at hsame
      exact ⟨Nat.succ.inj hlength, hsame.trans (or_iff_right fun h => h.1 rfl)⟩
  | @closeCall w below o f n p outer ht hstack hw ho hframes =>
      rw [hstack, hframes, belows_append hw, belows_paren ho] at hlength
      have hsame := hsame (by simp [ht])
      rw [hstack, hframes, trapped_open hw ho] at hsame
      have hrest : (⟨some f, n, p⟩ : Frame).call ≠ none := nofun
      cases below with
      | nil =>
          refine ⟨fun u hu hopen => absurd hopen (hput hw u hu), fun _ => ?_⟩
          exact ⟨Nat.succ.inj hlength, hsame.trans (or_iff_right fun h => by simp [OnParen] at h)⟩
      | cons call below =>
          by_cases hcall : call.word = .leftParen
          · -- the parenthesis of the arguments is taken for the function
            have hstray := hsame.2 (.inl ⟨hrest, onParen_cons.2 hcall⟩)
            refine ⟨fun _ _ _ => hstray, fun hnone => absurd hcall (hnone call ?_)⟩
            exact List.mem_append_left _ List.mem_cons_self
          · have hall : ∀ u ∈ call :: (w.reverse ++ s.output), u.word ≠ .leftParen :=
              List.forall_mem_cons.2 ⟨hcall, hput hw⟩
            refine ⟨fun u hu hopen => absurd hopen (hall u hu), fun _ => ?_⟩
            rw [belows, if_neg hcall] at hlength
            rw [onParen_cons, trapped_cons hcall] at hsame
            exact ⟨Nat.succ.inj hlength, hsame.trans (or_iff_right fun h => hcall h.2)⟩
  | @operator op w below ht hstack hw =>
      have hparen : t.word ≠ .leftParen := by simp [ht]
      refine ⟨fun u hu hopen => absurd hopen (hput hw u hu), fun _ => ?_⟩
      rw [hstack, belows_append hw] at hlength
      have hsame := hsame hparen
      rw [hstack, trapped_append hw] at hsame
      rw [belows, if_neg hparen, trapped_cons hparen]
      exact ⟨hlength, hsame⟩

theorem traps_of_run (h : ts.foldlM step .start = .ok s) : Traps ts s := by
  refine (run_induction (P := fun ts s => Foresees ts s ∧ Traps ts s) ⟨foresees_start, traps_start⟩
    (fun _ _ _ _ hboth hmove => ?_) h).2
  exact ⟨hboth.1.move hmove, hboth.2.move hboth.1 hmove⟩

theorem exists_of_finish (h : s.finish = .ok out) :
    (∀ u ∈ s.stack, u.word ≠ .leftParen) ∧ out = s.output.reverse ++ s.stack := by
  unfold finish at h
  split at h
  · cases h
  · split at h
    · cases h
    · next hfind =>
        cases h
        exact ⟨by simpa using hfind, rfl⟩

end Arrangement

/-! ### Whole lists -/

/-- **An accepted list is balanced**, and what is put out are its numbers, names, operators and
functions, each once, and nothing else.  This fails exactly if a function that waits at a comma is
given the parenthesis right behind it: then a parenthesis is put out, and it is not closed.  There
is no such function in a list of the lexer. -/
theorem reversePolish_balanced (h : reversePolish ts = .ok out) :
    (¬ Stray ts → Balanced ts ∧ out.Perm (ts.filter (·.word.isListed))) ∧
    (Stray ts → ¬ Balanced ts ∧ ∃ o ∈ out, o.word = .leftParen) ∧
    (CallsOpen ts → ¬ Stray ts) := by
  obtain ⟨s, hrun, hfinish⟩ := Except.bind_eq_ok.1 h
  obtain ⟨hstack, rfl⟩ := Arrangement.exists_of_finish hfinish
  have hkeeps := Arrangement.keeps_of_run hrun
  have htraps := Arrangement.traps_of_run hrun
  have hkept : (s.output.reverse ++ s.stack).Perm s.kept :=
    (List.reverse_perm s.output).append_right _
  have hparens := hkeeps.parens
  refine ⟨fun hstray => ?_, fun hstray => ?_, CallsOpen.not_stray⟩
  · have hnone : ∀ u ∈ s.kept, u.word ≠ .leftParen :=
      List.forall_mem_append.2 ⟨fun u hu hparen => hstray (htraps.leak u hu hparen), hstack⟩
    have hopened : opened s.kept = 0 := List.countP_eq_zero.2 fun u hu => by simpa using hnone u hu
    have hall : s.kept.filter (·.word.isListed) = s.kept :=
      List.filter_eq_self.2 fun u hu => (hkeeps.only u hu).resolve_right (hnone u hu)
    refine ⟨⟨fun us hfront => Arrangement.closed_le_of_run hrun hfront, by omega⟩, ?_⟩
    exact hkept.trans (hall ▸ hkeeps.listed)
  · -- at the end no parenthesis is left on the stack, so it has been put out
    have hnone : belows s.stack = [] := by
      have hbelows : belows (s.stack ++ []) = belows [] := belows_append hstack
      rwa [List.append_nil] at hbelows
    have hleak : ∃ o ∈ s.output, o.word = .leftParen := by
      by_contra hclean
      have hsync := htraps.sync fun o ho hparen => hclean ⟨o, ho, hparen⟩
      obtain ⟨e, he, -⟩ := hsync.2.1 hstray
      rw [hnone, List.zip_nil_right] at he
      cases he
    obtain ⟨o, ho, hparen⟩ := hleak
    have hopened : 0 < opened s.kept :=
      List.countP_pos_iff.2 ⟨o, List.mem_append_left _ ho, by simpa using hparen⟩
    refine ⟨fun hbalanced => ?_, o, List.mem_append_left _ (List.mem_reverse.2 ho), hparen⟩
    have := hbalanced.closed_eq
    omega

/-- The tokens of `ceil 1 + (2)`, where the parenthesis is given to the function. -/
def farParen : List Token :=
  [⟨.function .ceil, 0⟩, ⟨.number .one, 5⟩, ⟨.operator .add, 7⟩, ⟨.leftParen, 9⟩,
    ⟨.number .two, 10⟩, ⟨.rightParen, 11⟩]

/-- Without a comma all is well, though the operator is put out for the function. -/
theorem reversePolish_balanced_farParen : ∃ out, reversePolish farParen = .ok out ∧
    ¬ Stray farParen ∧ Balanced farParen ∧ out.Perm (farParen.filter (·.word.isListed)) := by
  have hcommas : ∀ u ∈ farParen, u.word ≠ .comma := by decide
  have hstray : ¬ Stray farParen := by
    rintro ⟨before, comma, paren, hfront, -, hcomma, -⟩
    exact hcommas comma (hfront.subset (by simp)) hcomma
  have hout : reversePolish farParen = .ok [⟨.number .one, 5⟩, ⟨.number .two, 10⟩,
      ⟨.operator .add, 7⟩, ⟨.function .ceil, 0⟩] := by decide
  exact ⟨_, hout, hstray, (reversePolish_balanced hout).1 hstray⟩

/-- The tokens of `min(ceil 1, (2)`. -/
def unclosed : List Token :=
  [⟨.function .min, 0⟩, ⟨.leftParen, 3⟩, ⟨.function .ceil, 4⟩, ⟨.number .one, 5⟩, ⟨.comma, 6⟩,
    ⟨.leftParen, 7⟩, ⟨.number .two, 8⟩, ⟨.rightParen, 9⟩]

/-- The parenthesis of the arguments is put out for `ceil`, and so it need not be closed. -/
theorem stray_accepted : ∃ out, reversePolish unclosed = .ok out ∧ ¬ Balanced unclosed ∧
    ¬ out.Perm (unclosed.filter (·.word.isListed)) := by
  have hout : reversePolish unclosed = .ok [⟨.number .one, 5⟩, ⟨.function .ceil, 4⟩,
      ⟨.number .two, 8⟩, ⟨.leftParen, 3⟩, ⟨.function .min, 0⟩] := by decide
  refine ⟨_, hout, fun hbalanced => ?_, by decide⟩
  exact absurd hbalanced.closed_eq (by decide)

end Estimating.Expression
