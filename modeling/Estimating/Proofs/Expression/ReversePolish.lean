/-
Putting tokens into reverse Polish order is parsing.

The tokens of a sentence of the grammar are put out as the listing of its derivation, and no other
list of tokens is accepted.  One direction follows a derivation: it is shown what each of its
phrases does to the state between two tokens.  The other one reads a phrase off the head of any list
that is accepted, and hands what remains to the first direction, which knows the state there.

* `Expression.Arrangement.complete` — the result when given tokens follow on a state;
* `Expression.Arrangement.Leads` — given tokens lead from one state to another;
* `Expression.Derivation.read` — **what a phrase does**: its listing has been put out, but for some
  operators that still wait;
* `Expression.Arrangement.Accepts` — given tokens may follow on a state;
* `Expression.Arrangement.readable_expr` — an accepted list begins with an expression;
* `Expression.Arrangement.step_error`, `Expression.Arrangement.finish_error` — where a list is
  refused;
* `Expression.reversePolish_iff_derivation` — **the accepted lists are the sentences**, and the
  result is the listing of the tree.
-/
import Estimating.Proofs.Expression.Grammar
import Mathlib.Data.List.TakeWhile

set_option autoImplicit false

namespace Estimating.Expression

namespace Arrangement

/-! ### Runs -/

/-- The result when the tokens `ts` follow on the state `s`. -/
def complete (s : Arrangement) (ts : List Token) : Except Error (List Token) :=
  ts.foldlM step s >>= finish

theorem complete_cons (s : Arrangement) (t : Token) (ts : List Token) :
    s.complete (t :: ts) = s.step t >>= fun s' => s'.complete ts := by
  simp only [complete, List.foldlM_cons, bind_assoc]

/-- A state in which no function waits for its parenthesis. -/
def between (output stack : List Token) (frames : List Frame) (expected : Expectation) :
    Arrangement :=
  ⟨output, stack, frames, expected, none, 0⟩

/-- The tokens `us` lead from the state `s` to the state `s'`, up to the place of the last token. -/
def Leads (s : Arrangement) (us : List Token) (s' : Arrangement) : Prop :=
  ∀ e ts, ∃ e', { s with ending := e }.complete (us ++ ts) = { s' with ending := e' }.complete ts

namespace Leads

theorem refl (s : Arrangement) : Leads s [] s := fun e _ => ⟨e, rfl⟩

theorem trans {s s' s'' : Arrangement} {us vs : List Token} (h : Leads s us s')
    (h' : Leads s' vs s'') : Leads s (us ++ vs) s'' := by
  intro e ts
  obtain ⟨e', he'⟩ := h e (vs ++ ts)
  obtain ⟨e'', he''⟩ := h' e' ts
  exact ⟨e'', by rw [List.append_assoc, he', he'']⟩

/-- One token that is accepted. -/
theorem single {s s' : Arrangement} {t : Token}
    (h : ∀ e, { s with ending := e }.step t = .ok { s' with ending := t.position + 1 }) :
    Leads s [t] s' := by
  intro e ts
  refine ⟨t.position + 1, ?_⟩
  show complete _ (t :: ts) = _
  rw [complete_cons, h e]
  rfl

end Leads

/-! ### Single tokens -/

variable {out st : List Token} {fr : List Frame}

theorem leads_number (x : Decimal) (p : Nat) :
    Leads (between out st fr .operand) [⟨.number x, p⟩]
      (between (⟨.number x, p⟩ :: out) st fr .operator) :=
  Leads.single fun _ => rfl

theorem leads_name (text : String) (p : Nat) :
    Leads (between out st fr .operand) [⟨.variable text, p⟩]
      (between (⟨.variable text, p⟩ :: out) st fr .operator) :=
  Leads.single fun _ => rfl

theorem leads_open (o : Nat) :
    Leads (between out st fr .operand) [⟨.leftParen, o⟩]
      (between out (⟨.leftParen, o⟩ :: st) (⟨none, 1, o⟩ :: fr) .operand) :=
  Leads.single fun _ => rfl

/-- A function waits together with the parenthesis after it. -/
theorem leads_call (f : Function) (p o : Nat) :
    Leads (between out st fr .operand) [⟨.function f, p⟩, ⟨.leftParen, o⟩]
      (between out (⟨.leftParen, o⟩ :: ⟨.function f, p⟩ :: st) (⟨some f, 1, o⟩ :: fr)
        .operand) := by
  have hf : Leads (between out st fr .operand) [⟨.function f, p⟩]
      ⟨out, ⟨.function f, p⟩ :: st, fr, .operand, some f, 0⟩ := Leads.single fun _ => rfl
  exact hf.trans (Leads.single fun _ => rfl)

/-- Tokens that are applied before an operator of the given precedence. -/
def Waiting (precedence : Nat) (ts : List Token) : Prop :=
  ∀ t ∈ ts, bindsFirst precedence t = true

theorem takeWhile_waiting {n : Nat} {w : List Token} (hw : Waiting n w) (hst : Blocked n st) :
    (w ++ st).takeWhile (bindsFirst n) = w := by
  rw [List.takeWhile_append_of_pos hw]
  cases st with
  | nil => simp
  | cons t st => simp [hst.head]

theorem leads_operator {w : List Token} {op : Operator} (p : Nat)
    (hw : Waiting op.precedence w) (hst : Blocked op.precedence st) :
    Leads (between out (w ++ st) fr .operator) [⟨.operator op, p⟩]
      (between (w.reverse ++ out) (⟨.operator op, p⟩ :: st) fr .operand) := by
  refine Leads.single fun e => ?_
  show operator _ op _ = _
  simp only [operator, between, require, if_true, bind, Except.bind, pure, Except.pure]
  rw [takeWhile_waiting hw hst, List.drop_left]

/-- What waits is an operator. -/
theorem Waiting.ne_leftParen {n : Nat} {w : List Token} (hw : Waiting n w) :
    ∀ t ∈ w, (fun t : Token => decide (t.word ≠ .leftParen)) t = true := by
  intro t ht
  have h := hw t ht
  unfold bindsFirst at h
  split at h
  · next op hop => simp [hop]
  · cases h

/-- Operators wait above an opening parenthesis until it is closed. -/
theorem flushToParen_waiting {s : Arrangement} {w : List Token} {n o : Nat}
    (hw : Waiting n w) (hs : s.stack = w ++ ⟨.leftParen, o⟩ :: st) (p : Nat)
    (fault : GrammarFault) :
    s.flushToParen p fault =
      .ok { s with output := w.reverse ++ s.output, stack := ⟨.leftParen, o⟩ :: st } := by
  have htake : s.stack.takeWhile (fun t => decide (t.word ≠ .leftParen)) = w := by
    rw [hs, List.takeWhile_append_of_pos hw.ne_leftParen]
    simp
  simp only [flushToParen, htake]
  rw [hs, List.drop_left]

theorem leads_comma {w : List Token} {n o : Nat} (hw : Waiting n w) (f : Function) (k q p : Nat) :
    Leads (between out (w ++ ⟨.leftParen, o⟩ :: st) (⟨some f, k, q⟩ :: fr) .operator)
      [⟨.comma, p⟩]
      (between (w.reverse ++ out) (⟨.leftParen, o⟩ :: st) (⟨some f, k + 1, q⟩ :: fr) .operand) := by
  refine Leads.single fun e => ?_
  show comma _ _ = _
  simp only [comma, require, between, if_true, bind, Except.bind]
  rw [flushToParen_waiting hw rfl]
  rfl

theorem leads_closeGroup {w : List Token} {n o : Nat} (hw : Waiting n w) (k q p : Nat) :
    Leads (between out (w ++ ⟨.leftParen, o⟩ :: st) (⟨none, k, q⟩ :: fr) .operator)
      [⟨.rightParen, p⟩] (between (w.reverse ++ out) st fr .operator) := by
  refine Leads.single fun e => ?_
  show closeParen _ _ = _
  simp only [closeParen, require, between, if_true, bind, Except.bind]
  rw [flushToParen_waiting hw rfl]
  rfl

theorem leads_closeCall {w : List Token} {n o : Nat} (hw : Waiting n w) (f : Function)
    (t : Token) (q p : Nat) :
    Leads (between out (w ++ ⟨.leftParen, o⟩ :: t :: st) (⟨some f, f.arity, q⟩ :: fr) .operator)
      [⟨.rightParen, p⟩] (between (t :: (w.reverse ++ out)) st fr .operator) := by
  refine Leads.single fun e => ?_
  show closeParen _ _ = _
  simp only [closeParen, require, between, if_true, bind, Except.bind]
  rw [flushToParen_waiting hw rfl]
  simp [pure, Except.pure]

theorem Waiting.nil (n : Nat) : Waiting n [] := nofun

theorem Waiting.mono {n m : Nat} {w : List Token} (h : Waiting m w) (hnm : n ≤ m) :
    Waiting n w := by
  intro t ht
  have hm := h t ht
  unfold bindsFirst at hm ⊢
  split
  · next op hop =>
      simp only [hop, decide_eq_true_eq] at hm ⊢
      omega
  · next hno => simp_all

/-- An operator waits above another one that is applied after it. -/
theorem Waiting.append {n : Nat} {w : List Token} {op : Operator} (h : Waiting n w)
    (hop : n ≤ op.precedence) (p : Nat) : Waiting n (w ++ [⟨.operator op, p⟩]) := by
  intro t ht
  rcases List.mem_append.1 ht with ht | ht
  · exact h t ht
  · cases List.mem_singleton.1 ht
    exact decide_eq_true hop

end Arrangement

/-! ### What a phrase does -/

namespace Derivation

open Arrangement

/-- What reading a phrase does to the state. -/
def Read : {σ : Phrase} → Derivation σ → Prop
  | .level l, d => ∀ out st fr, Blocked l.rank st → ∃ out' w,
      Leads (between out st fr .operand) d.yield (between out' (w ++ st) fr .operator) ∧
        Waiting l.rank w ∧ w.reverse ++ out' = d.listing.reverse ++ out
  | .more l, d => ∀ out v st fr, Blocked l.rank st → Waiting l.rank v → ∃ out' w,
      Leads (between out (v ++ st) fr .operator) d.yield (between out' (w ++ st) fr .operator) ∧
        Waiting l.rank w ∧ w.reverse ++ out' = d.listing.reverse ++ (v.reverse ++ out)
  | .args n, d => ∀ out st fr f k q o, ∃ out' w,
      Leads (between out (⟨.leftParen, o⟩ :: st) (⟨some f, k, q⟩ :: fr) .operand) d.yield
        (between out' (w ++ ⟨.leftParen, o⟩ :: st) (⟨some f, k + n - 1, q⟩ :: fr) .operator) ∧
        Waiting 1 w ∧ w.reverse ++ out' = d.listing.reverse ++ out

/-- **What a phrase does**: its listing has been put out, but for some operators that wait. -/
theorem read {σ : Phrase} (d : Derivation σ) : d.Read := by
  induction d with
  | chain l hl first others ihf iho =>
      intro out st fr hst
      have hrank := Level.rank_part hl
      obtain ⟨out₁, w₁, hlead₁, hw₁, hout₁⟩ := ihf out st fr (hst.mono (by omega))
      obtain ⟨out₂, w₂, hlead₂, hw₂, hout₂⟩ := iho out₁ w₁ st fr hst (hw₁.mono (by omega))
      refine ⟨out₂, w₂, hlead₁.trans hlead₂, hw₂, ?_⟩
      rw [hout₂, hout₁, listing, List.reverse_append, List.append_assoc]
  | done l =>
      intro out v st fr _ hv
      exact ⟨out, v, Leads.refl _, hv, rfl⟩
  | next l op hop p part others ihp iho =>
      intro out v st fr hst hv
      have hprec := Level.precedence_of_mem hop
      have hl : l ≠ .factor := by rintro rfl; cases hop
      have hrank := Level.rank_part hl
      -- the operators before it are put out, then it waits itself
      have hlead : Leads (between out (v ++ st) fr .operator) [⟨.operator op, p⟩]
          (between (v.reverse ++ out) (⟨.operator op, p⟩ :: st) fr .operand) :=
        leads_operator p (hprec ▸ hv) (hprec ▸ hst)
      obtain ⟨out₁, w₁, hlead₁, hw₁, hout₁⟩ :=
        ihp (v.reverse ++ out) _ fr (blocked_operator hop p st)
      have hw : Waiting l.rank (w₁ ++ [⟨.operator op, p⟩]) :=
        (hw₁.mono (by omega)).append (by omega) p
      obtain ⟨out₂, w₂, hlead₂, hw₂, hout₂⟩ := iho out₁ _ st fr hst hw
      rw [List.append_assoc, List.singleton_append] at hlead₂
      refine ⟨out₂, w₂, hlead.trans (hlead₁.trans hlead₂), hw₂, ?_⟩
      rw [hout₂, List.reverse_append, List.append_assoc, hout₁, listing]
      simp
  | number x p =>
      intro out st fr _
      exact ⟨_, [], leads_number x p, Waiting.nil _, rfl⟩
  | name text p =>
      intro out st fr _
      exact ⟨_, [], leads_name text p, Waiting.nil _, rfl⟩
  | group o c inner ih =>
      intro out st fr _
      obtain ⟨out', w, hlead, hw, hout⟩ :=
        ih out (⟨.leftParen, o⟩ :: st) (⟨none, 1, o⟩ :: fr) (Blocked.cons rfl st)
      refine ⟨w.reverse ++ out', [], ?_, Waiting.nil _, hout⟩
      exact (leads_open o).trans (hlead.trans (leads_closeGroup hw _ _ c))
  | call f p o c inner ih =>
      intro out st fr _
      obtain ⟨out', w, hlead, hw, hout⟩ := ih out (⟨.function f, p⟩ :: st) fr f 1 o o
      refine ⟨⟨.function f, p⟩ :: (w.reverse ++ out'), [], ?_, Waiting.nil _, ?_⟩
      · rw [Nat.add_comm 1, Nat.add_sub_cancel] at hlead
        exact (leads_call f p o).trans (hlead.trans (leads_closeCall hw f ⟨.function f, p⟩ o c))
      · rw [hout, listing]
        simp
  | lastArg arg ih =>
      intro out st fr f k q o
      obtain ⟨out', w, hlead, hw, hout⟩ :=
        ih out (⟨.leftParen, o⟩ :: st) (⟨some f, k, q⟩ :: fr) (Blocked.cons rfl st)
      exact ⟨out', w, hlead, hw, hout⟩
  | nextArg n comma arg others iha iho =>
      intro out st fr f k q o
      obtain ⟨out₁, w₁, hlead₁, hw₁, hout₁⟩ :=
        iha out (⟨.leftParen, o⟩ :: st) (⟨some f, k, q⟩ :: fr) (Blocked.cons rfl st)
      obtain ⟨out₂, w₂, hlead₂, hw₂, hout₂⟩ := iho (w₁.reverse ++ out₁) st fr f (k + 1) q o
      rw [show k + 1 + n - 1 = k + (n + 1) - 1 by omega] at hlead₂
      refine ⟨out₂, w₂, hlead₁.trans ((leads_comma hw₁ f k q comma).trans hlead₂), hw₂, ?_⟩
      rw [hout₂, hout₁, listing, List.reverse_append, List.append_assoc]

end Derivation

/-! ### What is accepted -/

namespace Arrangement

/-- The tokens `ts` may follow on the state `s`. -/
def Accepts (s : Arrangement) (ts : List Token) : Prop :=
  ∃ e r, { s with ending := e }.complete ts = .ok r

theorem Leads.accepts {s s' : Arrangement} {us ts : List Token} (h : Leads s us s')
    (ha : s.Accepts (us ++ ts)) : s'.Accepts ts := by
  obtain ⟨e, r, hr⟩ := ha
  obtain ⟨e', he'⟩ := h e ts
  exact ⟨e', r, he' ▸ hr⟩

/-- A list that may follow where an operand is expected begins with a number, a name, a function or
a parenthesis. -/
theorem Accepts.operand_inv {out st : List Token} {fr : List Frame} {ts : List Token}
    (h : (between out st fr .operand).Accepts ts) :
    (∃ x p us, ts = ⟨.number x, p⟩ :: us) ∨ (∃ text p us, ts = ⟨.variable text, p⟩ :: us) ∨
      (∃ f p us, ts = ⟨.function f, p⟩ :: us) ∨ ∃ p us, ts = ⟨.leftParen, p⟩ :: us := by
  obtain ⟨e, r, hr⟩ := h
  cases ts with
  | nil => cases hr
  | cons t us =>
      obtain ⟨w, p⟩ := t
      cases w with
      | number x => exact .inl ⟨x, p, us, rfl⟩
      | «variable» text => exact .inr (.inl ⟨text, p, us, rfl⟩)
      | function f => exact .inr (.inr (.inl ⟨f, p, us, rfl⟩))
      | leftParen => exact .inr (.inr (.inr ⟨p, us, rfl⟩))
      | operator op => rw [complete_cons] at hr; cases hr
      | rightParen => rw [complete_cons] at hr; cases hr
      | comma => rw [complete_cons] at hr; cases hr

/-- A list that may follow on an operand is empty or begins with an operator, a comma or a closing
parenthesis. -/
theorem Accepts.operator_inv {out st : List Token} {fr : List Frame} {ts : List Token}
    (h : (between out st fr .operator).Accepts ts) :
    ts = [] ∨ (∃ op p us, ts = ⟨.operator op, p⟩ :: us) ∨ (∃ p us, ts = ⟨.comma, p⟩ :: us) ∨
      ∃ p us, ts = ⟨.rightParen, p⟩ :: us := by
  obtain ⟨e, r, hr⟩ := h
  cases ts with
  | nil => exact .inl rfl
  | cons t us =>
      obtain ⟨w, p⟩ := t
      cases w with
      | number x => rw [complete_cons] at hr; cases hr
      | «variable» text => rw [complete_cons] at hr; cases hr
      | function f => rw [complete_cons] at hr; cases hr
      | leftParen => rw [complete_cons] at hr; cases hr
      | operator op => exact .inr (.inl ⟨op, p, us, rfl⟩)
      | comma => exact .inr (.inr (.inl ⟨p, us, rfl⟩))
      | rightParen => exact .inr (.inr (.inr ⟨p, us, rfl⟩))

/-- Nothing may end while a parenthesis is open. -/
theorem not_accepts_nil {out st w : List Token} {fr : List Frame} {o : Nat} :
    ¬ (between out (w ++ ⟨.leftParen, o⟩ :: st) fr .operator).Accepts [] := by
  rintro ⟨e, r, hr⟩
  have hr : finish ⟨out, w ++ ⟨.leftParen, o⟩ :: st, fr, .operator, none, e⟩ = .ok r := hr
  simp only [finish, reduceCtorEq, if_false] at hr
  split at hr
  · cases hr
  · next hfind =>
      have := List.find?_eq_none.1 hfind ⟨.leftParen, o⟩ (by simp)
      simp at this

/-- A comma stands between arguments only. -/
theorem not_accepts_comma {out st w ts : List Token} {fr : List Frame} {n k o q p : Nat}
    (hw : Waiting n w) :
    ¬ (between out (w ++ ⟨.leftParen, o⟩ :: st) (⟨none, k, q⟩ :: fr) .operator).Accepts
      (⟨.comma, p⟩ :: ts) := by
  rintro ⟨e, r, hr⟩
  rw [complete_cons] at hr
  obtain ⟨s, hs, -⟩ := Except.bind_eq_ok.1 hr
  have hs : comma ⟨out, w ++ ⟨.leftParen, o⟩ :: st, ⟨none, k, q⟩ :: fr, .operator, none, p + 1⟩
      ⟨.comma, p⟩ = .ok s := hs
  simp only [comma, require, if_true, bind, Except.bind] at hs
  rw [flushToParen_waiting hw rfl] at hs
  cases hs

/-- A call is closed after as many arguments as its function takes. -/
theorem Accepts.arity_eq {out st w ts : List Token} {fr : List Frame} {n k o q p : Nat}
    {f : Function} (hw : Waiting n w)
    (h : (between out (w ++ ⟨.leftParen, o⟩ :: st) (⟨some f, k, q⟩ :: fr) .operator).Accepts
      (⟨.rightParen, p⟩ :: ts)) : k = f.arity := by
  obtain ⟨e, r, hr⟩ := h
  rw [complete_cons] at hr
  obtain ⟨s, hs, -⟩ := Except.bind_eq_ok.1 hr
  have hs : closeParen
      ⟨out, w ++ ⟨.leftParen, o⟩ :: st, ⟨some f, k, q⟩ :: fr, .operator, none, p + 1⟩
      ⟨.rightParen, p⟩ = .ok s := hs
  simp only [closeParen, require, if_true, bind, Except.bind] at hs
  rw [flushToParen_waiting hw rfl] at hs
  by_contra hk
  simp [hk] at hs

theorem flushToParen_error {s : Arrangement} {n : Nat} (hw : Waiting n s.stack) (p : Nat)
    (fault : GrammarFault) : s.flushToParen p fault = .error (.grammar p fault) := by
  have htake : s.stack.takeWhile (fun t => decide (t.word ≠ .leftParen)) = s.stack :=
    List.takeWhile_eq_self_iff.2 hw.ne_leftParen
  simp only [flushToParen, htake, List.drop_length]

/-- Without an open parenthesis no comma may follow. -/
theorem not_accepts_comma_outside {out w ts : List Token} {fr : List Frame} {n p : Nat}
    (hw : Waiting n w) : ¬ (between out w fr .operator).Accepts (⟨.comma, p⟩ :: ts) := by
  rintro ⟨e, r, hr⟩
  rw [complete_cons] at hr
  obtain ⟨s, hs, -⟩ := Except.bind_eq_ok.1 hr
  have hs : comma ⟨out, w, fr, .operator, none, p + 1⟩ ⟨.comma, p⟩ = .ok s := hs
  simp only [comma, require, if_true, bind, Except.bind] at hs
  rw [flushToParen_error hw] at hs
  cases hs

/-- Without an open parenthesis none may be closed. -/
theorem not_accepts_close_outside {out w ts : List Token} {fr : List Frame} {n p : Nat}
    (hw : Waiting n w) : ¬ (between out w fr .operator).Accepts (⟨.rightParen, p⟩ :: ts) := by
  rintro ⟨e, r, hr⟩
  rw [complete_cons] at hr
  obtain ⟨s, hs, -⟩ := Except.bind_eq_ok.1 hr
  have hs : closeParen ⟨out, w, fr, .operator, none, p + 1⟩ ⟨.rightParen, p⟩ = .ok s := hs
  simp only [closeParen, require, if_true, bind, Except.bind] at hs
  rw [flushToParen_error hw] at hs
  cases hs

/-! ### Reading phrases off an accepted list -/

/-- Accepted lists of at most `n` tokens begin with a phrase of the level `l`. -/
def Readable (l : Level) (n : Nat) : Prop :=
  ∀ ts, ts.length ≤ n → CallsOpen ts → ∀ out st fr, Blocked l.rank st →
    (between out st fr .operand).Accepts ts →
    ∃ (d : Derivation (.level l)) (rest : List Token), ts = d.yield ++ rest ∧ Blocked l.rank rest

/-- An operator of a level is put on the stack, after some others have left it. -/
theorem exists_leads_operator (out st : List Token) (fr : List Frame) (op : Operator) (p : Nat) :
    ∃ out' st', Leads (between out st fr .operator) [⟨.operator op, p⟩]
      (between out' (⟨.operator op, p⟩ :: st') fr .operand) := by
  have hst : st.takeWhile (bindsFirst op.precedence) ++ st.dropWhile (bindsFirst op.precedence)
      = st := List.takeWhile_append_dropWhile
  have hw : Waiting op.precedence (st.takeWhile (bindsFirst op.precedence)) :=
    fun t ht => List.mem_takeWhile_imp ht
  have hblock : Blocked op.precedence (st.dropWhile (bindsFirst op.precedence)) := by
    intro t ht
    have := List.head?_dropWhile_not (bindsFirst op.precedence) st
    rw [Option.mem_def.1 ht] at this
    simpa using this
  refine ⟨(st.takeWhile (bindsFirst op.precedence)).reverse ++ out,
    st.dropWhile (bindsFirst op.precedence), ?_⟩
  have h : Leads (between out (st.takeWhile (bindsFirst op.precedence) ++
      st.dropWhile (bindsFirst op.precedence)) fr .operator) [⟨.operator op, p⟩] _ :=
    leads_operator p hw hblock
  rw [hst] at h
  exact h

/-- After a part come as many further parts as there are operators of the level. -/
theorem exists_more {l : Level} (hl : l ≠ .factor) {n : Nat} (hpart : Readable l.part n) :
    ∀ m ≤ n, ∀ ts, ts.length ≤ m → CallsOpen ts → Blocked l.part.rank ts → ∀ out st fr,
    (between out st fr .operator).Accepts ts →
    ∃ (d : Derivation (.more l)) (rest : List Token), ts = d.yield ++ rest ∧
      Blocked l.rank rest := by
  intro m
  -- on the number of tokens: a further part and its operator are read off together
  induction m with
  | zero =>
      intro _ ts hts _ _ out st fr _
      obtain rfl := List.eq_nil_of_length_eq_zero (Nat.le_zero.1 hts)
      exact ⟨.done l, [], rfl, Blocked.nil _⟩
  | succ m ih =>
      intro hm ts hts hopen hend out st fr ha
      by_cases hop : ∃ op p us, op ∈ l.operators ∧ ts = ⟨.operator op, p⟩ :: us
      · obtain ⟨op, p, us, hop, rfl⟩ := hop
        have hlen : us.length ≤ m := by simpa using hts
        obtain ⟨out₁, st₁, hlead⟩ := exists_leads_operator out st fr op p
        have hblock : Blocked l.part.rank (⟨.operator op, p⟩ :: st₁) := by
          refine Blocked.cons ?_ _
          rw [bindsFirst_operator, Level.precedence_of_mem hop, Level.rank_part hl]
          simp
        obtain ⟨d, rest, rfl, hrest⟩ :=
          hpart us (by omega) hopen.tail out₁ _ fr hblock (hlead.accepts ha)
        obtain ⟨out₂, w, hread, -, -⟩ := d.read out₁ _ fr hblock
        rw [List.length_append] at hlen
        obtain ⟨ds, rest', rfl, hrest'⟩ := ih (by omega) rest (by omega)
          hopen.tail.append_right hrest _ _ fr (hread.accepts (hlead.accepts ha))
        exact ⟨.next l op hop p d ds, rest', by simp [Derivation.yield], hrest'⟩
      · refine ⟨.done l, ts, rfl, ?_⟩
        -- no operator of the level follows, and none that binds tighter
        intro t ht
        by_contra hbinds
        obtain ⟨us, rfl⟩ := List.head?_eq_some_iff.1 ht
        have htight := hend.head
        unfold bindsFirst at hbinds htight
        split at hbinds
        · next op hw =>
            simp only [hw, Level.rank_part hl, decide_eq_false_iff_not] at htight
            simp only [Bool.not_eq_false, decide_eq_true_eq] at hbinds
            refine hop ⟨op, t.position, us, Level.mem_of_precedence (by omega), ?_⟩
            rw [← hw]
        · exact hbinds rfl

/-- A phrase of a level is a first part and further ones. -/
theorem readable_of_part {l : Level} (hl : l ≠ .factor) {n : Nat} (hpart : Readable l.part n) :
    Readable l n := by
  intro ts hts hopen out st fr hst ha
  have hrank := Level.rank_part hl
  have hblock : Blocked l.part.rank st := hst.mono (by omega)
  obtain ⟨d, rest, rfl, hrest⟩ := hpart ts hts hopen out st fr hblock ha
  obtain ⟨out₁, w, hread, -, -⟩ := d.read out st fr hblock
  rw [List.length_append] at hts
  obtain ⟨ds, rest', rfl, hrest'⟩ := exists_more hl hpart n (Nat.le_refl n) rest (by omega)
    hopen.append_right hrest _ _ fr (hread.accepts ha)
  exact ⟨.chain l hl d ds, rest', by simp [Derivation.yield], hrest'⟩

/-- The arguments of a call go on to its closing parenthesis, and there are as many as the function
takes, `k - 1` of them before these. -/
theorem exists_args {n : Nat} (hexpr : Readable .expr n) {f : Function} :
    ∀ m ≤ n, ∀ ts, ts.length ≤ m → CallsOpen ts → ∀ out o st k q fr,
    (between out (⟨.leftParen, o⟩ :: st) (⟨some f, k, q⟩ :: fr) .operand).Accepts ts →
    ∃ (count : Nat) (d : Derivation (.args count)) (p : Nat) (rest : List Token),
      ts = d.yield ++ ⟨.rightParen, p⟩ :: rest ∧ k + count = f.arity + 1 := by
  intro m
  induction m with
  | zero =>
      intro _ ts hts _ out o st k q fr ha
      obtain rfl := List.eq_nil_of_length_eq_zero (Nat.le_zero.1 hts)
      rcases ha.operand_inv with ⟨_, _, _, h⟩ | ⟨_, _, _, h⟩ | ⟨_, _, _, h⟩ | ⟨_, _, h⟩ <;> cases h
  | succ m ih =>
      intro hm ts hts hopen out o st k q fr ha
      have hblock : Blocked Level.expr.rank (⟨.leftParen, o⟩ :: st) := Blocked.cons rfl st
      obtain ⟨d, rest, rfl, hrest⟩ := hexpr ts (by omega) hopen out _ _ hblock ha
      obtain ⟨out₁, w, hread, hw, -⟩ := d.read out _ (⟨some f, k, q⟩ :: fr) hblock
      have ha' := hread.accepts ha
      rcases ha'.operator_inv with rfl | ⟨op, p, us, rfl⟩ | ⟨p, us, rfl⟩ | ⟨p, us, rfl⟩
      · exact absurd ha' not_accepts_nil
      · have := hrest.head
        cases op <;> cases this
      · rw [List.length_append, List.length_cons] at hts
        obtain ⟨count, ds, p', rest', rfl, hcount⟩ := ih (by omega) us (by omega)
          hopen.append_right.tail _ o st (k + 1) q fr ((leads_comma hw f k q p).accepts ha')
        exact ⟨count + 1, .nextArg count p d ds, p', rest', by simp [Derivation.yield], by omega⟩
      · exact ⟨1, .lastArg d, p, us, rfl, by rw [ha'.arity_eq hw]⟩

/-- A factor is one token, or goes on to a closing parenthesis. -/
theorem readable_factor {n : Nat} (hexpr : ∀ m < n, Readable .expr m) : Readable .factor n := by
  intro ts hts hopen out st fr _ ha
  rcases ha.operand_inv with ⟨x, p, us, rfl⟩ | ⟨text, p, us, rfl⟩ | ⟨f, p, us, rfl⟩ | ⟨o, us, rfl⟩
  · exact ⟨.number x p, us, rfl, blocked_factor _⟩
  · exact ⟨.name text p, us, rfl, blocked_factor _⟩
  · obtain ⟨o, vs, rfl⟩ := hopen.head rfl
    simp only [List.length_cons] at hts
    obtain ⟨count, d, c, rest, rfl, hcount⟩ := exists_args (hexpr (n - 1) (by omega)) (n - 1)
      (Nat.le_refl _) vs (by omega) hopen.tail.tail _ o _ 1 o fr ((leads_call f p o).accepts ha)
    obtain rfl : count = f.arity := by omega
    exact ⟨.call f p o c d, rest, by simp [Derivation.yield], blocked_factor _⟩
  · simp only [List.length_cons] at hts
    have hblock : Blocked Level.expr.rank (⟨.leftParen, o⟩ :: st) := Blocked.cons rfl st
    have ha₁ := (leads_open o).accepts ha
    obtain ⟨d, rest, rfl, hrest⟩ :=
      hexpr (n - 1) (by omega) us (by omega) hopen.tail out _ _ hblock ha₁
    obtain ⟨out₁, w, hread, hw, -⟩ := d.read out _ (⟨none, 1, o⟩ :: fr) hblock
    have ha₂ := hread.accepts ha₁
    rcases ha₂.operator_inv with rfl | ⟨op, p, us, rfl⟩ | ⟨p, us, rfl⟩ | ⟨p, us, rfl⟩
    · exact absurd ha₂ not_accepts_nil
    · have := hrest.head
      cases op <;> cases this
    · exact absurd ha₂ (not_accepts_comma hw)
    · exact ⟨.group o p d, us, by simp [Derivation.yield], blocked_factor _⟩

/-- **An accepted list begins with an expression**, whatever stands on the stack. -/
theorem readable_expr (n : Nat) : Readable .expr n := by
  induction n using Nat.strong_induction_on with
  | _ n ih =>
      have hfactor : Readable .factor n := readable_factor ih
      have hterm : Readable .term n := readable_of_part (by simp) hfactor
      exact readable_of_part (by simp) hterm

/-! ### Errors -/

section

variable {s s' : Arrangement} {t : Token} {e : Error}

theorem require_error {wanted : Expectation} (h : s.require wanted t = .error e) :
    ∃ fault, e = .grammar t.position fault := by
  unfold require at h
  split at h
  · cases h
  · cases h
    exact ⟨_, rfl⟩

/-- What waits above the innermost open parenthesis is put out. -/
theorem flushToParen_eq_ok {p : Nat} {fault : GrammarFault} (h : s.flushToParen p fault = .ok s') :
    ∃ w below, s.stack = w ++ below ∧
      s' = { s with output := w.reverse ++ s.output, stack := below } := by
  simp only [flushToParen] at h
  split at h
  · cases h
  · next hdrop =>
      cases h
      refine ⟨_, _, ?_, rfl⟩
      exact (List.prefix_iff_eq_append.1 (List.takeWhile_prefix _)).symm

theorem eq_of_flushToParen_error {p : Nat} {fault : GrammarFault}
    (h : s.flushToParen p fault = .error e) : e = .grammar p fault := by
  simp only [flushToParen] at h
  split at h
  · cases h
    rfl
  · cases h

theorem comma_error (h : s.comma t = .error e) : ∃ fault, e = .grammar t.position fault := by
  rcases Except.bind_eq_error.1 h with h | ⟨_, _, h⟩
  · exact require_error h
  · rcases Except.bind_eq_error.1 h with h | ⟨s', _, h⟩
    · exact ⟨_, eq_of_flushToParen_error h⟩
    · split at h
      · cases h
      · cases h
        exact ⟨_, rfl⟩

/-- A closing parenthesis is refused at its own place, or at that of the parenthesis it closes. -/
theorem closeParen_error (h : s.closeParen t = .error e) :
    ∃ p fault, e = .grammar p fault ∧ (p = t.position ∨ ∃ fr ∈ s.frames, fr.position = p) := by
  rcases Except.bind_eq_error.1 h with h | ⟨_, _, h⟩
  · obtain ⟨fault, he⟩ := require_error h
    exact ⟨_, fault, he, .inl rfl⟩
  · rcases Except.bind_eq_error.1 h with h | ⟨s', hflush, h⟩
    · exact ⟨_, _, eq_of_flushToParen_error h, .inl rfl⟩
    · obtain ⟨w, below, -, rfl⟩ := flushToParen_eq_ok hflush
      split at h
      · cases h
        exact ⟨_, _, rfl, .inl rfl⟩
      · cases h
      · next f n p outer hframes =>
          split at h
          · cases h
          · cases h
            have hmem : ⟨some f, n, p⟩ ∈ s.frames := hframes ▸ List.mem_cons_self
            exact ⟨p, _, rfl, .inr ⟨_, hmem, rfl⟩⟩

/-- **A token is refused by the grammar**, at its own place or at that of an open parenthesis. -/
theorem step_error (h : s.step t = .error e) :
    ∃ p fault, e = .grammar p fault ∧ (p = t.position ∨ ∃ fr ∈ s.frames, fr.position = p) := by
  have hown (h : ∃ fault, e = .grammar t.position fault) : ∃ p fault, e = .grammar p fault ∧
      (p = t.position ∨ ∃ fr ∈ s.frames, fr.position = p) :=
    h.elim fun fault he => ⟨_, fault, he, .inl rfl⟩
  simp only [step] at h
  -- all but commas and closing parentheses are refused only where they are not expected
  split at h
  case h_5 => exact hown (comma_error h)
  case h_6 =>
    have hclose := closeParen_error h
    exact hclose
  all_goals
    rcases Except.bind_eq_error.1 h with h | ⟨_, _, h⟩
    · exact hown (require_error h)
    · cases h

/-- The end is refused one past the last token, or at a parenthesis that is still open. -/
theorem finish_error (h : s.finish = .error e) :
    ∃ p fault, e = .grammar p fault ∧ (p = s.ending ∨ ∃ t ∈ s.stack, t.position = p) := by
  unfold finish at h
  split at h
  · cases h
    exact ⟨_, _, rfl, .inl rfl⟩
  · split at h
    · next t hfind =>
        cases h
        exact ⟨_, _, rfl, .inr ⟨t, List.mem_of_find?_eq_some hfind, rfl⟩⟩
    · cases h

end

/-- Only the grammar makes a list of tokens fail. -/
theorem complete_kind (ts : List Token) : ∀ {s : Arrangement} {e : Error},
    s.complete ts = .error e → e.kind = .grammar := by
  induction ts with
  | nil =>
      intro s e h
      obtain ⟨p, fault, rfl, -⟩ := finish_error h
      rfl
  | cons t ts ih =>
      intro s e h
      rw [complete_cons] at h
      rcases Except.bind_eq_error.1 h with h | ⟨s', _, h⟩
      · obtain ⟨p, fault, rfl, -⟩ := step_error h
        rfl
      · exact ih h

end Arrangement

/-! ### Sentences -/

/-- The tokens of an expression are put out as the listing of its tree. -/
theorem reversePolish_yield (d : Derivation .expr) :
    reversePolish d.yield = .ok d.tree.polish := by
  obtain ⟨out, w, hlead, hw, hlisted⟩ := d.read [] [] [] (Blocked.nil _)
  obtain ⟨e, he⟩ := hlead 0 []
  have hfind : w.find? (fun t => decide (t.word = .leftParen)) = none := by
    refine List.find?_eq_none.2 fun t ht => ?_
    simpa using hw.ne_leftParen t ht
  have hfinish : Arrangement.finish ⟨out, w, [], .operator, none, e⟩ = .ok (out.reverse ++ w) := by
    simp [Arrangement.finish, hfind]
  rw [List.append_nil, List.append_nil] at he
  calc reversePolish d.yield
    _ = .ok (out.reverse ++ w) := he.trans hfinish
    _ = .ok (w.reverse ++ out).reverse := by simp
    _ = .ok d.tree.polish := by rw [hlisted, d.polish_tree]; simp

/-- A list that is put in order holds the tokens of an expression. -/
theorem exists_yield_of_reversePolish {ts out : List Token} (hopen : CallsOpen ts)
    (h : reversePolish ts = .ok out) : ∃ d : Derivation .expr, d.yield = ts := by
  have ha : (Arrangement.between [] [] [] .operand).Accepts ts := ⟨0, out, h⟩
  obtain ⟨d, rest, rfl, hrest⟩ := Arrangement.readable_expr ts.length ts (Nat.le_refl _) hopen
    [] [] [] (Blocked.nil _) ha
  obtain ⟨out', w, hlead, hw, -⟩ := d.read [] [] [] (Blocked.nil _)
  have ha' := hlead.accepts ha
  rw [List.append_nil] at ha'
  -- nothing that may follow an expression is accepted outside of parentheses
  rcases ha'.operator_inv with rfl | ⟨op, p, us, rfl⟩ | ⟨p, us, rfl⟩ | ⟨p, us, rfl⟩
  · exact ⟨d, (List.append_nil _).symm⟩
  · have := hrest.head
    cases op <;> cases this
  · exact absurd ha' (Arrangement.not_accepts_comma_outside hw)
  · exact absurd ha' (Arrangement.not_accepts_close_outside hw)

/-- **Putting tokens in order is parsing**: the lists that are put in order are the sentences of
the grammar, each has one derivation, and the result is the listing of its tree.  Any other list is
refused by the grammar.  All this holds of lists in which every function stands before a
parenthesis, as the lexer makes them. -/
theorem reversePolish_iff_derivation :
    (∀ source limits ts, tokenize source limits = .ok ts → CallsOpen ts) ∧
    ∀ ts, CallsOpen ts →
      (∀ d d' : Derivation .expr, d.yield = ts → d'.yield = ts → d = d') ∧
      (∀ out, reversePolish ts = .ok out ↔
        ∃ d : Derivation .expr, d.yield = ts ∧ d.tree.polish = out) ∧
      ((¬ ∃ d : Derivation .expr, d.yield = ts) →
        ∃ e, reversePolish ts = .error e ∧ e.kind = .grammar) := by
  refine ⟨fun _ _ _ => callsOpen_of_tokenize, fun ts hopen => ⟨?_, ?_, ?_⟩⟩
  · intro d d' hd hd'
    exact Derivation.unambiguous (hd.trans hd'.symm)
  · intro out
    constructor
    · intro h
      obtain ⟨d, rfl⟩ := exists_yield_of_reversePolish hopen h
      exact ⟨d, rfl, Except.ok.inj ((reversePolish_yield d).symm.trans h)⟩
    · rintro ⟨d, rfl, rfl⟩
      exact reversePolish_yield d
  · intro hnone
    cases h : reversePolish ts with
    | ok out => exact absurd (exists_yield_of_reversePolish hopen h) hnone
    | error e => exact ⟨e, rfl, Arrangement.complete_kind ts h⟩

/-- Differences are taken from the left, the product first, and the call after its argument. -/
theorem reversePolish_differences :
    ∃ ts, tokenize "a-b*c-ceil(d)" .standard = .ok ts ∧ CallsOpen ts ∧
      reversePolish ts = .ok [⟨.variable "a", 0⟩, ⟨.variable "b", 2⟩, ⟨.variable "c", 4⟩,
        ⟨.operator .mul, 3⟩, ⟨.operator .sub, 1⟩, ⟨.variable "d", 11⟩, ⟨.function .ceil, 6⟩,
        ⟨.operator .sub, 5⟩] := by
  let term (d : Derivation (.level .factor)) : Derivation (.level .term) :=
    .chain .term nofun d (.done _)
  let argument : Derivation .expr := .chain .expr nofun (term (.name "d" 11)) (.done _)
  let product : Derivation (.level .term) :=
    .chain .term nofun (.name "b" 2) (.next .term .mul (by decide) 3 (.name "c" 4) (.done _))
  let whole : Derivation .expr :=
    .chain .expr nofun (term (.name "a" 0)) (.next .expr .sub (by decide) 1 product
      (.next .expr .sub (by decide) 5 (term (.call .ceil 6 10 12 (.lastArg argument))) (.done _)))
  have hts : tokenize "a-b*c-ceil(d)" .standard = .ok whole.yield := by decide +kernel
  have hopen : CallsOpen whole.yield := reversePolish_iff_derivation.1 _ _ _ hts
  exact ⟨_, hts, hopen, ((reversePolish_iff_derivation.2 _ hopen).2.1 _).2 ⟨whole, rfl, rfl⟩⟩

end Estimating.Expression
