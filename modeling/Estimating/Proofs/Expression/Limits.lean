/-
Limits refuse, and change nothing else.

A limit is only ever compared with: the length of a text, the number of its tokens, the value of a
literal, the result.  So what is accepted under some limits is accepted under larger ones, and is
read and worked out as before.  What a limit lets through keeps to it: compiled expressions have no
more tokens than a text may have, and no number literal that reaches the limit of literals.

* `Expression.Limits.AtMost` — each limit is at most the one of others;
* `Expression.Means.mono`, `Expression.tokenize_mono`, `Expression.compile_mono`,
  `Expression.evaluate_mono` — what is accepted on the way to a result stays accepted;
* `Expression.zero_le_of_readPlain` — a numeral without a sign is not negative;
* `Expression.limits_only_refuse` — **larger limits accept more and give the same results**, and
  what compiled expressions consist of.
-/
import Estimating.Proofs.Expression.Places

set_option autoImplicit false

namespace Estimating.Expression

/-- Each limit is at most the one of others. -/
structure Limits.AtMost (limits limits' : Limits) : Prop where
  maxLength : limits.maxLength ≤ limits'.maxLength
  maxTokens : limits.maxTokens ≤ limits'.maxTokens
  maxLiteral : limits.maxLiteral ≤ limits'.maxLiteral
  maxResult : limits.maxResult ≤ limits'.maxResult

variable {limits limits' : Limits} {source : String}

/-! ### Larger limits -/

/-- A lexeme that means something means the same under larger limits. -/
theorem Means.mono {text : List Char} {next : Option (List Char)} {word : Word}
    (h : Means limits text next word) (hle : limits.AtMost limits') :
    Means limits' text next word := by
  cases h with
  | leftParen => exact .leftParen
  | rightParen => exact .rightParen
  | comma => exact .comma
  | operator op => exact .operator op
  | number h hdigit hpoints hx hlt =>
      exact .number h hdigit hpoints hx (Decimal.lt_of_lt_of_le hlt hle.maxLiteral)
  | call f => exact .call f
  | name h hnext => exact .name h hnext

theorem Writes.mono {texts : List (List Char)} {words : List Word} (h : Writes limits texts words)
    (hle : limits.AtMost limits') : Writes limits' texts words := by
  induction h with
  | nil => exact .nil
  | cons hword _ ih => exact .cons (hword.mono hle) ih

/-- A text that has tokens has them under larger limits. -/
theorem tokenize_mono {ts : List Token} (h : tokenize source limits = .ok ts)
    (hle : limits.AtMost limits') : tokenize source limits' = .ok ts := by
  obtain ⟨l, hl, hchars⟩ := exists_layout_of_tokenize h
  obtain ⟨⟨hlength, htext⟩, hmany, hwrites, hpositions⟩ := (tokenize_eq_ok_iff hl hchars).1 h
  exact (tokenize_eq_ok_iff hl hchars).2 ⟨⟨Nat.le_trans hlength hle.maxLength, htext⟩,
    Nat.le_trans hmany hle.maxTokens, hwrites.mono hle, hpositions⟩

/-- What compiles under some limits compiles under larger ones, to the same tokens. -/
theorem compile_mono {e : Expression} (h : compile source limits = .ok e)
    (hle : limits.AtMost limits') :
    compile source limits' = .ok { e with limits := limits' } := by
  obtain ⟨ts, hts, h⟩ := Except.bind_eq_ok.1 h
  obtain ⟨out, hout, h⟩ := Except.bind_eq_ok.1 h
  cases h
  exact Except.bind_eq_ok.2 ⟨ts, tokenize_mono hts hle, Except.bind_eq_ok.2 ⟨out, hout, rfl⟩⟩

/-- A result in range is in range under larger limits. -/
theorem evaluate_mono {ts : List Token} {bindings : Bindings} {v : Decimal}
    (h : evaluate ts bindings limits = .ok v) (hle : limits.AtMost limits') :
    evaluate ts bindings limits' = .ok v := by
  obtain ⟨stack, hrun, h⟩ := Except.bind_eq_ok.1 h
  obtain ⟨x, hx, hv⟩ := Except.bind_eq_ok.1 h
  obtain ⟨hround, hlo, hhi⟩ := checkResult_eq_ok.1 hv
  have hcheck : checkResult limits'.maxResult x = .ok v :=
    checkResult_eq_ok.2 ⟨hround, hlo, Decimal.le_trans hhi hle.maxResult⟩
  exact Except.bind_eq_ok.2 ⟨stack, hrun, Except.bind_eq_ok.2 ⟨x, hx, hcheck⟩⟩

/-! ### What limits let through -/

/-- A numeral without a sign is not negative. -/
theorem zero_le_of_readPlain {cs : List Char} {x : Decimal}
    (hsign : Decimal.takeSign cs = (false, cs)) (h : Decimal.readPlain cs = .ok x) :
    Decimal.zero ≤ x := by
  simp only [Decimal.readPlain, hsign] at h
  split at h
  · cases h
  · next m s _ =>
      split at h
      · next y hy =>
          cases h
          obtain ⟨hcoeff, -⟩ := Decimal.ofParts?_eq_some hy
          rw [Decimal.le_iff_units, Decimal.units, Decimal.units, hcoeff]
          exact Int.mul_nonneg (Int.natCast_nonneg m) (Int.le_of_lt (Decimal.pow_pos _))
      · cases h

/-- A number literal is not negative, and below the limit. -/
theorem Means.of_number {text : List Char} {next : Option (List Char)} {x : Decimal}
    (h : Means limits text next (.number x)) : Decimal.zero ≤ x ∧ x < limits.maxLiteral := by
  cases h with
  | number h _ _ hx hlt =>
      have hsign := takeSign_of_isNumberChar (isNumberChar_fullNumeral h.2)
      exact ⟨zero_le_of_readPlain hsign hx, hlt⟩

/-- A text has no more tokens than it may have. -/
theorem length_le_of_tokenize {ts : List Token} (h : tokenize source limits = .ok ts) :
    ts.length ≤ limits.maxTokens := by
  obtain ⟨l, hl, hchars⟩ := exists_layout_of_tokenize h
  obtain ⟨-, hmany, hwrites, -⟩ := (tokenize_eq_ok_iff hl hchars).1 h
  have hlength := hwrites.length_eq
  rw [List.length_map] at hlength
  omega

/-- **Larger limits accept more and give the same results.**  An expression that compiles under some
limits compiles under larger ones to the same tokens, and a text that has a result under some limits
has that result under larger ones.  A compiled expression has no more tokens than the limit says,
neither a parenthesis nor a comma among them, and its numbers lie between zero and the limit of
literals, below the latter. -/
theorem limits_only_refuse :
    (∀ source limits limits', limits.AtMost limits' →
      (∀ e, compile source limits = .ok e →
        compile source limits' = .ok { e with limits := limits' }) ∧
      ∀ bindings v, evalText source bindings limits = .ok v →
        evalText source bindings limits' = .ok v) ∧
    ∀ source limits e, compile source limits = .ok e →
      e.tokens.length ≤ limits.maxTokens ∧
      ∀ t ∈ e.tokens, t.word ≠ .leftParen ∧ t.word ≠ .rightParen ∧ t.word ≠ .comma ∧
        ∀ x, t.word = .number x → .zero ≤ x ∧ x < limits.maxLiteral := by
  refine ⟨fun source limits limits' hle => ⟨fun e he => compile_mono he hle, ?_⟩, ?_⟩
  · intro bindings v h
    obtain ⟨e, he, hv⟩ := Except.bind_eq_ok.1 h
    obtain ⟨d, -, rfl⟩ := exists_derivation_of_compile he
    exact Except.bind_eq_ok.2 ⟨_, compile_mono he hle, evaluate_mono hv hle⟩
  · intro source limits e he
    obtain ⟨d, hts, rfl⟩ := exists_derivation_of_compile he
    have hperm : List.Perm d.tree.polish (d.yield.filter fun t => t.word.isListed) :=
      d.polish_tree ▸ d.listing_perm
    have hlength := length_le_of_tokenize hts
    constructor
    · calc d.tree.polish.length
        _ = (d.yield.filter fun t => t.word.isListed).length := hperm.length_eq
        _ ≤ d.yield.length := List.length_filter_le _ _
        _ ≤ limits.maxTokens := hlength
    · intro t ht
      obtain ⟨hmem, hlisted⟩ := List.mem_filter.1 (hperm.mem_iff.1 ht)
      have hword {w : Word} (hw : w.isListed = false) : t.word ≠ w := by
        rintro rfl
        cases hw.symm.trans hlisted
      refine ⟨hword rfl, hword rfl, hword rfl, fun x hx => ?_⟩
      obtain ⟨text, next, -, hmeans⟩ := hasLexeme_of_tokenize hts t hmem
      rw [hx] at hmeans
      exact hmeans.of_number

/-- Limits that `2*(x+.5)` just keeps to where `x` is three. -/
def Limits.tight : Limits := ⟨8, 7, .tenths 21, .whole 7⟩

/-- An expression of as many characters and tokens as are allowed, with the largest result. -/
theorem limits_only_refuse_tight :
    let compiled : List Token := [⟨.number (.whole 2), 0⟩, ⟨.variable "x", 3⟩,
      ⟨.number (.tenths 5), 5⟩, ⟨.operator .add, 4⟩, ⟨.operator .mul, 1⟩]
    let bindings : Bindings := Table.ofList [("x", .number (.whole 3))]
    Limits.tight.AtMost .standard ∧
      compile "2*(x+.5)" .tight = .ok ⟨"2*(x+.5)", compiled, .tight⟩ ∧
      compile "2*(x+.5)" .standard = .ok ⟨"2*(x+.5)", compiled, .standard⟩ ∧
      evalText "2*(x+.5)" bindings .tight = .ok (.hundredths 700) ∧
      evalText "2*(x+.5)" bindings .standard = .ok (.hundredths 700) ∧
      compiled.length ≤ 7 ∧ Decimal.whole 2 < .tenths 21 := by
  intro compiled bindings
  have hle : Limits.tight.AtMost .standard := ⟨by decide, by decide, by decide, by decide⟩
  have hcompile : compile "2*(x+.5)" .tight = .ok ⟨"2*(x+.5)", compiled, .tight⟩ := by
    decide +kernel
  have hvalue : evalText "2*(x+.5)" bindings .tight = .ok (.hundredths 700) := by decide +kernel
  obtain ⟨hcompiles, hevaluates⟩ := limits_only_refuse.1 "2*(x+.5)" .tight .standard hle
  obtain ⟨hlength, hwords⟩ := limits_only_refuse.2 _ _ _ hcompile
  obtain ⟨-, -, -, hnumber⟩ := hwords ⟨.number (.whole 2), 0⟩ List.mem_cons_self
  exact ⟨hle, hcompile, hcompiles _ hcompile, hvalue, hevaluates _ _ hvalue, hlength,
    (hnumber _ rfl).2⟩

end Estimating.Expression
