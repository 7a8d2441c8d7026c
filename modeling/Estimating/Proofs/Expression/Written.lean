/-
The values that number literals write.

A literal is read digit by digit, as long as there is room for the digits; from there on they are
rounded away.  So a literal that writes a value that decimals have stands for exactly that value:
where there is no room for a digit, only zeros follow.

* `Decimal.readDigits_fraction_eq` — digits behind the point are read without a loss;
* `Expression.written` — the value that a run of digits with a point writes;
* `Expression.toRat_of_readPlain` — **a literal has the value that it writes**, if that is
  representable;
* `Expression.toRat_of_mem_tokenize` — the same of the number tokens of a text;
* `Expression.Derivation.mem_yield_of_mem_listing` — what a phrase lists are tokens of it.
-/
import Estimating.Proofs.Decimal.Exact
import Estimating.Proofs.Decimal.Numerals
import Estimating.Proofs.Expression.Grammar

set_option autoImplicit false

namespace Estimating

/-! ### Digits behind the point -/

namespace Decimal

theorem digitValue_le {d : Char} (h : d.isDigit = true) : digitValue d ≤ 9 := by
  have hle : d.toNat ≤ '9'.toNat := by
    simp only [Char.isDigit, ge_iff_le, Bool.and_eq_true, decide_eq_true_eq] at h
    exact UInt32.le_iff_toNat_le.1 h.2
  have hnine : '9'.toNat = 57 := rfl
  have hzero : '0'.toNat = 48 := rfl
  rw [digitValue]
  omega

/-- Digits alone make less than one more digit does. -/
theorem ofDigitChars_lt {ds : List Char} (hds : ∀ d ∈ ds, d.isDigit = true) :
    Nat.ofDigitChars 10 ds 0 < 10 ^ ds.length := by
  induction ds with
  | nil => decide
  | cons d ds ih =>
      have hd := digitValue_le (hds d List.mem_cons_self)
      have hrest := ih fun c hc => hds c (List.mem_cons_of_mem _ hc)
      have hmul : 10 ^ ds.length * digitValue d ≤ 10 ^ ds.length * 9 := Nat.mul_le_mul_left _ hd
      rw [Nat.ofDigitChars_cons, Nat.ofDigitChars_eq_ofDigitChars_zero, List.length_cons,
        Nat.pow_succ, Nat.mul_zero, Nat.zero_add]
      show 10 ^ ds.length * digitValue d + _ < _
      omega

/-- Where there is no room for the next digit, only zeros follow. -/
theorem ofDigitChars_eq_zero {d : Char} {ds : List Char} {m s : Nat}
    (hds : ∀ c ∈ d :: ds, c.isDigit = true)
    (h : Representable (mkRat (Nat.ofDigitChars 10 (d :: ds) m) (10 ^ (s + (d :: ds).length))))
    (hfull : maxScale ≤ s ∨ coeffBound ≤ 10 * m + digitValue d) :
    Nat.ofDigitChars 10 (d :: ds) 0 = 0 := by
  obtain ⟨e, -, hse, hlt, hdvd⟩ := exists_zeros h
  rw [Int.natAbs_natCast] at hlt
  have hle : (d :: ds).length ≤ e := by
    rcases hfull with hfull | hfull
    · omega
    · -- the digits up to this one are too large for a decimal
      by_contra hshort
      have hdigit : Nat.ofDigitChars 10 (d :: ds) m =
          10 ^ ds.length * (10 * m + digitValue d) + Nat.ofDigitChars 10 ds 0 := by
        rw [Nat.ofDigitChars_cons, Nat.ofDigitChars_eq_ofDigitChars_zero]
        rfl
      have hpow : coeffBound * 10 ^ e ≤ coeffBound * 10 ^ ds.length := by
        refine Nat.mul_le_mul_left _ (Nat.pow_le_pow_right (by decide) ?_)
        rw [List.length_cons] at hshort
        omega
      have hmul : 10 ^ ds.length * coeffBound ≤ 10 ^ ds.length * (10 * m + digitValue d) :=
        Nat.mul_le_mul_left _ hfull
      rw [Nat.mul_comm] at hmul
      omega
  have hmod : 10 ^ (d :: ds).length ∣ Nat.ofDigitChars 10 (d :: ds) m := by
    have hcast : ((10 ^ e : Nat) : Int) ∣ (Nat.ofDigitChars 10 (d :: ds) m : Int) := by
      rwa [Int.natCast_pow]
    exact Nat.dvd_trans (Nat.pow_dvd_pow 10 hle) (Int.natCast_dvd_natCast.1 hcast)
  rw [Nat.ofDigitChars_eq_ofDigitChars_zero] at hmod
  exact Nat.eq_zero_of_dvd_of_lt ((Nat.dvd_add_right (Nat.dvd_mul_right _ m)).1 hmod)
    (ofDigitChars_lt hds)

/-- Digits behind the point are read without a loss, if they write a value that is representable. -/
theorem readDigits_fraction_eq {ds : List Char} (hds : ∀ d ∈ ds, d.isDigit = true) :
    ∀ {m s : Nat} {started : Bool} {p : Nat × Nat}, s ≤ maxScale →
      Representable (mkRat (Nat.ofDigitChars 10 ds m) (10 ^ (s + ds.length))) →
      readDigits m (some s) started false ds = .ok p →
      p.2 ≤ maxScale ∧
        mkRat p.1 (10 ^ p.2) = mkRat (Nat.ofDigitChars 10 ds m) (10 ^ (s + ds.length)) := by
  induction ds with
  | nil =>
      intro m s started p hs _ hread
      rw [readDigits] at hread
      split at hread
      · cases hread
        exact ⟨hs, rfl⟩
      · cases hread
  | cons d ds ih =>
      intro m s started p hs hrep hread
      have hd := hds d List.mem_cons_self
      rw [readDigits] at hread
      simp only [ne_underscore_of_isDigit hd, ne_point_of_isDigit hd, hd, if_true,
        Bool.false_eq_true, if_false, or_false] at hread
      by_cases hroom : s < maxScale ∧ 10 * m + digitValue d < coeffBound
      · rw [if_pos hroom] at hread
        have hlength : s + (d :: ds).length = s + 1 + ds.length := by
          rw [List.length_cons]
          omega
        rw [hlength] at hrep ⊢
        exact ih (fun c hc => hds c (List.mem_cons_of_mem _ hc)) hroom.1 hrep hread
      · rw [if_neg hroom] at hread
        have hzero := ofDigitChars_eq_zero hds hrep (by omega)
        have hdigit : digitValue d = 0 := by
          have hle := le_ofDigitChars ds (digitValue d)
          have hzero : Nat.ofDigitChars 10 ds (10 * 0 + digitValue d) = 0 := hzero
          rw [Nat.mul_zero, Nat.zero_add] at hzero
          omega
        have hrest : ds.all (fun c => c.isDigit || c == '_') = true := by
          refine List.all_eq_true.2 fun c hc => ?_
          rw [hds c (List.mem_cons_of_mem _ hc), Bool.true_or]
        have hoff : roundOff m s 0 ds = .ok (m, s) := by
          rw [roundOff, if_pos hrest, if_pos (by decide)]
        rw [hdigit, hoff] at hread
        cases hread
        refine ⟨hs, ?_⟩
        rw [Nat.ofDigitChars_eq_ofDigitChars_zero, hzero, Nat.add_zero, Nat.pow_add, Nat.mul_comm,
          Nat.cast_mul, Rat.mkRat_mul_right (Nat.ne_of_gt (Nat.pow_pos (by decide)))]

/-- Digits before the point are all read. -/
theorem readDigits_whole_eq {ds rest : List Char} (hds : ∀ d ∈ ds, d.isDigit = true) :
    ∀ {m : Nat} {started : Bool} {p : Nat × Nat},
      readDigits m none started false (ds ++ rest) = .ok p →
      ∃ started', readDigits (Nat.ofDigitChars 10 ds m) none started' false rest = .ok p := by
  induction ds with
  | nil => exact fun h => ⟨_, h⟩
  | cons d ds ih =>
      intro m started p hread
      rw [List.cons_append, readDigits_digit (hds d List.mem_cons_self)] at hread
      split at hread
      · exact ih (fun c hc => hds c (List.mem_cons_of_mem _ hc)) hread
      · cases hread

/-- The value of a numeral without a sign is that of the digits that were read. -/
theorem exists_of_readPlain {cs : List Char} {x : Decimal} (hsign : takeSign cs = (false, cs))
    (h : readPlain cs = .ok x) : ∃ p : Nat × Nat, readDigits 0 none false false cs = .ok p ∧
      (p.2 ≤ maxScale → x.toRat = mkRat p.1 (10 ^ p.2)) := by
  unfold readPlain at h
  simp only [hsign, Bool.false_eq_true, if_false] at h
  split at h
  · cases h
  · next m s hread =>
      split at h
      · next hparts =>
          cases h
          refine ⟨(m, s), hread, fun hs => ?_⟩
          rw [Nat.mod_eq_of_lt (Nat.lt_succ_of_le hs)] at hparts
          exact toRat_of_parts hparts
      · cases h

end Decimal

namespace Expression

open Decimal

/-! ### Number literals -/

/-- The value that a run of digits with one point at most writes. -/
def written (text : List Char) : Rat :=
  mkRat (Nat.ofDigitChars 10 (text.filter Char.isDigit) 0)
    (10 ^ ((text.dropWhile (· != '.')).length - 1))

theorem filter_isDigit {ds : List Char} (h : ∀ d ∈ ds, d.isDigit = true) :
    ds.filter Char.isDigit = ds := List.filter_eq_self.2 h

theorem dropWhile_point {ds : List Char} (h : ∀ d ∈ ds, d.isDigit = true) (rest : List Char) :
    (ds ++ rest).dropWhile (· != '.') = rest.dropWhile (· != '.') := by
  refine List.dropWhile_append_of_pos fun d hd => ?_
  simpa using ne_point_of_isDigit (h d hd)

theorem written_digits {ds : List Char} (h : ∀ d ∈ ds, d.isDigit = true) :
    written ds = mkRat (Nat.ofDigitChars 10 ds 0) 1 := by
  have hpoint := dropWhile_point h []
  rw [List.append_nil] at hpoint
  rw [written, filter_isDigit h, hpoint]
  rfl

theorem written_point {ds fs : List Char} (hds : ∀ d ∈ ds, d.isDigit = true)
    (hfs : ∀ d ∈ fs, d.isDigit = true) : written (ds ++ '.' :: fs) =
      mkRat (Nat.ofDigitChars 10 fs (Nat.ofDigitChars 10 ds 0)) (10 ^ fs.length) := by
  have hdigits : ('.' :: fs).filter Char.isDigit = fs := by
    rw [List.filter_cons_of_neg (by decide), filter_isDigit hfs]
  rw [written, List.filter_append, filter_isDigit hds, hdigits, dropWhile_point hds,
    Nat.ofDigitChars_append, List.dropWhile_cons_of_neg (by decide)]
  rfl

/-- **A literal has the value that it writes**, if that is representable. -/
theorem toRat_of_readPlain {text : List Char} (h : IsNumber text) (hpoints : text.count '.' ≤ 1)
    {x : Decimal} (hx : readPlain text = .ok x) (hrep : Representable (written text)) :
    x.toRat = written text := by
  obtain ⟨p, hread, hvalue⟩ := exists_of_readPlain (takeSign_of_isNumberChar h.2) hx
  by_cases hpoint : '.' ∈ text
  · obtain ⟨ds, fs, rfl⟩ := List.append_of_mem hpoint
    rw [List.count_append, List.count_cons_self] at hpoints
    have hds := isDigit_of_count (fun c hc => h.2 c (List.mem_append_left _ hc)) (by omega)
    have hfs := isDigit_of_count
      (fun c hc => h.2 c (List.mem_append_right _ (List.mem_cons_of_mem _ hc))) (by omega)
    obtain ⟨started, hread⟩ := readDigits_whole_eq hds hread
    rw [readDigits] at hread
    rw [written_point hds hfs] at hrep ⊢
    obtain ⟨hscale, heq⟩ := readDigits_fraction_eq hfs (Nat.zero_le _)
      (by rwa [Nat.zero_add]) hread
    rw [hvalue hscale, heq, Nat.zero_add]
  · have hds := isDigit_of_count h.2 (List.count_eq_zero.2 hpoint)
    rw [← List.append_nil text] at hread
    obtain ⟨started, hread⟩ := readDigits_whole_eq hds hread
    rw [readDigits] at hread
    split at hread
    · cases hread
      rw [hvalue (Nat.zero_le _), written_digits hds]
      rfl
    · cases hread

theorem toRat_of_readLiteral {text : List Char} (h : IsNumber text) {limit x : Decimal}
    (hx : readLiteral limit text = .ok x) (hrep : Representable (written text)) :
    x.toRat = written text := by
  obtain ⟨hdigit, hpoints, hfull, -⟩ := (readLiteral_eq_ok h).1 hx
  have hplain := readPlain_fullNumeral h.2 hdigit hpoints
  rw [hfull] at hplain
  obtain ⟨y, hy, hunits⟩ := Except.map_eq_ok.1 hplain.symm
  rw [← toRat_of_readPlain h hpoints hy hrep]
  exact toRat_eq_iff.2 hunits.symm

/-! ### Number literals of a text -/

/-- The run of digits and points at an offset. -/
def numberAt (cs : List Char) (position : Nat) : List Char :=
  (cs.drop position).takeWhile isNumberChar

theorem readLiteral_of_firstWord {limits : Limits} {c : Char} {rest : List Char} {x : Decimal}
    {n : Nat} (h : firstWord limits c rest = .ok (.number x, n)) :
    readLiteral limits.maxLiteral ((c :: rest).takeWhile isNumberChar) = .ok x ∧
      isNumberChar c = true := by
  unfold firstWord at h
  split at h
  · cases h
  split at h
  · cases h
  split at h
  · cases h
  split at h
  · next hc =>
      obtain ⟨y, hy, hword⟩ := Except.map_eq_ok.1 h
      cases hword
      rw [List.takeWhile_cons_of_pos hc]
      exact ⟨hy, hc⟩
  · split at h
    · obtain ⟨word, hname, hword⟩ := Except.map_eq_ok.1 h
      cases hword
      unfold readName at hname
      split at hname
      · split at hname <;> cases hname
      · cases hname
    · split at h <;> cases h

/-- Each number token is read off the literal at its offset. -/
theorem readLiteral_of_tokensFrom {limits : Limits} {cs : List Char} {position count : Nat}
    {us : List Char} : ∀ {ts : List Token}, cs.drop position = us →
      tokensFrom limits position count us = .ok ts → ∀ {x p}, ⟨.number x, p⟩ ∈ ts →
      readLiteral limits.maxLiteral (numberAt cs p) = .ok x ∧ IsNumber (numberAt cs p) := by
  fun_induction tokensFrom limits position count us with
  | case1 position count =>
      intro ts _ h
      cases h
      intro x p hmem
      cases hmem
  | case2 position count c rest hc ih =>
      intro ts hdrop h
      refine ih ?_ h
      rw [← List.drop_drop, hdrop]
      rfl
  | case3 position count c rest hc fault hw => intro ts _ h; cases h
  | case4 position count c rest hc word n hw hmany => intro ts _ h; cases h
  | case5 position count c rest hc word n hw next hmany =>
      rename_i ih
      intro ts hdrop h x p hmem
      obtain ⟨ts, hts, rfl⟩ := Except.map_eq_ok.1 h
      rcases List.mem_cons.1 hmem with heq | hmem
      · cases heq
        obtain ⟨hread, hchar⟩ := readLiteral_of_firstWord hw
        rw [numberAt, hdrop]
        refine ⟨hread, ?_, List.all_eq_true.1 List.all_takeWhile⟩
        rw [List.takeWhile_cons_of_pos hchar]
        exact List.cons_ne_nil _ _
      · refine ih ?_ hts hmem
        show cs.drop (position + 1 + n) = rest.drop n
        rw [← List.drop_drop, ← List.drop_drop, hdrop]
        rfl

/-- **The number tokens of a text have the values that are written at their offsets**, if these are
representable. -/
theorem toRat_of_mem_tokenize {source : String} {limits : Limits} {ts : List Token} {x : Decimal}
    {p : Nat} (h : tokenize source limits = .ok ts) (hmem : ⟨.number x, p⟩ ∈ ts)
    (hrep : Representable (written (numberAt source.toList p))) :
    x.toRat = written (numberAt source.toList p) := by
  unfold tokenize at h
  split at h
  · cases h
  · obtain ⟨hread, hnumber⟩ := readLiteral_of_tokensFrom List.drop_zero h hmem
    exact toRat_of_readLiteral hnumber hread hrep

/-- The tokens that a phrase lists are tokens of the phrase. -/
theorem Derivation.mem_yield_of_mem_listing {σ : Phrase} (d : Derivation σ) {t : Token}
    (h : t ∈ d.listing) : t ∈ d.yield :=
  List.mem_of_mem_filter (d.listing_perm.mem_iff.1 h)

end Expression
end Estimating
