/-
The values of number literals.

A literal is a run of digits and points.  It is read with a zero beside a point that stands at one
end; its value is that of the run as it is written.

* `Expression.IsNumber` — a run of digits and points;
* `Decimal.readDigits_append_point` — what becomes of digits before a point;
* `Expression.readPlain_fullNumeral` — **the zero beside a point does not change the value**;
* `Expression.readLiteral_eq_ok` — **the literals that have a value**, and
  `Expression.exists_readLiteral` — the same of the run as it is written.
-/
import Estimating.Expression.Lexer
import Estimating.Proofs.Decimal.Rounding
import Estimating.Proofs.Results

set_option autoImplicit false

namespace Estimating

/-! ### Digits before a point -/

namespace Decimal

theorem ne_underscore_of_isDigit {c : Char} (h : c.isDigit = true) : (c == '_') = false := by
  rw [beq_eq_false_iff_ne]
  rintro rfl
  cases h

theorem ne_point_of_isDigit {c : Char} (h : c.isDigit = true) : (c == '.') = false := by
  rw [beq_eq_false_iff_ne]
  rintro rfl
  cases h

/-- A digit of the whole part is taken if there is room for it. -/
theorem readDigits_digit {m : Nat} {started : Bool} {d : Char} (hd : d.isDigit = true)
    (rest : List Char) : readDigits m none started false (d :: rest) =
      if 10 * m + digitValue d < coeffBound then
        readDigits (10 * m + digitValue d) none true false rest
      else .error .tooManyDigits := by
  rw [readDigits]
  simp only [ne_underscore_of_isDigit hd, ne_point_of_isDigit hd, hd, if_true, Bool.false_eq_true,
    if_false]

/-- The whole part of a numeral does not fit, or it is a coefficient, whatever stands behind it. -/
theorem readDigits_append_point {ds : List Char} (hds : ∀ d ∈ ds, d.isDigit = true) :
    ∀ {m : Nat} {started : Bool}, m < coeffBound → (ds = [] → started = true) →
      (∀ rest, readDigits m none started false (ds ++ rest) = .error .tooManyDigits) ∨
      ∃ m' < coeffBound, ∀ rest, readDigits m none started false (ds ++ rest) =
        readDigits m' none true false rest := by
  induction ds with
  | nil =>
      intro m started hm hstarted
      obtain rfl := hstarted rfl
      exact .inr ⟨m, hm, fun _ => rfl⟩
  | cons d ds ih =>
      intro m started hm _
      have hd := hds d List.mem_cons_self
      simp only [List.cons_append, readDigits_digit hd]
      split
      · next hroom =>
          exact ih (fun d hd => hds d (List.mem_cons_of_mem _ hd)) hroom fun _ => rfl
      · exact .inl fun _ => rfl

/-- The first digit after the point is read alike whether there was one before. -/
theorem readDigits_fraction {m s : Nat} {d : Char} (hd : d.isDigit = true) (rest : List Char)
    (started started' : Bool) : readDigits m (some s) started false (d :: rest) =
      readDigits m (some s) started' false (d :: rest) := by
  rw [readDigits, readDigits]
  simp only [ne_underscore_of_isDigit hd, ne_point_of_isDigit hd, hd, if_true, Bool.false_eq_true,
    if_false]

/-- The value of a numeral without a sign. -/
theorem exists_of_readDigits {cs : List Char} {m s : Nat} (hsign : takeSign cs = (false, cs))
    (h : readDigits 0 none false false cs = .ok (m, s)) (hm : m < coeffBound) (hs : s ≤ 28) :
    ∃ x, readPlain cs = .ok x ∧ x.units = m * 10 ^ (28 - s) := by
  have hscale : s % (maxScale + 1) = s := Nat.mod_eq_of_lt (Nat.lt_succ_of_le hs)
  obtain ⟨x, hx⟩ := Option.isSome_iff_exists.1
    (ofParts?_isSome.2 ⟨(by rwa [Int.natAbs_natCast] : (m : Int).natAbs < 2 ^ 96), hs⟩)
  refine ⟨x, ?_, ?_⟩
  · simp only [readPlain, hsign, h, hscale, Bool.false_eq_true, if_false, hx]
  · obtain ⟨hcoeff, hxscale⟩ := ofParts?_eq_some hx
    rw [units, hcoeff, hxscale]

theorem readPlain_of_readDigits_error {cs : List Char} {e : NumeralError}
    (hsign : takeSign cs = (false, cs)) (h : readDigits 0 none false false cs = .error e) :
    readPlain cs = .error e := by
  simp only [readPlain, hsign, h]

end Decimal

namespace Expression

open Decimal

/-! ### Points at the ends -/

theorem isNumberChar_iff {c : Char} : isNumberChar c = true ↔ c.isDigit = true ∨ c = '.' := by
  rw [isNumberChar, Bool.or_eq_true, beq_iff_eq]

/-- A run of digits and points. -/
def IsNumber (text : List Char) : Prop := text ≠ [] ∧ ∀ c ∈ text, isNumberChar c = true

/-- A run of digits and points without a point has digits only. -/
theorem isDigit_of_count {text : List Char} (h : ∀ c ∈ text, isNumberChar c = true)
    (hpoints : text.count '.' = 0) : ∀ c ∈ text, c.isDigit = true := by
  intro c hc
  rcases isNumberChar_iff.1 (h c hc) with hdigit | rfl
  · exact hdigit
  · exact absurd hc (List.count_eq_zero.1 hpoints)

/-- A run of digits and points has no sign. -/
theorem takeSign_of_isNumberChar {text : List Char} (h : ∀ c ∈ text, isNumberChar c = true) :
    takeSign text = (false, text) := by
  unfold takeSign
  split
  · exact absurd (h '-' List.mem_cons_self) (by decide)
  · exact absurd (h '+' List.mem_cons_self) (by decide)
  · rfl

theorem isNumberChar_fullNumeral {text : List Char} (h : ∀ c ∈ text, isNumberChar c = true) :
    ∀ c ∈ fullNumeral text, isNumberChar c = true := by
  intro c hc
  unfold fullNumeral at hc
  split at hc
  · rcases List.mem_cons.1 hc with rfl | hc
    · decide
    · exact h c hc
  · split at hc
    · rcases List.mem_append.1 hc with hc | hc
      · exact h c hc
      · obtain rfl := List.mem_singleton.1 hc
        decide
    · exact h c hc

/-- A zero before a point at the head makes no difference. -/
theorem readDigits_zero_point {ds : List Char} (hds : ∀ d ∈ ds, d.isDigit = true)
    (hne : ds ≠ []) : readDigits 0 none false false ('0' :: '.' :: ds) =
      readDigits 0 none false false ('.' :: ds) := by
  obtain ⟨d, ds, rfl⟩ := List.exists_cons_of_ne_nil hne
  have hd := hds d List.mem_cons_self
  have hpoint (started : Bool) : readDigits 0 none started false ('.' :: d :: ds) =
      readDigits 0 (some 0) started false (d :: ds) := by
    rw [readDigits]
    rfl
  have hzero : readDigits 0 none false false ('0' :: '.' :: d :: ds) =
      readDigits 0 none true false ('.' :: d :: ds) := readDigits_digit (by decide) _
  rw [hzero, hpoint true, hpoint false]
  exact readDigits_fraction hd ds true false

/-- A zero behind a point at the end makes no difference to the value. -/
theorem readPlain_point_zero {ds : List Char} (hds : ∀ d ∈ ds, d.isDigit = true) (hne : ds ≠ []) :
    (readPlain (ds ++ ['.', '0'])).map units = (readPlain (ds ++ ['.'])).map units := by
  have hsign (more : List Char) (hmore : ∀ c ∈ more, isNumberChar c = true) :
      takeSign (ds ++ more) = (false, ds ++ more) := by
    refine takeSign_of_isNumberChar fun c hc => ?_
    rcases List.mem_append.1 hc with hc | hc
    · exact isNumberChar_iff.2 (.inl (hds c hc))
    · exact hmore c hc
  have hshort := hsign ['.'] (List.all_eq_true.1 (by decide))
  have hlong := hsign ['.', '0'] (List.all_eq_true.1 (by decide))
  rcases readDigits_append_point hds (m := 0) (by decide) (fun h => absurd h hne) with
    hover | ⟨m, hm, hread⟩
  · rw [readPlain_of_readDigits_error hshort (hover _),
      readPlain_of_readDigits_error hlong (hover _)]
  · have hpoint : readDigits 0 none false false (ds ++ ['.']) = .ok (m, 0) := (hread _).trans rfl
    obtain ⟨y, hy, hyunits⟩ := exists_of_readDigits hshort hpoint hm (by decide)
    -- there is room for the zero, or it is rounded away
    have hlast : readDigits 0 none false false (ds ++ ['.', '0']) =
        if 10 * m < coeffBound then .ok (10 * m, 1) else .ok (m, 0) := (hread _).trans (by
      show (if (0 < maxScale ∨ _) ∧ 10 * m < coeffBound then _ else _) = _
      simp [roundOff, readDigits, digitValue, maxScale])
    by_cases hroom : 10 * m < coeffBound
    · have hzero := hlast.trans (if_pos hroom)
      obtain ⟨x, hx, hxunits⟩ := exists_of_readDigits hlong hzero hroom (by decide)
      have hunits : ((10 * m : Nat) : Int) * 10 ^ (28 - 1) = m * 10 ^ (28 - 0) := by
        rw [Nat.cast_mul, show 28 - 0 = 28 - 1 + 1 from rfl, Int.pow_succ]
        ring
      rw [hx, hy, Except.map, Except.map, hxunits, hyunits, hunits]
    · have hzero := hlast.trans (if_neg hroom)
      obtain ⟨x, hx, hxunits⟩ := exists_of_readDigits hlong hzero hm (by decide)
      rw [hx, hy, Except.map, Except.map, hxunits, hyunits]

/-- **The zero beside a point does not change the value** of a literal. -/
theorem readPlain_fullNumeral {text : List Char} (h : ∀ c ∈ text, isNumberChar c = true)
    (hdigit : ∃ c ∈ text, c.isDigit = true) (hpoints : text.count '.' ≤ 1) :
    (readPlain (fullNumeral text)).map units = (readPlain text).map units := by
  have hfull := takeSign_of_isNumberChar (isNumberChar_fullNumeral h)
  have hplain := takeSign_of_isNumberChar h
  by_cases hhead : text.head? = some '.'
  · -- the point stands at the head
    obtain ⟨ds, rfl⟩ := List.head?_eq_some_iff.1 hhead
    have hds : ∀ d ∈ ds, d.isDigit = true := by
      refine isDigit_of_count (fun c hc => h c (List.mem_cons_of_mem _ hc)) ?_
      rw [List.count_cons_self] at hpoints
      omega
    have hne : ds ≠ [] := by
      rintro rfl
      obtain ⟨c, hc, hdigit⟩ := hdigit
      obtain rfl := List.mem_singleton.1 hc
      cases hdigit
    have hnumeral : fullNumeral ('.' :: ds) = '0' :: '.' :: ds := if_pos hhead
    rw [hnumeral] at hfull ⊢
    simp only [readPlain, hfull, hplain, readDigits_zero_point hds hne]
  · by_cases hlast : text.getLast? = some '.'
    · -- the point stands at the end
      obtain ⟨ds, rfl⟩ := List.getLast?_eq_some_iff.1 hlast
      have hds : ∀ d ∈ ds, d.isDigit = true := by
        refine isDigit_of_count (fun c hc => h c (List.mem_append_left _ hc)) ?_
        rw [List.count_append, List.count_singleton_self] at hpoints
        omega
      have hne : ds ≠ [] := by
        rintro rfl
        exact hhead rfl
      have hnumeral : fullNumeral (ds ++ ['.']) = ds ++ ['.', '0'] := by
        rw [fullNumeral, if_neg hhead, if_pos hlast, List.append_assoc]
        rfl
      rw [hnumeral]
      exact readPlain_point_zero hds hne
    · rw [fullNumeral, if_neg hhead, if_neg hlast]

/-! ### Literals with a value -/

/-- With one point at most, a run is not a point by itself if and only if it has a digit. -/
theorem ne_point_iff {text : List Char} (h : IsNumber text) (hpoints : text.count '.' ≤ 1) :
    text ≠ ['.'] ↔ ∃ c ∈ text, c.isDigit = true := by
  constructor
  · intro hne
    by_contra hnone
    have hall : ∀ c ∈ text, '.' = c := by
      intro c hc
      rcases isNumberChar_iff.1 (h.2 c hc) with hdigit | rfl
      · exact absurd ⟨c, hc, hdigit⟩ hnone
      · rfl
    rw [List.count_eq_length.2 hall] at hpoints
    have hlength : text.length = 1 :=
      Nat.le_antisymm hpoints (List.length_pos_iff.2 h.1)
    obtain ⟨c, rfl⟩ := List.length_eq_one_iff.1 hlength
    exact hne (by rw [← hall c (List.mem_singleton.2 rfl)])
  · rintro ⟨c, hc, hdigit⟩ rfl
    obtain rfl := List.mem_singleton.1 hc
    cases hdigit

/-- **The literals that have a value.** -/
theorem readLiteral_eq_ok {text : List Char} (h : IsNumber text) {limit x : Decimal} :
    readLiteral limit text = .ok x ↔ (∃ c ∈ text, c.isDigit = true) ∧ text.count '.' ≤ 1 ∧
      readPlain (fullNumeral text) = .ok x ∧ x < limit := by
  unfold readLiteral
  by_cases hform : text.count '.' > 1 ∨ text = ['.']
  · rw [if_pos hform]
    refine ⟨nofun, ?_⟩
    rintro ⟨hdigit, hpoints, -⟩
    rcases hform with hmany | hpoint
    · exact absurd hmany (Nat.not_lt.2 hpoints)
    · exact absurd hpoint ((ne_point_iff h hpoints).2 hdigit)
  · rw [if_neg hform]
    obtain ⟨hpoints, hne⟩ := not_or.1 hform
    have hpoints := Nat.not_lt.1 hpoints
    have hdigit := (ne_point_iff h hpoints).1 hne
    cases hread : readPlain (fullNumeral text) with
    | error e => exact ⟨nofun, fun hx => nomatch hx.2.2.1⟩
    | ok y =>
        simp only
        by_cases hlt : y < limit
        · rw [if_pos hlt]
          constructor
          · intro hx
            cases hx
            exact ⟨hdigit, hpoints, rfl, hlt⟩
          · rintro ⟨-, -, hx, -⟩
            cases hx
            rfl
        · rw [if_neg hlt]
          refine ⟨nofun, ?_⟩
          rintro ⟨-, -, hx, hlt'⟩
          cases hx
          exact absurd hlt' hlt

/-- A literal has a value if the run has a digit, one point at most, and is a numeral of a number
below the limit. -/
theorem exists_readLiteral {text : List Char} (h : IsNumber text) {limit : Decimal} :
    (∃ x, readLiteral limit text = .ok x) ↔ (∃ c ∈ text, c.isDigit = true) ∧
      text.count '.' ≤ 1 ∧ ∃ x, readPlain text = .ok x ∧ x < limit := by
  simp only [readLiteral_eq_ok h, exists_and_left]
  refine and_congr_right fun hdigit => and_congr_right fun hpoints => ?_
  have hvalue := readPlain_fullNumeral h.2 hdigit hpoints
  constructor
  · rintro ⟨x, hx, hlt⟩
    rw [hx] at hvalue
    obtain ⟨y, hy, hunits⟩ := Except.map_eq_ok.1 hvalue.symm
    exact ⟨y, hy, lt_iff_units.2 (hunits ▸ lt_iff_units.1 hlt)⟩
  · rintro ⟨y, hy, hlt⟩
    rw [hy] at hvalue
    obtain ⟨x, hx, hunits⟩ := Except.map_eq_ok.1 hvalue
    exact ⟨x, hx, lt_iff_units.2 (hunits ▸ lt_iff_units.1 hlt)⟩

end Expression
end Estimating
