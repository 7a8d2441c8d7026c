/-
Written forms of decimals are read back.

A decimal is written with all its digits, so nothing is lost but the sign of a zero: a numeral with
a minus sign and no other digit than 0 is read as a zero without a sign.

* `Decimal.ofDigitChars_lastDigits` — the value of the last digits of a number;
* `Decimal.readDigits_whole`, `Decimal.readDigits_places` — digits that fit are read one by one;
* `Decimal.settled` — a decimal without the sign of a zero, and `Decimal.settled_eq_self_iff`;
* `Decimal.ofText?_text` — **the written form of a decimal is read as the decimal**, settled.
-/
import Estimating.Decimal.Numeral
import Estimating.Proofs.Expression.Literals

set_option autoImplicit false

namespace Estimating.Decimal

/-! ### Digits -/

theorem isDigit_of_mem_lastDigits {c : Char} : ∀ {k n : Nat}, c ∈ lastDigits k n → c.isDigit = true
  | 0, _, h => nomatch h
  | k + 1, n, h => by
      rcases List.mem_append.1 h with h | h
      · exact isDigit_of_mem_lastDigits h
      · rw [List.mem_singleton.1 h, Nat.isDigit_digitChar, decide_eq_true_eq]
        exact Nat.mod_lt n (by decide)

theorem isDigit_of_mem_digits {c : Char} {n : Nat} (h : c ∈ digits n) : c.isDigit = true :=
  Nat.isDigit_of_mem_toDigits (by decide) (by decide) h

theorem digits_ne_nil (n : Nat) : digits n ≠ [] := Nat.toDigits_ne_nil

/-- The value of the last digits of a number, behind those of `m`. -/
theorem ofDigitChars_lastDigits (k n m : Nat) :
    Nat.ofDigitChars 10 (lastDigits k n) m = m * 10 ^ k + n % 10 ^ k := by
  induction k generalizing n with
  | zero => simp [lastDigits, Nat.ofDigitChars, Nat.mod_one]
  | succ k ih =>
      have hlast : Nat.ofDigitChars 10 (lastDigits (k + 1) n) m =
          10 * Nat.ofDigitChars 10 (lastDigits k (n / 10)) m + ((n % 10).digitChar.toNat - 48) := by
        rw [lastDigits, Nat.ofDigitChars, List.foldl_append]
        rfl
      rw [hlast, ih, Nat.toNat_digitChar_sub_48_of_lt_ten (Nat.mod_lt n (by decide)), Nat.pow_succ,
        Nat.mul_comm (10 ^ k) 10, Nat.mod_mul]
      ring

/-- Digits never make a number smaller. -/
theorem le_ofDigitChars (ds : List Char) : ∀ m, m ≤ Nat.ofDigitChars 10 ds m := by
  induction ds with
  | nil => exact fun m => Nat.le_refl m
  | cons d ds ih =>
      intro m
      have := ih (10 * m + digitValue d)
      show m ≤ Nat.ofDigitChars 10 ds (10 * m + digitValue d)
      omega

/-! ### Reading -/

/-- Digits of the whole part that fit are read one by one. -/
theorem readDigits_whole {ds : List Char} (hds : ∀ d ∈ ds, d.isDigit = true) (rest : List Char) :
    ∀ {m : Nat} {started : Bool}, (ds = [] → started = true) →
      Nat.ofDigitChars 10 ds m < coeffBound →
      readDigits m none started false (ds ++ rest) =
        readDigits (Nat.ofDigitChars 10 ds m) none true false rest := by
  induction ds with
  | nil =>
      intro m started hstarted _
      rw [hstarted rfl]
      rfl
  | cons d ds ih =>
      intro m started _ hfit
      have hroom : 10 * m + digitValue d < coeffBound :=
        Nat.lt_of_le_of_lt (le_ofDigitChars ds _) hfit
      rw [List.cons_append, readDigits_digit (hds d List.mem_cons_self), if_pos hroom]
      exact ih (fun d hd => hds d (List.mem_cons_of_mem _ hd)) (fun _ => rfl) hfit

/-- So are those of the fraction, as long as there are no more than 28. -/
theorem readDigits_places {ds : List Char} (hds : ∀ d ∈ ds, d.isDigit = true) :
    ∀ {m s : Nat}, s + ds.length ≤ maxScale → Nat.ofDigitChars 10 ds m < coeffBound →
      readDigits m (some s) true false ds = .ok (Nat.ofDigitChars 10 ds m, s + ds.length) := by
  induction ds with
  | nil =>
      intro m s _ _
      rfl
  | cons d ds ih =>
      intro m s hlength hfit
      have hd := hds d List.mem_cons_self
      rw [List.length_cons] at hlength
      have hroom : 10 * m + digitValue d < coeffBound :=
        Nat.lt_of_le_of_lt (le_ofDigitChars ds _) hfit
      have hplace : s < maxScale := by omega
      rw [readDigits]
      simp only [ne_underscore_of_isDigit hd, ne_point_of_isDigit hd, hd, if_true,
        Bool.false_eq_true, if_false, hplace, hroom, true_or, true_and]
      have hrest : s + 1 + ds.length ≤ maxScale := by omega
      have htail := ih (fun d hd => hds d (List.mem_cons_of_mem _ hd)) hrest hfit
      rw [List.length_cons, Nat.add_comm ds.length, ← Nat.add_assoc]
      exact htail

/-- Digits with a point among them are read as the number that they write. -/
theorem readDigits_placesOf {m s : Nat} (hm : m < coeffBound) (hs : s ≤ maxScale) :
    readDigits 0 none false false (places m s) = .ok (m, s) := by
  have hwhole : Nat.ofDigitChars 10 (digits (m / 10 ^ s)) 0 = m / 10 ^ s :=
    Nat.ofDigitChars_toDigits (by decide) (by decide)
  have hfit : m / 10 ^ s < coeffBound := Nat.lt_of_le_of_lt (Nat.div_le_self _ _) hm
  rw [places, readDigits_whole (fun d => isDigit_of_mem_digits) _
    (fun h => absurd h (digits_ne_nil _)) (by rwa [hwhole]), hwhole]
  by_cases hzero : s = 0
  · subst hzero
    rw [if_pos rfl, Nat.pow_zero, Nat.div_one]
    rfl
  · rw [if_neg hzero]
    have hvalue : Nat.ofDigitChars 10 (lastDigits s (m % 10 ^ s)) (m / 10 ^ s) = m := by
      rw [ofDigitChars_lastDigits, Nat.mod_mod, Nat.div_add_mod']
    show readDigits (m / 10 ^ s) (some 0) true false (lastDigits s (m % 10 ^ s)) = _
    rw [readDigits_places (fun d => isDigit_of_mem_lastDigits) (by simpa using hs)
      (by rwa [hvalue]), hvalue, length_lastDigits, Nat.zero_add]

/-! ### Decimals -/

/-- The number without the sign of a zero. -/
def settled (x : Decimal) : Decimal := if x.isZero then { x with negative := false } else x

theorem scale_settled (x : Decimal) : x.settled.scale = x.scale := by
  unfold settled
  split <;> rfl

theorem coeff_settled (x : Decimal) : x.settled.coeff = x.coeff := by
  unfold settled
  split
  · next h =>
      have hsize : x.size = 0 := eq_of_beq h
      simp [coeff, hsize]
  · rfl

/-- Only a zero with a sign is changed. -/
theorem settled_eq_self_iff {x : Decimal} :
    x.settled = x ↔ ¬ (x.isZero = true ∧ x.negative = true) := by
  unfold settled
  cases hneg : x.negative with
  | false =>
      have hsame : { x with negative := false } = x := by
        rw [← hneg]
      rw [hsame, ite_self]
      simp
  | true =>
      split
      · next h =>
          refine iff_of_false (fun heq => ?_) (by simp [h])
          exact absurd ((congrArg negative heq).trans hneg) Bool.false_ne_true
      · next h => simp [h]

/-- What is made of the parts of a number is the number. -/
theorem ofParts?_coeff_scale (x : Decimal) : ofParts? x.coeff x.scale = some x.settled := by
  have hbounds : x.coeff.natAbs < 2 ^ 96 ∧ x.scale ≤ 28 := ⟨x.coeff_lt, x.scale_le⟩
  rw [ofParts?, dif_pos hbounds]
  congr 1
  unfold settled
  split
  · next h =>
      have hsize : x.size = 0 := eq_of_beq h
      simp [ofCoeff, coeff, hsize]
  · next h =>
      have hsize : x.size ≠ 0 := by simpa [isZero] using h
      have hsign : decide (x.coeff < 0) = x.negative := by
        unfold coeff
        cases x.negative
        · simp
        · simpa using Nat.pos_of_ne_zero hsize
      simp [ofCoeff, hsign]

/-- **The written form of a decimal is read as the decimal**, without the sign of a zero. -/
theorem readPlain_numeral (x : Decimal) : readPlain x.numeral = .ok x.settled := by
  have hdigits := readDigits_placesOf x.size_lt x.scale_le
  have hscale : x.scale % (maxScale + 1) = x.scale :=
    Nat.mod_eq_of_lt (Nat.lt_succ_of_le x.scale_le)
  have hparts := ofParts?_coeff_scale x
  unfold coeff at hparts
  unfold readPlain numeral signed
  cases hneg : x.negative with
  | true =>
      rw [hneg, if_pos rfl] at hparts
      simp only [if_true, takeSign, hdigits, hscale, hparts]
  | false =>
      rw [hneg, if_neg Bool.false_ne_true] at hparts
      have hsign : takeSign (places x.size x.scale) = (false, places x.size x.scale) := by
        obtain ⟨d, ds, hd⟩ := List.exists_cons_of_ne_nil (digits_ne_nil (x.size / 10 ^ x.scale))
        have hdigit : d.isDigit = true := isDigit_of_mem_digits (hd ▸ List.mem_cons_self)
        rw [places, hd, List.cons_append]
        unfold takeSign
        split
        · next h => cases h; cases hdigit
        · next h => cases h; cases hdigit
        · rfl
      simp only [Bool.false_eq_true, if_false, hsign, hdigits, hscale, hparts]

theorem ofText?_text (x : Decimal) : ofText? x.text = some x.settled := by
  rw [ofText?, text, String.toList_ofList, read, readPlain_numeral]
  rfl

end Estimating.Decimal
