/-
What tuning does to a line.

A line keeps the quantity that it had before tuning, and tuning starts from that one each time.  So
what earlier tunings have done is overwritten, and the new quantity lies between the base quantity
under the lower bound of the policy and the base quantity under the upper one, whatever factor the
pattern carries.

* `Item.Tunable` — no amount on a line is too large under what has been learned, and
  `Item.tune_isSome_iff_tunable` — then the line can be tuned, and only then;
* `Item.Untuned` — a line on which no tuning is left;
* `Item.tune_eq_retuned` — which parts of a line are changed, and `Item.tune_retuned` — which parts
  make no difference;
* `Item.exists_product_of_tune` — the new quantity is one product, rounded;
* `Item.tune_overwrites` — **tuning overwrites, and stays between the bounds**.
-/
import Estimating.Proofs.Decimal.Nearest
import Estimating.Proofs.Learning.Bounds
import Estimating.Proofs.Service.Amounts

set_option autoImplicit false

namespace Estimating.Item

variable {i j : Item} {policy : Policy} {pattern : Option Pattern}

/-! ### Lines that can be tuned -/

/-- No amount on the line is too large for a decimal: neither its total as it is nor, if the factor
of the pattern is used, its quantity and its total under the factor. -/
structure Tunable (pattern : Option Pattern) (policy : Policy) (i : Item) : Prop where
  plain : Decimal.Fits (i.baseQty.roundMoney.toRat * i.unitPrice.toRat)
  product : ∀ p, pattern = some p → policy.minSamples ≤ p.samples →
    Decimal.Fits (i.baseQty.toRat * (p.factor.clamp policy.minFactor policy.maxFactor).toRat)
  total : ∀ p, pattern = some p → policy.minSamples ≤ p.samples → ∀ qty,
    i.baseQty.mul (p.factor.clamp policy.minFactor policy.maxFactor) = some qty →
    Decimal.Fits (qty.roundMoney.toRat * i.unitPrice.toRat)

/-- A line can be tuned if and only if no amount on it is too large. -/
theorem tune_isSome_iff_tunable (hpolicy : policy.Valid) :
    (i.tune pattern policy).isSome ↔ i.Tunable pattern policy := by
  have hfew (h : ∀ p, pattern = some p → ¬ policy.minSamples ≤ p.samples) :
      (i.setQty i.baseQty).isSome ↔ i.Tunable pattern policy :=
    ⟨fun hplain => ⟨setQty_isSome_iff.1 hplain, fun p hp henough => absurd henough (h p hp),
      fun p hp henough => absurd henough (h p hp)⟩, fun ht => setQty_isSome_iff.2 ht.plain⟩
  rw [tune]
  cases pattern with
  | none =>
      refine isSome_bind_iff.trans ((and_iff_left fun _ _ => rfl).trans (hfew fun p hp => ?_))
      cases hp
  | some p =>
      by_cases henough : policy.minSamples ≤ p.samples
      · have hmultiply {plain : Item} (hplain : i.setQty i.baseQty = some plain) :
            (plain.multiply p policy).isSome ↔
              Decimal.Fits (i.baseQty.toRat *
                (p.factor.clamp policy.minFactor policy.maxFactor).toRat) ∧
              ∀ qty, i.baseQty.mul (p.factor.clamp policy.minFactor policy.maxFactor) = some qty →
                Decimal.Fits (qty.roundMoney.toRat * i.unitPrice.toRat) := by
          rw [multiply_isSome_iff hpolicy, (setQty_eq_some hplain).2.1, (priced_of_setQty hplain).1,
            Policy.tuned, hpolicy.clamp_eq, Option.bind_some]
          simp only [Option.map_eq_some_iff, forall_exists_index, and_imp, forall_apply_eq_imp_iff₂]
        simp only [if_pos henough]
        refine isSome_bind_iff.trans ⟨?_, fun h => ⟨setQty_isSome_iff.2 h.plain, ?_⟩⟩
        · rintro ⟨hplain, htuned⟩
          obtain ⟨plain, hplain'⟩ := Option.isSome_iff_exists.1 hplain
          obtain ⟨hproduct, htotal⟩ := (hmultiply hplain').1 (htuned plain hplain')
          refine ⟨setQty_isSome_iff.1 hplain, ?_, ?_⟩
          · rintro _ ⟨⟩ -
            exact hproduct
          · rintro _ ⟨⟩ -
            exact htotal
        · exact fun plain hplain =>
            (hmultiply hplain).2 ⟨h.product p rfl henough, h.total p rfl henough⟩
      · simp only [if_neg henough]
        refine isSome_bind_iff.trans ((and_iff_left fun _ _ => rfl).trans (hfew ?_))
        rintro _ ⟨⟩
        exact henough

/-! ### Parts of a line -/

/-- The line with other parts where tuning writes. -/
def retuned (i : Item) (qty lineTotal : Decimal) (tuning : TuningNote) : Item :=
  { i with qty, lineTotal, tuning }

theorem setQty_retuned (i : Item) (qty lineTotal : Decimal) (tuning : TuningNote) (x : Decimal) :
    (i.retuned qty lineTotal tuning).setQty x =
      (i.setQty x).map fun j => j.retuned j.qty j.lineTotal tuning := by
  unfold setQty
  rw [Option.map_map]
  rfl

theorem multiply_retuned (i : Item) (qty lineTotal : Decimal) (tuning : TuningNote) (p : Pattern)
    (policy : Policy) :
    (i.retuned qty lineTotal tuning).multiply p policy = i.multiply p policy := by
  unfold multiply
  simp only [setQty_retuned, Option.bind_eq_bind, Option.bind_map]
  rfl

/-- Tuning does not read what tuning writes. -/
theorem tune_retuned (i : Item) (qty lineTotal : Decimal) (tuning : TuningNote)
    (pattern : Option Pattern) (policy : Policy) :
    (i.retuned qty lineTotal tuning).tune pattern policy = i.tune pattern policy := by
  unfold tune
  simp only [setQty_retuned, Option.bind_eq_bind, Option.bind_map]
  refine congrArg (Option.bind (i.setQty i.baseQty)) (funext fun plain => ?_)
  cases pattern with
  | none => rfl
  | some p =>
      simp only [Function.comp_apply, multiply_retuned]
      rfl

theorem setQty_eq_retuned {qty : Decimal} (h : i.setQty qty = some j) :
    j = i.retuned j.qty j.lineTotal i.tuning := by
  obtain ⟨total, -, rfl⟩ := Option.map_eq_some_iff.1 h
  rfl

theorem multiply_eq_retuned {p : Pattern} (h : i.multiply p policy = some j) :
    j = i.retuned j.qty j.lineTotal j.tuning := by
  obtain ⟨factor, -, h⟩ := Option.bind_eq_some_iff.1 h
  obtain ⟨product, -, h⟩ := Option.bind_eq_some_iff.1 h
  obtain ⟨tuned, htuned, h⟩ := Option.bind_eq_some_iff.1 h
  cases h
  rw [setQty_eq_retuned htuned]
  rfl

/-- Tuning writes the quantity, the line total and the note on tuning, and nothing else. -/
theorem tune_eq_retuned (h : i.tune pattern policy = some j) :
    j = i.retuned j.qty j.lineTotal j.tuning := by
  obtain ⟨plain, hplain, h⟩ := Option.bind_eq_some_iff.1 h
  have hsame := setQty_eq_retuned hplain
  cases pattern with
  | none =>
      cases h
      rw [hsame]
      rfl
  | some p =>
      simp only at h
      split at h
      · rw [multiply_eq_retuned h, hsame]
        rfl
      · cases h
        rw [hsame]
        rfl

/-! ### Quantities -/

/-- The new quantity is the base quantity under some factor between the bounds. -/
theorem exists_product_of_tune (hpolicy : policy.Valid) (h : i.tune pattern policy = some j) :
    ∃ factor product : Decimal, policy.minFactor ≤ factor ∧ factor ≤ policy.maxFactor ∧
      Decimal.Rounds (i.baseQty.toRat * factor.toRat) product ∧ j.qty = product.roundMoney := by
  have hone : Decimal.Rounds (i.baseQty.toRat * Decimal.one.toRat) i.baseQty := by
    have hvalue : Decimal.one.toRat = 1 := by decide +kernel
    rw [hvalue, mul_one]
    exact Decimal.rounds_toRat _
  obtain ⟨plain, hplain, h⟩ := Option.bind_eq_some_iff.1 h
  obtain ⟨hqty, hbase, -⟩ := setQty_eq_some hplain
  cases pattern with
  | none =>
      cases h
      exact ⟨.one, _, hpolicy.minFactor_le, hpolicy.le_maxFactor, hone, hqty⟩
  | some p =>
      simp only at h
      split at h
      · have htuned := (multiply_eq_some h).1
        rw [hbase, Policy.tuned, hpolicy.clamp_eq, Option.bind_some] at htuned
        obtain ⟨product, hproduct, hround⟩ := Option.map_eq_some_iff.1 htuned
        exact ⟨_, product, Decimal.le_clamp hpolicy.minFactor_le_maxFactor,
          Decimal.clamp_le hpolicy.minFactor_le_maxFactor, Decimal.rounds_mul hproduct, hround.symm⟩
      · cases h
        exact ⟨.one, _, hpolicy.minFactor_le, hpolicy.le_maxFactor, hone, hqty⟩

/-- A number can always be lowered. -/
theorem exists_mul_of_le_one (base : Decimal) {factor : Decimal} (h0 : .zero ≤ factor)
    (h1 : factor ≤ .one) : ∃ x, base.mul factor = some x := by
  refine Option.isSome_iff_exists.1 (Decimal.mul_isSome_iff.2 ?_)
  have hone : Decimal.one.toRat = 1 := by decide +kernel
  have hfactor : |factor.toRat| ≤ 1 := by
    rw [abs_of_nonneg (Decimal.le_iff_toRat.1 h0), ← hone]
    exact Decimal.le_iff_toRat.1 h1
  unfold Decimal.Fits
  rw [abs_mul]
  exact (mul_le_of_le_one_right (abs_nonneg _) hfactor).trans_lt base.fits_toRat

/-- A new quantity lies between the products with the bounds, and is not negative. -/
theorem qty_of_tune (hpolicy : policy.Valid) (hbase : .zero ≤ i.baseQty)
    (h : i.tune pattern policy = some j) :
    (∃ lo, i.baseQty.mul policy.minFactor = some lo ∧ lo.roundMoney ≤ j.qty) ∧
      (∀ hi, i.baseQty.mul policy.maxFactor = some hi → j.qty ≤ hi.roundMoney) ∧
      .zero ≤ j.qty := by
  obtain ⟨factor, product, hmin, hmax, hproduct, hqty⟩ := exists_product_of_tune hpolicy h
  have hbase' := Decimal.le_iff_toRat.1 hbase
  have hmono {x y : Decimal} (h : x ≤ y) : x.roundMoney ≤ y.roundMoney :=
    Decimal.roundTo_mono h (by decide)
  -- products with a number that is not negative are in the order of the factors
  have hle {x y : Decimal} (h : x ≤ y) : i.baseQty.toRat * x.toRat ≤ i.baseQty.toRat * y.toRat :=
    mul_le_mul_of_nonneg_left (Decimal.le_iff_toRat.1 h) hbase'
  rw [hqty]
  refine ⟨?lower, ?upper, ?nonneg⟩
  case lower =>
    obtain ⟨lo, hlo⟩ := exists_mul_of_le_one i.baseQty hpolicy.minFactor_nonneg
      hpolicy.minFactor_le
    exact ⟨lo, hlo, hmono ((Decimal.rounds_mul hlo).le hproduct (hle hmin))⟩
  case upper =>
    exact fun hi hhi => hmono (hproduct.le (Decimal.rounds_mul hhi) (hle hmax))
  case nonneg =>
    have hproduct0 : Decimal.zero ≤ product :=
      Decimal.rounds_zero.le hproduct (mul_nonneg hbase'
        ((Decimal.le_iff_toRat.1 hpolicy.minFactor_nonneg).trans (Decimal.le_iff_toRat.1 hmin)))
    exact Decimal.le_trans (by decide : Decimal.zero ≤ Decimal.zero.roundMoney) (hmono hproduct0)

/-! ### Lines without tuning -/

/-- No tuning is left on the line: it has its base quantity, and its total is that of this
quantity. -/
structure Untuned (i : Item) : Prop where
  qty : i.qty = i.baseQty.roundMoney
  priced : i.Priced
  tuning : i.tuning = .untuned

/-- A new line has not been tuned. -/
theorem untuned_of_build {kind : ItemKind} {item description unit : String} {qty price : Decimal}
    (h : build kind item description qty unit price = some i) : i.Untuned := by
  obtain ⟨total, htotal, rfl⟩ := Option.map_eq_some_iff.1 h
  exact ⟨(Decimal.roundTo_roundTo qty (by decide)).symm, htotal, rfl⟩

/-- Tuning by nothing undoes all tuning. -/
theorem untuned_of_tune_none (h : i.tune none policy = some j) : j.Untuned := by
  obtain ⟨plain, hplain, h⟩ := Option.bind_eq_some_iff.1 h
  obtain ⟨hqty, hbase, -⟩ := setQty_eq_some hplain
  cases h
  exact ⟨hqty.trans (congrArg _ hbase.symm), (priced_of_setQty hplain).2, rfl⟩

/-- A line without tuning is what tuning by nothing gives. -/
theorem Untuned.tune_none (h : i.Untuned) (policy : Policy) : i.tune none policy = some i := by
  have hplain : i.setQty i.baseQty = some i := by
    rw [setQty, ← h.qty, h.priced]
    rfl
  rw [tune, hplain]
  show some { i with tuning := .untuned } = some i
  rw [← h.tuning]

/-! ### Tuning again -/

/-- **Tuning overwrites, and stays between the bounds.**  Let a line be tuned under one pattern and
policy, and then under others, where no amount is too large.  The second tuning gives what it gives
on the line as it was; so the same tuning again changes nothing, and tuning by nothing gives the
line without any tuning.  Tuning changes the quantity, the line total and the note on tuning only,
and the total is the product of quantity and price.  If the base quantity is not negative, the new
quantity lies between the products with the two bounds, rounded, and is not negative, whatever
factor the pattern carries. -/
theorem tune_overwrites (i : Item) (pattern pattern' : Option Pattern) (policy policy' : Policy)
    (hpolicy : policy.fault? = none) (hpolicy' : policy'.fault? = none)
    (h : i.Tunable pattern policy) (h' : i.Tunable pattern' policy') :
    ∃ j k plain, i.tune pattern policy = some j ∧ i.tune pattern' policy' = some k ∧
      j.tune pattern' policy' = some k ∧ j.tune pattern policy = some j ∧
      (j.tune none policy' = some plain ∧ plain.Untuned ∧ (i.Untuned → plain = i)) ∧
      j = { i with qty := j.qty, lineTotal := j.lineTotal, tuning := j.tuning } ∧
      product? j.qty j.unitPrice = some j.lineTotal ∧
      (.zero ≤ i.baseQty →
        (∃ lo, i.baseQty.mul policy.minFactor = some lo ∧ lo.roundMoney ≤ j.qty) ∧
        (∀ hi, i.baseQty.mul policy.maxFactor = some hi → j.qty ≤ hi.roundMoney) ∧
        .zero ≤ j.qty) := by
  have hvalid := Policy.fault?_eq_none hpolicy
  have hvalid' := Policy.fault?_eq_none hpolicy'
  obtain ⟨j, hj⟩ := Option.isSome_iff_exists.1 ((tune_isSome_iff_tunable hvalid).2 h)
  obtain ⟨k, hk⟩ := Option.isSome_iff_exists.1 ((tune_isSome_iff_tunable hvalid').2 h')
  have hnone : i.Tunable none policy' := ⟨h.plain, nofun, nofun⟩
  obtain ⟨plain, hplain⟩ := Option.isSome_iff_exists.1 ((tune_isSome_iff_tunable hvalid').2 hnone)
  have hsame := tune_eq_retuned hj
  have hagain (pattern : Option Pattern) (policy : Policy) :
      j.tune pattern policy = i.tune pattern policy := by rw [hsame, tune_retuned]
  refine ⟨j, k, plain, hj, hk, (hagain ..).trans hk, (hagain ..).trans hj,
    ⟨(hagain ..).trans hplain, untuned_of_tune_none hplain, fun huntuned => ?_⟩, hsame,
    (priced_of_tune hj).2, fun hbase => qty_of_tune hvalid hbase hj⟩
  rw [huntuned.tune_none] at hplain
  exact (Option.some.inj hplain).symm

/-- A pattern of five samples, with a factor above all that the standard policy allows. -/
def tripled : Pattern := { Pattern.seed "acme" Service.tiles (.whole 3) .epoch with samples := 5 }

/-- Ten hours become twelve, and ten again when nothing is learned any more. -/
theorem tune_overwrites_tripled :
    Policy.standard.fault? = none ∧ Learning.tenHours.Tunable (some tripled) .standard ∧
      Learning.tenHours.Tunable none .standard ∧
      ∃ j, Learning.tenHours.tune (some tripled) .standard = some j ∧ j.qty = .hundredths 1200 ∧
        j.tune none .standard = some Learning.tenHours := by
  have hfault : Policy.standard.fault? = none := by decide
  have htunable (pattern : Option Pattern)
      (h : (Learning.tenHours.tune pattern .standard).isSome) :
      Learning.tenHours.Tunable pattern .standard :=
    (tune_isSome_iff_tunable (Policy.fault?_eq_none hfault)).1 h
  have htripled := htunable (some tripled) (by decide +kernel)
  have hnone := htunable none (by decide +kernel)
  have huntuned : Learning.tenHours.Untuned :=
    ⟨by decide +kernel, by unfold Priced; decide +kernel, rfl⟩
  obtain ⟨j, -, plain, hj, -, -, -, ⟨hplain, -, hsame⟩, -⟩ :=
    tune_overwrites Learning.tenHours (some tripled) none .standard .standard hfault hfault htripled
      hnone
  have hqty : (Learning.tenHours.tune (some tripled) .standard).map qty =
      some (.hundredths 1200) := by
    decide +kernel
  rw [hj, Option.map_some, Option.some.injEq] at hqty
  exact ⟨hfault, htripled, hnone, j, hj, hqty, by rw [hplain, hsame huntuned]⟩

end Estimating.Item
