/-
Amounts in reach.

Quantities are bounded by the largest result of an expression and the largest learned factor.  With
a bound on the prices of a catalog and on the tax rate there is one on every amount of a report, so
a report that stays below the bound of decimals is always there.

* `Row.AtMost`, `Config.Bounds` — bounds on the price of a row, and on quantities, factors and
  prices;
* `Totals.fits_of_atMost` — the totals of bounded lines fit;
* `Entry.fits_of_atMost`, `Entry.lineTotal_of_line?` — the amounts on a line fit, and its line total
  is bounded;
* `Rule.fits_of_atMost` — **all amounts of a report fit if prices and tax rate are in reach**;
* `Service.generate_moderate` — so generation after a run answers with a report of the rule.
-/
import Estimating.Proofs.Service.Amounts

set_option autoImplicit false

namespace Estimating

open Decimal

/-! ### Totals -/

theorem Decimal.AtMost.sum {b : Nat} {xs : List Decimal} (hxs : ∀ x ∈ xs, x.AtMost b) :
    ∀ {y : Decimal}, Decimal.sum xs = some y → y.AtMost (xs.length * b) := by
  induction xs using List.reverseRecOn with
  | nil =>
      rintro y ⟨⟩
      exact atMost_zero _
  | append_singleton xs x ih =>
      intro y hy
      rw [sum_append_singleton] at hy
      obtain ⟨z, hz, hy⟩ := Option.bind_eq_some_iff.1 hy
      have hz := ih (fun x hx => hxs x (List.mem_append_left _ hx)) hz
      have hx := hxs x (List.mem_append_right _ List.mem_cons_self)
      rw [List.length_append, List.length_singleton, Nat.add_mul, Nat.one_mul]
      exact hz.add hx hy

theorem Decimal.AtMost.roundMoney {b : Nat} {x : Decimal} (h : x.AtMost b) :
    x.roundMoney.AtMost b :=
  h.roundTo (by decide)

/-- The totals of bounded lines fit. -/
theorem Totals.fits_of_atMost {b v : Nat} {xs : List Decimal} {vatRate : Decimal}
    (hxs : ∀ x ∈ xs, x.AtMost b) (hvat : vatRate.AtMost v)
    (hbound : xs.length * b * (v + 1) + 11 < coeffBound) : Fits xs vatRate := by
  have hsplit : xs.length * b * (v + 1) = xs.length * b * v + xs.length * b := Nat.mul_succ _ _
  refine ⟨?_, ?_, ?_⟩
  · intro earlier x sum hle hsum
    have hlength : (earlier.length + 1) * b ≤ xs.length * b := by
      have hle := hle.length_le
      rw [List.length_append, List.length_singleton] at hle
      exact Nat.mul_le_mul_right _ hle
    have hearlier : ∀ y ∈ earlier, y.AtMost b := fun y hy =>
      hxs y (hle.subset (List.mem_append_left _ hy))
    have hx := hxs x (hle.subset (List.mem_append_right _ List.mem_cons_self))
    refine (AtMost.sum hearlier hsum).fits_add hx ?_
    rw [Nat.add_mul] at hlength
    omega
  · intro sum hsum
    refine (AtMost.sum hxs hsum).roundMoney.fits_mul hvat ?_
    omega
  · intro sum product vat hsum hproduct htax
    have hsum := (AtMost.sum hxs hsum).roundMoney
    -- the tax is a hundredth of the product, give or take the rounding of the division
    obtain ⟨vat', hvat', hnear⟩ := product.exists_hundredth
    obtain rfl : vat' = vat := Option.some.inj (hvat'.symm.trans htax)
    have htax := (hnear _ (hsum.mul hvat hproduct)).roundMoney
    refine hsum.fits_add htax ?_
    omega

/-! ### Lines -/

/-- What a row asks for is at most `p`. -/
def Row.AtMost (p : Nat) : Row → Prop
  | .labor r => r.unitPrice.AtMost p
  | .material m => ∃ cost markup, m.unitCost.AtMost cost ∧ m.markup.AtMost markup ∧
      cost * (markup / 100 + 12) ≤ p

theorem percentageFactor_atMost {percentage factor : Decimal} {b : Nat}
    (h : percentageFactor percentage = some factor) (hb : percentage.AtMost b) :
    factor.AtMost (b / 100 + 12) := by
  obtain ⟨y, z, hy, hz, hnear⟩ := percentage.exists_one_add_hundredth
  rw [percentageFactor, hy] at h
  obtain rfl : z = factor := Option.some.inj (hz.symm.trans h)
  exact hnear b hb

theorem unitPriceOf_atMost {p : Nat} {row : Option Row} {price : Decimal}
    (hrow : ∀ r, row = some r → r.AtMost p) (h : unitPriceOf row = some price) :
    price.AtMost p := by
  rcases row with _ | r | m
  · cases h
    exact atMost_zero _
  · cases h
    exact hrow _ rfl
  · obtain ⟨cost, markup, hcost, hmarkup, hle⟩ := hrow _ rfl
    have h : addPercentage m.unitCost m.markup = some price := h
    rw [addPercentage_eq] at h
    obtain ⟨factor, hfactor, h⟩ := Option.bind_eq_some_iff.1 h
    obtain ⟨product, hproduct, rfl⟩ := Option.map_eq_some_iff.1 h
    exact ((hcost.mul (percentageFactor_atMost hfactor hmarkup) hproduct).mono hle).roundMoney

/-- Bounds under which a line is in reach: `q` on values, `f` on learned factors, and `p` on
prices. -/
structure Config.Bounds (config : Config) (q f p : Nat) : Prop where
  qty : config.limits.maxResult.AtMost q
  factor : config.tuning.maxFactor.AtMost f
  price_lt : p < coeffBound
  tuned_lt : q * f < coeffBound
  total_lt : q * f * p < coeffBound

section

variable {config : Config} {bindings : Bindings} {q f p : Nat} {row : Option Row}
  {pattern : Option Pattern} {e : Entry}

theorem Entry.qty_atMost (hbounds : config.Bounds q f p) :
    (e.qty config.limits bindings).roundMoney.AtMost q := by
  refine AtMost.roundMoney ?_
  unfold Entry.qty
  cases hvalue : e.value config.limits bindings with
  | error error => exact atMost_zero _
  | ok base =>
      obtain ⟨-, hnonneg, hle⟩ := checked_value hvalue
      exact hbounds.qty.of_le hnonneg hle

theorem Policy.Valid.one_le_of_atMost {policy : Policy} (h : policy.Valid)
    (hf : policy.maxFactor.AtMost f) : 1 ≤ f := by
  have hone : Decimal.one.AtMost f := hf.of_le (by decide) h.le_maxFactor
  rwa [AtMost, show Decimal.one.size = 1 from rfl, show Decimal.one.scale = 0 from rfl,
    Nat.pow_zero, Nat.mul_one] at hone

theorem Policy.Valid.clamp_atMost {policy : Policy} (h : policy.Valid)
    (hf : policy.maxFactor.AtMost f) (x : Decimal) :
    (x.clamp policy.minFactor policy.maxFactor).AtMost f := by
  have hle := h.minFactor_le_maxFactor
  refine hf.of_le ?_ (clamp_le hle)
  rw [le_iff_units]
  exact Int.le_trans (le_iff_units.1 h.minFactor_nonneg) (le_iff_units.1 (le_clamp hle))

theorem Policy.Valid.reported_atMost {policy : Policy} (h : policy.Valid)
    (hf : policy.maxFactor.AtMost f) {base qty : Decimal} (hbase : base.AtMost q)
    (hqty : policy.reported base pattern = some qty) : qty.AtMost (q * f) := by
  have hplain : base.AtMost (q * f) :=
    hbase.mono (Nat.le_mul_of_pos_right _ (h.one_le_of_atMost hf))
  cases pattern with
  | none =>
      cases hqty
      exact hplain
  | some p =>
      simp only [reported] at hqty
      split at hqty
      · rw [Policy.tuned, h.clamp_eq, Option.bind_some] at hqty
        obtain ⟨product, hproduct, rfl⟩ := Option.map_eq_some_iff.1 hqty
        exact (hbase.mul (h.clamp_atMost hf _) hproduct).roundMoney
      · cases hqty
        exact hplain

/-- All amounts on the line of an entry fit if the price is in reach. -/
theorem Entry.fits_of_atMost (hpolicy : config.tuning.Valid) (hbounds : config.Bounds q f p)
    (hrow : ∀ r, row = some r → r.AtMost p) : e.Fits config bindings row pattern := by
  have hbase : (e.qty config.limits bindings).roundMoney.AtMost q := qty_atMost hbounds
  have hone := hpolicy.one_le_of_atMost hbounds.factor
  refine ⟨?_, ?_, ?_, ?_⟩
  · rintro m factor rfl hfactor
    obtain ⟨cost, markup, hcost, hmarkup, hle⟩ := hrow _ rfl
    exact hcost.fits_mul (percentageFactor_atMost hfactor hmarkup)
      (Nat.lt_of_le_of_lt hle hbounds.price_lt)
  · intro price hprice
    exact (hbase.mono (Nat.le_mul_of_pos_right q hone)).fits_mul
      (unitPriceOf_atMost hrow hprice).roundMoney hbounds.total_lt
  · intro p' _ _ _
    exact hbase.fits_mul (hpolicy.clamp_atMost hbounds.factor _) hbounds.tuned_lt
  · intro price qty _ hprice hqty
    exact (hpolicy.reported_atMost hbounds.factor hbase hqty).fits_mul
      (unitPriceOf_atMost hrow hprice).roundMoney hbounds.total_lt

/-- The line total is bounded by the bounds on quantity, factor and price. -/
theorem Entry.lineTotal_of_line? (hpolicy : config.tuning.Valid) (hbounds : config.Bounds q f p)
    (hrow : ∀ r, row = some r → r.AtMost p) {patterns : List Pattern} {i : Item}
    (h : e.line? config bindings row patterns = some i) : i.lineTotal.AtMost (q * f * p) := by
  obtain ⟨price, hprice, hunit, hpriced⟩ := priced_of_line? h
  obtain ⟨d, hd, htune⟩ := Option.bind_eq_some_iff.1 h
  have hshown := (Draft.tells hd).shownBy_of_tune hpolicy htune
  have hqty : i.qty.AtMost (q * f) := by
    refine hpolicy.reported_atMost hbounds.factor ?_ hshown.qty
    rw [hshown.baseQty]
    exact qty_atMost hbounds
  have hprice := (unitPriceOf_atMost hrow hprice).roundMoney
  rw [← hunit] at hprice
  obtain ⟨product, hproduct, htotal⟩ := Option.map_eq_some_iff.1 hpriced
  rw [← htotal]
  exact (hqty.mul hprice hproduct).roundMoney

end

/-! ### Reports -/

/-- **All amounts of a report fit if prices and tax rate are in reach.** -/
theorem Rule.fits_of_atMost {config : Config} {s : Stores} {tenant : TenantId} {key : RuleKey}
    {bindings : Bindings} {profile : String} {r : Rule} {q f p v : Nat}
    (hpolicy : config.tuning.Valid) (hbounds : config.Bounds q f p)
    (hrows : ∀ e ∈ r.entries, ∀ row, Service.rowOf s.catalog tenant profile e = some row →
      row.AtMost p)
    (hvat : (Report.terms config.pricing (s.catalog.profile? tenant profile)).2.AtMost v)
    (hbound : r.entries.length * (q * f * p) * (v + 1) + 11 < coeffBound) :
    r.Fits config s tenant key bindings profile := by
  refine ⟨fun e he => Entry.fits_of_atMost hpolicy hbounds (hrows e he), fun items hitems => ?_⟩
  refine Totals.fits_of_atMost (b := q * f * p) (fun x hx => ?_) hvat ?_
  · obtain ⟨i, hi, rfl⟩ := List.mem_map.1 hx
    obtain ⟨e, he, hline⟩ := exists_entry_of_lines? hitems hi
    exact Entry.lineTotal_of_line? hpolicy hbounds (hrows e he) hline
  · rw [List.length_map, ← (mapM_eq_some_iff.1 hitems).length_eq]
    exact hbound

namespace Service

/-- **Generation in reach.**  With prices and a tax rate that are not too large there is a report of
every rule that is stored. -/
theorem generate_moderate {config : Config} (hconfig : config.fault? = none)
    {ops : List Operation} {tenant : TenantId} {key : RuleKey} {rule : Rule} {profile : String}
    {q f p v : Nat} (hbounds : config.Bounds q f p)
    (hrule : (run config ops).stores.rules.get tenant key = some rule)
    (hrows : ∀ e ∈ rule.entries, ∀ row,
      rowOf (run config ops).stores.catalog tenant profile e = some row → row.AtMost p)
    (hvat : (Report.terms config.pricing
      ((run config ops).stores.catalog.profile? tenant profile)).2.AtMost v)
    (hbound : rule.entries.length * (q * f * p) * (v + 1) + 11 < coeffBound)
    (bindings : Bindings) :
    ∃ report, report.Covers config (run config ops).stores tenant key bindings profile rule ∧
      (see config (run config ops) (.generate tenant key bindings profile)).answer =
        .ok (.report report) := by
  have hpolicy := Config.valid_tuning hconfig
  exact exists_report_of_fits hpolicy hrule
    (Rule.fits_of_atMost hpolicy hbounds hrows hvat hbound)

/-- With the standard settings and a tax of a hundred percent, prices up to `10 ^ 12` are in reach
of rules with a million entries. -/
example : Config.standard.limits.maxResult.AtMost 100000 ∧
    Config.standard.tuning.maxFactor.AtMost 2 ∧
    1000000 * (100000 * 2 * 10 ^ 12) * (100 + 1) + 11 < coeffBound := by decide

end Service

end Estimating
