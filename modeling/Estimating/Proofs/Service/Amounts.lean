/-
Amounts that are too large.

What goes wrong with an entry of a rule is told on its line, with one exception: the amounts of a
report are not checked.  So there is a report of a rule if and only if all amounts that are worked
out for it fit a decimal.

* `percentageFactor`, `unitPriceOf` — what a percentage multiplies an amount by, and the price of a
  row;
* `Entry.Fits`, `Totals.Fits`, `Rule.Fits` — all amounts fit: those on a line, those of the totals,
  and those of a report;
* `Item.tune_isSome_iff`, `Entry.line?_isSome_iff` — when there is a line;
* `Decimal.sum_isSome_iff`, `Totals.ofLineTotals_isSome_iff` — when there are totals;
* `Rule.report?_isSome_iff` — **when there is a report**;
* `Report.Covers` — what a report tells of its rule, and `Service.exists_report_of_fits` — what is
  generated if all amounts fit;
* `Service.generate_run` — **what generation answers after a run**, and
  `Service.generate_tilingTaxed` — a tax rate at which there is no report.
-/
import Estimating.Proofs.Decimal.Quotients
import Estimating.Proofs.Service.Rules

set_option autoImplicit false

namespace Estimating

/-! ### Steps that may have no result -/

theorem isSome_bind_iff {α β : Type} {x : Option α} {f : α → Option β} :
    (x.bind f).isSome ↔ x.isSome ∧ ∀ y, x = some y → (f y).isSome := by
  cases x with
  | none => simp
  | some y => simp

theorem isSome_bind_congr {α β γ : Type} {x : Option α} {f : α → Option β} {g : α → Option γ}
    (h : ∀ y, (f y).isSome ↔ (g y).isSome) : (x.bind f).isSome ↔ (x.bind g).isSome := by
  cases x with
  | none => rfl
  | some y => exact h y

/-- Two passes over a list are one. -/
theorem mapM_bind_mapM {α β γ : Type} (f : α → Option β) (g : β → Option γ) (xs : List α) :
    ((xs.mapM f).bind fun ys => ys.mapM g) = xs.mapM fun x => (f x).bind g := by
  induction xs with
  | nil => rfl
  | cons x xs ih =>
      rw [List.mapM_cons, List.mapM_cons, ← ih]
      cases f x with
      | none => rfl
      | some y =>
          cases xs.mapM f with
          | none => simp
          | some ys => simp

/-! ### Amounts on a line -/

/-- What an amount is multiplied by to raise it by a percentage. -/
def percentageFactor (percentage : Decimal) : Option Decimal := do
  Decimal.one.add (← percentage.div .hundred)

theorem percentageFactor_isSome (percentage : Decimal) : (percentageFactor percentage).isSome := by
  obtain ⟨y, z, hy, hz, -⟩ := percentage.exists_one_add_hundredth
  rw [percentageFactor, hy]
  exact Option.isSome_iff_exists.2 ⟨z, hz⟩

theorem addPercentage_eq (value percentage : Decimal) : addPercentage value percentage =
    (percentageFactor percentage).bind fun factor => (value.mul factor).map .roundMoney := by
  unfold addPercentage percentageFactor
  cases percentage.div .hundred with
  | none => rfl
  | some y => simp [Option.map_eq_bind]

theorem addPercentage_isSome_iff {value percentage : Decimal} :
    (addPercentage value percentage).isSome ↔ ∀ factor, percentageFactor percentage = some factor →
      Decimal.Fits (value.toRat * factor.toRat) := by
  rw [addPercentage_eq, isSome_bind_iff, and_iff_right (percentageFactor_isSome _)]
  simp only [Option.isSome_map, Decimal.mul_isSome_iff]

/-- The price of a row; without a row it is nothing. -/
def unitPriceOf : Option Row → Option Decimal
  | none => some .zero
  | some (.labor r) => some r.unitPrice
  | some (.material m) => m.unitPrice

theorem unitPriceOf_isSome_iff {row : Option Row} : (unitPriceOf row).isSome ↔
    ∀ m factor, row = some (.material m) → percentageFactor m.markup = some factor →
      Decimal.Fits (m.unitCost.toRat * factor.toRat) := by
  rcases row with _ | r | m
  · exact iff_of_true rfl nofun
  · exact iff_of_true rfl nofun
  · refine addPercentage_isSome_iff.trans ⟨?_, fun h factor => h m factor rfl⟩
    rintro h _ factor ⟨⟩
    exact h factor

namespace Item

variable {i : Item} {kind : ItemKind} {item description unit : String} {qty price : Decimal}

theorem product?_isSome_iff :
    (product? qty price).isSome ↔ Decimal.Fits (qty.toRat * price.toRat) := by
  rw [product?, Option.isSome_map, Decimal.mul_isSome_iff]

theorem build_isSome_iff : (build kind item description qty unit price).isSome ↔
    Decimal.Fits (qty.roundMoney.toRat * price.roundMoney.toRat) := by
  rw [build, Option.isSome_map, product?_isSome_iff]

theorem setQty_isSome_iff :
    (i.setQty qty).isSome ↔ Decimal.Fits (qty.roundMoney.toRat * i.unitPrice.toRat) := by
  rw [setQty, Option.isSome_map, product?_isSome_iff]

/-- The line total is the product of quantity and price. -/
def Priced (i : Item) : Prop := product? i.qty i.unitPrice = some i.lineTotal

theorem priced_of_setQty {j : Item} (h : i.setQty qty = some j) :
    j.unitPrice = i.unitPrice ∧ j.Priced := by
  obtain ⟨total, htotal, rfl⟩ := Option.map_eq_some_iff.1 h
  exact ⟨rfl, htotal⟩

/-- A tuned line keeps its price, and its line total is that of its quantity. -/
theorem priced_of_tune {j : Item} {policy : Policy} {pattern : Option Pattern}
    (h : i.tune pattern policy = some j) : j.unitPrice = i.unitPrice ∧ j.Priced := by
  obtain ⟨plain, hplain, h⟩ := Option.bind_eq_some_iff.1 h
  have hpriced := priced_of_setQty hplain
  cases pattern with
  | none =>
      cases h
      exact hpriced
  | some p =>
      simp only at h
      split at h
      · obtain ⟨factor, -, h⟩ := Option.bind_eq_some_iff.1 h
        obtain ⟨product, -, h⟩ := Option.bind_eq_some_iff.1 h
        obtain ⟨tuned, htuned, h⟩ := Option.bind_eq_some_iff.1 h
        obtain ⟨hprice, hpriced'⟩ := priced_of_setQty htuned
        cases h
        exact ⟨hprice.trans hpriced.1, hpriced'⟩
      · cases h
        exact hpriced

theorem multiply_isSome_iff {policy : Policy} {p : Pattern} (hpolicy : policy.Valid) :
    (i.multiply p policy).isSome ↔
    Decimal.Fits (i.baseQty.toRat * (p.factor.clamp policy.minFactor policy.maxFactor).toRat) ∧
    ∀ qty, policy.tuned i.baseQty p.factor = some qty →
      Decimal.Fits (qty.toRat * i.unitPrice.toRat) := by
  rw [multiply, Policy.tuned, hpolicy.clamp_eq, Option.bind_some, ← Decimal.mul_isSome_iff]
  refine isSome_bind_iff.trans ?_
  simp only [Option.isSome_some, Option.some.injEq, forall_eq', true_and]
  refine isSome_bind_iff.trans (and_congr_right fun _ => ?_)
  simp only [Option.map_eq_some_iff]
  constructor
  · rintro h _ ⟨product, hproduct, rfl⟩
    exact setQty_isSome_iff.1 (isSome_bind_iff.1 (h product hproduct)).1
  · intro h product hproduct
    exact isSome_bind_iff.2 ⟨setQty_isSome_iff.2 (h _ ⟨product, hproduct, rfl⟩), fun _ _ => rfl⟩

/-- A line can be tuned if and only if the amounts on it fit. -/
theorem tune_isSome_iff {policy : Policy} {pattern : Option Pattern} (hpolicy : policy.Valid)
    (hbase : i.baseQty.roundMoney = i.baseQty) : (i.tune pattern policy).isSome ↔
    Decimal.Fits (i.baseQty.toRat * i.unitPrice.toRat) ∧
    (∀ p, pattern = some p → policy.minSamples ≤ p.samples →
      Decimal.Fits (i.baseQty.toRat * (p.factor.clamp policy.minFactor policy.maxFactor).toRat)) ∧
    ∀ qty, policy.reported i.baseQty pattern = some qty →
      Decimal.Fits (qty.toRat * i.unitPrice.toRat) := by
  have hsame : (i.setQty i.baseQty).isSome ↔
      Decimal.Fits (i.baseQty.toRat * i.unitPrice.toRat) := by rw [setQty_isSome_iff, hbase]
  rw [tune, ← hsame]
  -- whatever the pattern, the line is set back to its base quantity first
  refine isSome_bind_iff.trans (and_congr_right fun hfits => ?_)
  obtain ⟨plain, hplain⟩ := Option.isSome_iff_exists.1 hfits
  have hbaseQty := (setQty_eq_some hplain).2.1
  have hprice := (priced_of_setQty hplain).1
  rw [hplain]
  simp only [Option.some.injEq, forall_eq']
  cases pattern with
  | none =>
      refine iff_of_true rfl ⟨nofun, ?_⟩
      rintro qty ⟨⟩
      exact hsame.1 hfits
  | some p =>
      simp only [Option.some.injEq, forall_eq', Policy.reported]
      split
      · next henough =>
          rw [multiply_isSome_iff hpolicy, hbaseQty, hprice]
          exact and_congr_left' ⟨fun h _ => h, fun h => h henough⟩
      · next hfew =>
          refine iff_of_true rfl ⟨fun h => absurd h hfew, ?_⟩
          rintro qty ⟨⟩
          exact hsame.1 hfits

end Item

/-- All amounts on the line of an entry fit, given the row of the catalog for it and what has been
learned for its item. -/
structure Entry.Fits (config : Config) (bindings : Bindings) (row : Option Row)
    (pattern : Option Pattern) (e : Entry) : Prop where
  /-- The cost of a material, raised by its markup. -/
  markup : ∀ m factor, row = some (.material m) → percentageFactor m.markup = some factor →
    Decimal.Fits (m.unitCost.toRat * factor.toRat)
  /-- The value of the entry at the price. -/
  untuned : ∀ price, unitPriceOf row = some price →
    Decimal.Fits ((e.qty config.limits bindings).roundMoney.toRat * price.roundMoney.toRat)
  /-- The value under the factor that has been learned, if it is used. -/
  factor : ∀ p, (e.value config.limits bindings).isOk = true → pattern = some p →
    config.tuning.minSamples ≤ p.samples →
    Decimal.Fits ((e.qty config.limits bindings).roundMoney.toRat *
      (p.factor.clamp config.tuning.minFactor config.tuning.maxFactor).toRat)
  /-- The quantity that the line reports at the price. -/
  tuned : ∀ price qty, (e.value config.limits bindings).isOk = true →
    unitPriceOf row = some price →
    config.tuning.reported (e.qty config.limits bindings).roundMoney pattern = some qty →
    Decimal.Fits (qty.toRat * price.roundMoney.toRat)

/-- The line of an entry, tuned by what has been learned. -/
def Entry.line? (config : Config) (bindings : Bindings) (row : Option Row)
    (patterns : List Pattern) (e : Entry) : Option Item :=
  (Draft.ofEntry config.limits config.pricing bindings e (.ok row)).bind fun d =>
    d.tune patterns config.tuning

section

variable {config : Config} {bindings : Bindings} {row : Option Row} {e : Entry} {price : Decimal}

theorem Entry.exists_price_eq (defaults : PriceDefaults) (row : Option Row) (e : Entry) :
    ∃ description unit, ∀ qty, e.price defaults qty (.ok row) = (unitPriceOf row).bind fun price =>
      Item.build e.kind e.item description qty unit price := by
  rcases row with _ | r | m
  · exact ⟨e.item, defaults.unitOf e.kind, fun _ => rfl⟩
  · exact ⟨r.description, r.unit, fun _ => rfl⟩
  · exact ⟨m.name, m.unit, fun _ => rfl⟩

/-- A line before tuning is there if and only if it has a price and the product with it fits. -/
theorem Draft.ofEntry_isSome_iff :
    (ofEntry config.limits config.pricing bindings e (.ok row)).isSome ↔
      (unitPriceOf row).isSome ∧ ∀ price, unitPriceOf row = some price →
        Decimal.Fits ((e.qty config.limits bindings).roundMoney.toRat *
          price.roundMoney.toRat) := by
  obtain ⟨description, unit, hprice⟩ := e.exists_price_eq config.pricing row
  rw [ofEntry, ofValue, Option.isSome_map, hprice, isSome_bind_iff]
  simp only [Item.build_isSome_iff]
  rfl

theorem Draft.priced_of_ofEntry {d : Draft}
    (h : ofEntry config.limits config.pricing bindings e (.ok row) = some d) :
    ∃ price, unitPriceOf row = some price ∧ d.item.unitPrice = price.roundMoney ∧
      d.item.Priced := by
  obtain ⟨i, hi, rfl⟩ := Option.map_eq_some_iff.1 h
  obtain ⟨description, unit, hprices⟩ := e.exists_price_eq config.pricing row
  rw [hprices] at hi
  obtain ⟨price, hprice, hi⟩ := Option.bind_eq_some_iff.1 hi
  have hshows := Item.shows_of_build hi
  obtain ⟨warning, confidence, hwarn⟩ := warnOf_eq i
    (e.failures (e.value config.limits bindings) (.ok row))
  refine ⟨price, hprice, ?_, ?_⟩
  · rw [hwarn]
    exact hshows.unitPrice_eq
  · rw [hwarn, Item.Priced, hshows.qty_eq, hshows.unitPrice_eq]
    exact hshows.lineTotal_eq

/-- The line of an entry is at the price of the row, and its line total is that of its quantity. -/
theorem Entry.priced_of_line? {patterns : List Pattern} {i : Item}
    (h : e.line? config bindings row patterns = some i) :
    ∃ price, unitPriceOf row = some price ∧ i.unitPrice = price.roundMoney ∧ i.Priced := by
  obtain ⟨d, hd, htune⟩ := Option.bind_eq_some_iff.1 h
  obtain ⟨price, hprice, hunit, hpriced⟩ := Draft.priced_of_ofEntry hd
  unfold Draft.tune at htune
  split at htune
  · obtain ⟨hsame, hpriced'⟩ := Item.priced_of_tune htune
    exact ⟨price, hprice, hsame.trans hunit, hpriced'⟩
  · cases htune
    exact ⟨price, hprice, hunit, hpriced⟩

/-- A line can be tuned if and only if it has no value or the amounts on it fit. -/
theorem Draft.tune_isSome_iff (hpolicy : config.tuning.Valid) {patterns : List Pattern} {d : Draft}
    (h : ofEntry config.limits config.pricing bindings e (.ok row) = some d)
    (hprice : unitPriceOf row = some price) : (d.tune patterns config.tuning).isSome ↔
    ((e.value config.limits bindings).isOk = true →
      Decimal.Fits ((e.qty config.limits bindings).roundMoney.toRat * price.roundMoney.toRat) ∧
      (∀ p, patternFor patterns e.item = some p → config.tuning.minSamples ≤ p.samples →
        Decimal.Fits ((e.qty config.limits bindings).roundMoney.toRat *
          (p.factor.clamp config.tuning.minFactor config.tuning.maxFactor).toRat)) ∧
      ∀ qty, config.tuning.reported (e.qty config.limits bindings).roundMoney
          (patternFor patterns e.item) = some qty →
        Decimal.Fits (qty.toRat * price.roundMoney.toRat)) := by
  have htells := tells h
  have hbase : d.item.baseQty.roundMoney = d.item.baseQty := by
    rw [htells.baseQty]
    exact Decimal.roundTo_roundTo _ (by decide)
  have hunit : d.item.unitPrice = price.roundMoney := by
    obtain ⟨price', hprice', hunit, -⟩ := priced_of_ofEntry h
    rw [hunit, Option.some.inj (hprice.symm.trans hprice')]
  rw [Draft.tune, ← htells.evaluated]
  cases d.evaluated with
  | false => exact iff_of_true rfl nofun
  | true =>
      rw [if_pos rfl, Item.tune_isSome_iff hpolicy hbase, htells.baseQty, htells.item,
        hunit]
      exact ⟨fun h _ => h, fun h => h rfl⟩

/-- **The line of an entry is there if and only if all amounts on it fit.** -/
theorem Entry.line?_isSome_iff (hpolicy : config.tuning.Valid) {patterns : List Pattern} :
    (e.line? config bindings row patterns).isSome ↔
      e.Fits config bindings row (patternFor patterns e.item) := by
  rw [line?, isSome_bind_iff]
  constructor
  · rintro ⟨hdraft, htune⟩
    obtain ⟨hpriced, huntuned⟩ := Draft.ofEntry_isSome_iff.1 hdraft
    obtain ⟨d, hd⟩ := Option.isSome_iff_exists.1 hdraft
    obtain ⟨price, hprice⟩ := Option.isSome_iff_exists.1 hpriced
    have hamounts := (Draft.tune_isSome_iff hpolicy hd hprice).1 (htune d hd)
    refine ⟨unitPriceOf_isSome_iff.1 hpriced, huntuned, ?_, ?_⟩
    · intro p hvalue
      exact (hamounts hvalue).2.1 p
    · intro price' qty hvalue hprice'
      obtain rfl : price = price' := Option.some.inj (hprice.symm.trans hprice')
      exact (hamounts hvalue).2.2 qty
  · intro h
    have hpriced := unitPriceOf_isSome_iff.2 h.markup
    obtain ⟨price, hprice⟩ := Option.isSome_iff_exists.1 hpriced
    refine ⟨Draft.ofEntry_isSome_iff.2 ⟨hpriced, h.untuned⟩, fun d hd => ?_⟩
    refine (Draft.tune_isSome_iff hpolicy hd hprice).2 fun hvalue => ?_
    exact ⟨h.untuned price hprice, fun p => h.factor p hvalue,
      fun qty => h.tuned price qty hvalue hprice⟩

end

/-! ### Totals -/

/-- All amounts of the totals of a list of line totals fit. -/
structure Totals.Fits (lineTotals : List Decimal) (vatRate : Decimal) : Prop where
  /-- The sum up to each of the lines. -/
  sums : ∀ earlier x sum, earlier ++ [x] <+: lineTotals → Decimal.sum earlier = some sum →
    Decimal.Fits (sum.toRat + x.toRat)
  /-- The subtotal at the tax rate. -/
  tax : ∀ sum, Decimal.sum lineTotals = some sum →
    Decimal.Fits (sum.roundMoney.toRat * vatRate.toRat)
  /-- The subtotal and the tax. -/
  total : ∀ sum product vat, Decimal.sum lineTotals = some sum →
    sum.roundMoney.mul vatRate = some product → product.div .hundred = some vat →
    Decimal.Fits (sum.roundMoney.toRat + vat.roundMoney.toRat)

theorem Decimal.sum_append_singleton (xs : List Decimal) (x : Decimal) :
    sum (xs ++ [x]) = (sum xs).bind fun y => y.add x := by
  rw [sum, List.foldlM_append]
  simp [sum]

/-- A list can be added up if and only if each of its sums fits. -/
theorem Decimal.sum_isSome_iff {xs : List Decimal} : (sum xs).isSome ↔
    ∀ earlier x y, earlier ++ [x] <+: xs → sum earlier = some y → Fits (y.toRat + x.toRat) := by
  induction xs using List.reverseRecOn with
  | nil =>
      refine iff_of_true rfl fun earlier x y h => ?_
      exact absurd (List.prefix_nil.1 h) (by simp)
  | append_singleton xs x ih =>
      rw [sum_append_singleton, isSome_bind_iff, ih]
      simp only [add_isSome_iff]
      constructor
      · rintro ⟨hxs, hx⟩ earlier x' y hle hsum
        -- the last of the sums is that of the whole list
        rcases List.prefix_concat_iff.1 hle with heq | hle
        · obtain ⟨rfl, hlast⟩ := List.append_inj' heq rfl
          obtain rfl := List.singleton_inj.1 hlast
          exact hx y hsum
        · exact hxs earlier x' y hle hsum
      · intro h
        exact ⟨fun earlier x' y hle => h earlier x' y (hle.trans (List.prefix_append _ _)),
          fun y => h xs x y (List.prefix_refl _)⟩

/-- **There are totals if and only if all amounts of them fit.** -/
theorem Totals.ofLineTotals_isSome_iff {lineTotals : List Decimal} {vatRate : Decimal} :
    (ofLineTotals lineTotals vatRate).isSome ↔ Fits lineTotals vatRate := by
  have hlast {sum vat : Decimal} : ((sum.add vat).bind fun total =>
      some (⟨sum, vat, total.roundMoney⟩ : Totals)).isSome ↔ Decimal.Fits (sum.toRat + vat.toRat) :=
    isSome_bind_iff.trans ((and_iff_left fun _ _ => rfl).trans Decimal.add_isSome_iff)
  have hhundredth (product : Decimal) : (product.div .hundred).isSome := by
    obtain ⟨vat, hvat, -⟩ := product.exists_hundredth
    exact Option.isSome_iff_exists.2 ⟨vat, hvat⟩
  unfold ofLineTotals
  simp only [Option.bind_eq_bind, Option.pure_def, isSome_bind_iff, hlast, hhundredth, true_and,
    Decimal.mul_isSome_iff]
  rw [Decimal.sum_isSome_iff]
  constructor
  · rintro ⟨hsums, h⟩
    exact ⟨hsums, fun sum hsum => (h sum hsum).1,
      fun sum product vat hsum hproduct hvat => (h sum hsum).2 product hproduct vat hvat⟩
  · intro h
    exact ⟨h.sums, fun sum hsum => ⟨h.tax sum hsum,
      fun product hproduct vat hvat => h.total sum product vat hsum hproduct hvat⟩⟩

/-! ### Reports -/

namespace Rule

variable (config : Config) (s : Stores) (tenant : TenantId) (key : RuleKey) (bindings : Bindings)
  (profile : String) (r : Rule)

/-- The lines of a report. -/
def lines? : Option (List Item) :=
  r.entries.mapM fun e => e.line? config bindings (Service.rowOf s.catalog tenant profile e)
    (s.patterns.ofRule tenant key)

/-- All amounts of the report of a rule fit. -/
structure Fits : Prop where
  /-- Those on the line of each entry. -/
  lines : ∀ e ∈ r.entries, e.Fits config bindings (Service.rowOf s.catalog tenant profile e)
    (patternFor (s.patterns.ofRule tenant key) e.item)
  /-- Those of the totals. -/
  totals : ∀ items, r.lines? config s tenant key bindings profile = some items →
    Totals.Fits (items.map Item.lineTotal)
      (Report.terms config.pricing (s.catalog.profile? tenant profile)).2

variable {config s tenant key bindings profile r}

/-- The lines of a rule, drafted and tuned one after the other. -/
theorem drafts_bind_tuneAll : ((r.drafts config.limits config.pricing bindings fun e =>
    .ok (Service.rowOf s.catalog tenant profile e)).bind fun drafts =>
      tuneAll drafts (s.patterns.ofRule tenant key) config.tuning) =
    r.lines? config s tenant key bindings profile :=
  mapM_bind_mapM _ _ _

/-- There is a report if and only if there are lines and totals of them. -/
theorem report?_isSome_iff_bind : (r.report? config s tenant key bindings profile).isSome ↔
    ((r.lines? config s tenant key bindings profile).bind fun items => Totals.ofItems items
      (Report.terms config.pricing (s.catalog.profile? tenant profile)).2).isSome := by
  rw [← drafts_bind_tuneAll, Option.bind_assoc]
  refine isSome_bind_congr fun drafts => isSome_bind_congr fun items => ?_
  exact isSome_bind_iff.trans (and_iff_left fun _ _ => rfl)

/-- **There is a report if and only if all amounts of it fit.** -/
theorem report?_isSome_iff (hpolicy : config.tuning.Valid) :
    (r.report? config s tenant key bindings profile).isSome ↔
      r.Fits config s tenant key bindings profile := by
  have hlines : (r.lines? config s tenant key bindings profile).isSome ↔
      ∀ e ∈ r.entries, e.Fits config bindings (Service.rowOf s.catalog tenant profile e)
        (patternFor (s.patterns.ofRule tenant key) e.item) := by
    rw [lines?, isSome_mapM_iff]
    exact forall₂_congr fun e _ => Entry.line?_isSome_iff hpolicy
  -- the totals are asked for only where there are lines to add up
  rw [report?_isSome_iff_bind, isSome_bind_iff, hlines]
  simp only [Totals.ofItems, Totals.ofLineTotals_isSome_iff]
  exact ⟨fun ⟨hentries, htotals⟩ => ⟨hentries, htotals⟩, fun h => ⟨h.lines, h.totals⟩⟩

end Rule

/-- A report covers a rule: each entry has a line that shows it, all that has failed for an entry is
told, and line totals and totals are those of the quantities and prices. -/
structure Report.Covers (config : Config) (s : Stores) (tenant : TenantId) (key : RuleKey)
    (bindings : Bindings) (profile : String) (r : Rule) (report : Report) : Prop where
  tenant_eq : report.tenant = tenant
  quote_eq : report.quote = none
  key_eq : report.key = key
  profile_eq : report.profile = profile
  terms_eq : (report.currency, report.vatRate) =
    Report.terms config.pricing (s.catalog.profile? tenant profile)
  lines : List.Forall₂ (fun e i => e.ShownBy config bindings
    (patternFor (s.patterns.ofRule tenant key) e.item) i) r.entries report.items
  failures_eq : report.failures = r.entries.flatMap fun e =>
    e.failures (e.value config.limits bindings) (.ok (Service.rowOf s.catalog tenant profile e))
  priced : ∀ i ∈ report.items, i.Priced
  totals_eq : Totals.ofItems report.items report.vatRate = some report.totals
  tuningAvailable_eq : report.tuningAvailable = true

namespace Rule

variable {config : Config} {s : Stores} {tenant : TenantId} {key : RuleKey} {bindings : Bindings}
  {profile : String} {r : Rule}

theorem exists_entry_of_lines? {items : List Item}
    (h : r.lines? config s tenant key bindings profile = some items) {i : Item} (hi : i ∈ items) :
    ∃ e ∈ r.entries, e.line? config bindings (Service.rowOf s.catalog tenant profile e)
      (s.patterns.ofRule tenant key) = some i := by
  obtain ⟨e, hmem, he⟩ := exists_mem_zip (mapM_eq_some_iff.1 h).flip hi
  exact ⟨e, (List.of_mem_zip hmem).2, he⟩

theorem covers_of_report? (hpolicy : config.tuning.Valid) {report : Report}
    (h : r.report? config s tenant key bindings profile = some report) :
    report.Covers config s tenant key bindings profile r := by
  have hlines := forall₂_shownBy hpolicy h
  obtain ⟨drafts, hdrafts, h⟩ := Option.bind_eq_some_iff.1 h
  obtain ⟨items, hitems, h⟩ := Option.bind_eq_some_iff.1 h
  obtain ⟨totals, htotals, h⟩ := Option.bind_eq_some_iff.1 h
  cases h
  have hitems : r.lines? config s tenant key bindings profile = some items := by
    rw [← drafts_bind_tuneAll, hdrafts]
    exact hitems
  refine ⟨rfl, rfl, rfl, rfl, rfl, hlines, flatMap_failures hdrafts, fun i hi => ?_, htotals, rfl⟩
  obtain ⟨e, -, he⟩ := exists_entry_of_lines? hitems hi
  obtain ⟨-, -, -, hpriced⟩ := Entry.priced_of_line? he
  exact hpriced

end Rule

namespace Service

open World

variable {config : Config}

/-- A report whose amounts fit is generated, and it covers its rule. -/
theorem exists_report_of_fits (hpolicy : config.tuning.Valid) {ops : List Operation}
    {tenant : TenantId} {key : RuleKey} {bindings : Bindings} {profile : String} {rule : Rule}
    (hrule : (run config ops).stores.rules.get tenant key = some rule)
    (hfits : rule.Fits config (run config ops).stores tenant key bindings profile) :
    ∃ report, report.Covers config (run config ops).stores tenant key bindings profile rule ∧
      (see config (run config ops) (.generate tenant key bindings profile)).answer =
        .ok (.report report) := by
  obtain ⟨report, hreport⟩ := Option.isSome_iff_exists.1
    ((Rule.report?_isSome_iff hpolicy).2 hfits)
  refine ⟨report, Rule.covers_of_report? hpolicy hreport, ?_⟩
  rw [see_generate hpolicy.maxAttempts_ne_zero, hrule, Option.elim, hreport]
  rfl

/-- **What generation answers after a run**: that there is no rule, if there is none; and if there
is one, a report that covers the rule, as long as all amounts of it fit.  Only where one of them
does not, generation ends without a report. -/
theorem generate_run (config : Config) (hconfig : config.fault? = none) (ops : List Operation)
    (tenant : TenantId) (key : RuleKey) (bindings : Bindings) (profile : String) :
    ((run config ops).stores.rules.get tenant key = none →
      (see config (run config ops) (.generate tenant key bindings profile)).answer =
        .error (.ruleNotFound tenant key)) ∧
    ∀ rule, (run config ops).stores.rules.get tenant key = some rule →
      (rule.Fits config (run config ops).stores tenant key bindings profile →
        ∃ report, report.Covers config (run config ops).stores tenant key bindings profile rule ∧
          (see config (run config ops) (.generate tenant key bindings profile)).answer =
            .ok (.report report)) ∧
      (¬ rule.Fits config (run config ops).stores tenant key bindings profile →
        (see config (run config ops) (.generate tenant key bindings profile)).answer =
          .error .overflow) := by
  have hpolicy := Config.valid_tuning hconfig
  refine ⟨fun hnone => ?_, fun rule hrule => ⟨exists_report_of_fits hpolicy hrule, fun hnot => ?_⟩⟩
  · rw [see_generate hpolicy.maxAttempts_ne_zero, hnone]
    rfl
  · rw [← Rule.report?_isSome_iff hpolicy, Option.not_isSome_iff_eq_none] at hnot
    rw [see_generate hpolicy.maxAttempts_ne_zero, hrule, Option.elim, hnot]
    rfl

/-- The floor of a bathroom is tiled, at a price of `10 ^ 13` and a tax rate in percent. -/
def tilingTaxed (vatRate : Decimal) : List Operation := [
  .putRule (tilingAs "areaM2" 1),
  .putLabor "acme" "standard" ⟨"tiling", "Tiling", "hour", .whole 10000000000000⟩,
  .putProfile "acme" ⟨"standard", "Standard", "SEK", vatRate⟩]

/-- At a tax rate of `10 ^ 16` the product of subtotal and rate is too large, though the tax, which
is a hundredth of it, is not.  There is a rule, but no report of it. -/
theorem generate_tilingTaxed :
    Config.standard.fault? = none ∧
      ((run .standard (tilingTaxed (.whole 10000000000000000))).stores.rules.get "acme"
        ⟨.bathroom, .basic⟩).isSome ∧
      (see .standard (run .standard (tilingTaxed (.whole 10000000000000000))) (.generate "acme"
        ⟨.bathroom, .basic⟩ tenSquareMeters "standard")).answer = .error .overflow := by
  have hnone : ((run .standard (tilingTaxed (.whole 10000000000000000))).stores.rules.get "acme"
      ⟨.bathroom, .basic⟩).any fun rule => (rule.report? .standard
        (run .standard (tilingTaxed (.whole 10000000000000000))).stores "acme"
        ⟨.bathroom, .basic⟩ tenSquareMeters "standard").isNone := by decide +kernel
  obtain ⟨rule, hrule, hnone⟩ := (Option.any_eq_true _ _).1 hnone
  refine ⟨by decide, Option.isSome_iff_exists.2 ⟨rule, hrule⟩, ?_⟩
  rw [see_generate (by decide), hrule, Option.elim, Option.isNone_iff_eq_none.1 hnone]
  rfl

/-- There is no rule at first; at a common tax rate there is a report that covers the rule. -/
theorem generate_run_tiling :
    Config.standard.fault? = none ∧
      (see .standard (run .standard []) (.generate "acme" ⟨.bathroom, .basic⟩ tenSquareMeters
        "standard")).answer = .error (.ruleNotFound "acme" ⟨.bathroom, .basic⟩) ∧
      ∃ rule report, report.Covers .standard (run .standard (tilingTaxed (.whole 25))).stores
          "acme" ⟨.bathroom, .basic⟩ tenSquareMeters "standard" rule ∧
        (see .standard (run .standard (tilingTaxed (.whole 25))) (.generate "acme"
          ⟨.bathroom, .basic⟩ tenSquareMeters "standard")).answer = .ok (.report report) := by
  have hconfig : Config.standard.fault? = none := by decide
  have hmade : ((run .standard (tilingTaxed (.whole 25))).stores.rules.get "acme"
      ⟨.bathroom, .basic⟩).any fun rule => (rule.report? .standard
        (run .standard (tilingTaxed (.whole 25))).stores "acme" ⟨.bathroom, .basic⟩
        tenSquareMeters "standard").isSome := by decide +kernel
  obtain ⟨rule, hrule, hmade⟩ := (Option.any_eq_true _ _).1 hmade
  have hfits := (Rule.report?_isSome_iff (Config.valid_tuning hconfig)).1 hmade
  obtain ⟨report, hcovers, hanswer⟩ := ((generate_run .standard hconfig (tilingTaxed (.whole 25))
    "acme" ⟨.bathroom, .basic⟩ tenSquareMeters "standard").2 rule hrule).1 hfits
  exact ⟨hconfig, (generate_run .standard hconfig [] "acme" ⟨.bathroom, .basic⟩ tenSquareMeters
    "standard").1 rfl, rule, report, hcovers, hanswer⟩

end Service

end Estimating
