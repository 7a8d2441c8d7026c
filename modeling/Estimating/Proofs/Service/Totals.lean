/-
Amounts of a quote that are exact up to rounding.

Quantities, prices and amounts have two fraction digits, so sums of them have no more, and there is
nothing to round in a subtotal or in a total.  Products and the tax are rounded once, from their
exact values, as long as these are values that decimals have.  What a quote comes to does then not
depend on the order of its lines.

* `Decimal.exists_sum_eq` — a sum of which all partial sums are representable is exact;
* `Item.Rounded` — a line with rounded parts, as lines are from when they are made on
  (`Item.Shows.rounded`, `Item.Rounded.setQty`, `Item.Rounded.tune`);
* `Item.Making` — how a line is made, and `Item.Making.exists_line` — its exact amount;
* `Totals.exactSum`, `Totals.SumsFit`, `Totals.TaxFits`, `Totals.Exact` — what lines come to, and
  when nothing is lost on the way;
* `Totals.exists_ofItems_eq` — **the totals of lines are exact**, and
  `Totals.ofItems_eq_of_perm` — **the same in every order**;
* `Service.exists_parts_of_generate` — the lines of a report are rounded, and its totals are theirs;
* `Service.amounts_exact` — **both of all quotes**.
-/
import Estimating.Proofs.Decimal.Exact
import Estimating.Proofs.Service.Amounts

set_option autoImplicit false

namespace Estimating

open Decimal (Representable nearest)

/-! ### Sums -/

/-- A sum is exact if all sums on the way to it are representable. -/
theorem Decimal.exists_sum_eq {xs : List Decimal}
    (h : ∀ earlier, earlier <+: xs → Representable (earlier.map toRat).sum) :
    ∃ x, sum xs = some x ∧ x.toRat = (xs.map toRat).sum := by
  induction xs using List.reverseRecOn with
  | nil => exact ⟨zero, rfl, rfl⟩
  | append_singleton xs x ih =>
      obtain ⟨y, hy, hvalue⟩ := ih fun earlier hle => h earlier (hle.trans (List.prefix_append _ _))
      have hrep := h _ (List.prefix_refl _)
      rw [List.map_append, List.sum_append, List.map_singleton, List.sum_singleton] at hrep ⊢
      rw [← hvalue] at hrep ⊢
      rw [sum_append_singleton, hy]
      exact exists_add_eq hrep

/-! ### Lines -/

namespace Item

variable {i j : Item} {qty price : Decimal}

theorem tidy_of_product? {x : Decimal} (h : product? qty price = some x) : x.Tidy 2 := by
  obtain ⟨y, -, rfl⟩ := Option.map_eq_some_iff.1 h
  exact Decimal.tidy_roundTo y (by decide)

/-- The amount of a line is the rounded exact product. -/
theorem exists_product?_eq (h : Representable (qty.toRat * price.toRat)) :
    ∃ x, product? qty price = some x ∧ x.toRat = nearest 2 (qty.toRat * price.toRat) := by
  obtain ⟨x, hx, hvalue⟩ := Decimal.exists_mul_eq h
  refine ⟨x.roundMoney, ?_, ?_⟩
  · rw [product?, hx]
    rfl
  · rw [Decimal.toRat_roundMoney, hvalue]

/-- A line with rounded quantities, a rounded price, and the rounded product of the two. -/
structure Rounded (i : Item) : Prop where
  qty : i.qty.Tidy 2
  baseQty : i.baseQty.Tidy 2
  unitPrice : i.unitPrice.Tidy 2
  lineTotal : product? i.qty i.unitPrice = some i.lineTotal

theorem Rounded.tidy_lineTotal (h : i.Rounded) : i.lineTotal.Tidy 2 := tidy_of_product? h.lineTotal

/-- The amount of a line, if the exact product is representable. -/
theorem Rounded.lineTotal_eq (h : i.Rounded)
    (hrep : Representable (i.qty.toRat * i.unitPrice.toRat)) :
    i.lineTotal.toRat = nearest 2 (i.qty.toRat * i.unitPrice.toRat) := by
  obtain ⟨x, hx, hvalue⟩ := exists_product?_eq hrep
  obtain rfl := Option.some.inj (h.lineTotal.symm.trans hx)
  exact hvalue

theorem Shows.rounded {kind : ItemKind} {item description unit : String}
    (h : i.Shows kind item description qty unit price) : i.Rounded := by
  have hqty : qty.roundMoney.Tidy 2 := Decimal.tidy_roundTo qty (by decide)
  refine ⟨h.qty_eq ▸ hqty, h.baseQty_eq ▸ hqty, h.unitPrice_eq ▸ ?_, ?_⟩
  · exact Decimal.tidy_roundTo price (by decide)
  · rw [h.qty_eq, h.unitPrice_eq]
    exact h.lineTotal_eq

theorem Rounded.setQty (h : i.Rounded) (hset : i.setQty qty = some j) : j.Rounded := by
  obtain ⟨lineTotal, htotal, rfl⟩ := Option.map_eq_some_iff.1 hset
  exact ⟨Decimal.tidy_roundTo qty (by decide), h.baseQty, h.unitPrice, htotal⟩

theorem Rounded.warnOf (h : i.Rounded) (failures : List Failure) : (i.warnOf failures).Rounded := by
  unfold Item.warnOf
  split
  · exact h
  · exact ⟨h.qty, h.baseQty, h.unitPrice, h.lineTotal⟩

theorem Rounded.tune {pattern : Option Pattern} {policy : Policy} (h : i.Rounded)
    (htune : i.tune pattern policy = some j) : j.Rounded := by
  obtain ⟨plain, hplain, htune⟩ := Option.bind_eq_some_iff.1 htune
  have hrounded := h.setQty hplain
  cases pattern with
  | none =>
      cases htune
      exact ⟨hrounded.qty, hrounded.baseQty, hrounded.unitPrice, hrounded.lineTotal⟩
  | some p =>
      simp only at htune
      split at htune
      · obtain ⟨factor, -, htune⟩ := Option.bind_eq_some_iff.1 htune
        obtain ⟨product, -, htune⟩ := Option.bind_eq_some_iff.1 htune
        obtain ⟨tuned, htuned, htune⟩ := Option.bind_eq_some_iff.1 htune
        have hrounded := hrounded.setQty htuned
        cases htune
        exact ⟨hrounded.qty, hrounded.baseQty, hrounded.unitPrice, hrounded.lineTotal⟩
      · cases htune
        exact ⟨hrounded.qty, hrounded.baseQty, hrounded.unitPrice, hrounded.lineTotal⟩

/-! ### How lines are made -/

/-- How a line is made: from a quantity and a price, with other quantities set one after the
other. -/
structure Making where
  kind : ItemKind
  item : String
  description : String
  qty : Decimal
  unit : String
  unitPrice : Decimal
  /-- The quantities that are set later. -/
  later : List Decimal

namespace Making

/-- The line that is made, if no product on the way is too large. -/
def line? (m : Making) : Option Item := do
  let new ← build m.kind m.item m.description m.qty m.unit m.unitPrice
  m.later.foldlM setQty new

/-- The quantity in the end. -/
def lastQty (m : Making) : Decimal := m.later.getLastD m.qty

/-- The exact product of the price with each of the quantities is representable. -/
def Exact (m : Making) : Prop :=
  ∀ qty ∈ m.qty :: m.later, Representable (qty.roundMoney.toRat * m.unitPrice.roundMoney.toRat)

theorem exists_foldlM_setQty {later : List Decimal} : ∀ {i : Item} {qty : Decimal}, i.Rounded →
    i.qty = qty.roundMoney → i.unitPrice = price.roundMoney →
    (∀ qty ∈ later, Representable (qty.roundMoney.toRat * price.roundMoney.toRat)) →
    ∃ j, later.foldlM setQty i = some j ∧ j.Rounded ∧ j.qty = (later.getLastD qty).roundMoney ∧
      j.unitPrice = price.roundMoney := by
  induction later with
  | nil => exact fun hi hqty hprice _ => ⟨_, rfl, hi, hqty, hprice⟩
  | cons next later ih =>
      intro i qty hi _ hprice hexact
      obtain ⟨x, hx, -⟩ := exists_product?_eq (hexact next List.mem_cons_self)
      rw [← hprice] at hx
      have hset : i.setQty next = some { i with qty := next.roundMoney, lineTotal := x } := by
        rw [setQty, hx]
        rfl
      obtain ⟨j, hj, hrounded, hqty, hprice'⟩ := ih (hi.setQty hset) rfl hprice
        fun q hq => hexact q (List.mem_cons_of_mem _ hq)
      refine ⟨j, ?_, hrounded, ?_, hprice'⟩
      · rw [List.foldlM_cons, hset]
        exact hj
      · rw [hqty, List.getLastD_cons]

/-- What a line shows that is made exactly: the last quantity, and the rounded exact product. -/
structure ShownBy (m : Making) (i : Item) : Prop where
  qty : i.qty = m.lastQty.roundMoney
  unitPrice : i.unitPrice = m.unitPrice.roundMoney
  lineTotal : i.lineTotal.toRat = nearest 2 (i.qty.toRat * i.unitPrice.toRat)

/-- A line that is made exactly is there. -/
theorem exists_line {m : Making} (h : m.Exact) :
    ∃ i, m.line? = some i ∧ i.Rounded ∧ m.ShownBy i := by
  obtain ⟨x, hx, -⟩ := Decimal.exists_mul_eq (h m.qty List.mem_cons_self)
  have hsome : (build m.kind m.item m.description m.qty m.unit m.unitPrice).isSome :=
    build_isSome (by rw [hx]; rfl)
  obtain ⟨new, hnew⟩ := Option.isSome_iff_exists.1 hsome
  have hshows := shows_of_build hnew
  obtain ⟨i, hi, hrounded, hqty, hprice⟩ := exists_foldlM_setQty hshows.rounded hshows.qty_eq
    hshows.unitPrice_eq fun q hq => h q (List.mem_cons_of_mem _ hq)
  have hlast := h m.lastQty List.getLastD_mem_cons
  refine ⟨i, ?_, hrounded, hqty, hprice, hrounded.lineTotal_eq ?_⟩
  · rw [line?, hnew]
    exact hi
  · rw [hqty, hprice]
    exact hlast

/-- Lines that are made exactly are all there. -/
theorem exists_lines {makings : List Making} (h : ∀ m ∈ makings, m.Exact) :
    ∃ items, makings.mapM line? = some items ∧ (∀ i ∈ items, i.Rounded) ∧
      List.Forall₂ ShownBy makings items := by
  induction makings with
  | nil => exact ⟨[], rfl, List.forall_mem_nil _, .nil⟩
  | cons m makings ih =>
      obtain ⟨i, hi, hrounded, hshown⟩ := exists_line (h m List.mem_cons_self)
      obtain ⟨items, hitems, hall, hshows⟩ := ih fun m hm => h m (List.mem_cons_of_mem _ hm)
      refine ⟨i :: items, ?_, List.forall_mem_cons.2 ⟨hrounded, hall⟩, .cons hshown hshows⟩
      rw [List.mapM_cons, hi, hitems]
      rfl

end Making
end Item

/-! ### Totals -/

namespace Totals

/-- The exact sum of the amounts of lines. -/
def exactSum (items : List Item) : Rat := (items.map fun i => i.lineTotal.toRat).sum

/-- Every sum on the way to the sum of lines is representable. -/
def SumsFit (items : List Item) : Prop :=
  ∀ earlier, earlier <+: items → Representable (exactSum earlier)

theorem exactSum_eq (items : List Item) :
    exactSum items = ((items.map Item.lineTotal).map Decimal.toRat).sum := by
  rw [List.map_map]
  rfl

theorem sumsFit_iff {items : List Item} : SumsFit items ↔
    ∀ earlier, earlier <+: items.map Item.lineTotal →
      Representable (earlier.map Decimal.toRat).sum := by
  constructor
  · intro h earlier hle
    obtain ⟨is, his, rfl⟩ := List.prefix_map_iff.1 hle
    exact exactSum_eq is ▸ h is his
  · intro h is his
    exact exactSum_eq is ▸ h _ (his.map Item.lineTotal)

/-- The product with the tax rate, a hundredth of that, and the sum with the tax are
representable. -/
structure TaxFits (subtotal vatRate : Rat) : Prop where
  product : Representable (subtotal * vatRate)
  hundredth : Representable (subtotal * vatRate / 100)
  total : Representable (subtotal + nearest 2 (subtotal * vatRate / 100))

/-- Totals that lose nothing: the tax is rounded once, and nothing else. -/
structure Exact (items : List Item) (vatRate : Decimal) (t : Totals) : Prop where
  subtotal : t.subtotal.toRat = exactSum items
  vat : t.vat.toRat = nearest 2 (exactSum items * vatRate.toRat / 100)
  total : t.total.toRat = t.subtotal.toRat + t.vat.toRat

/-- Totals are rounded. -/
structure Rounded (t : Totals) : Prop where
  subtotal : t.subtotal.Tidy 2
  vat : t.vat.Tidy 2
  total : t.total.Tidy 2

variable {items items' : List Item} {vatRate : Decimal} {t t' : Totals}

theorem rounded_of_ofItems (h : ofItems items vatRate = some t) : t.Rounded := by
  obtain ⟨sum, -, h⟩ := Option.bind_eq_some_iff.1 h
  obtain ⟨product, -, h⟩ := Option.bind_eq_some_iff.1 h
  obtain ⟨hundredth, -, h⟩ := Option.bind_eq_some_iff.1 h
  obtain ⟨total, -, h⟩ := Option.bind_eq_some_iff.1 h
  cases h
  exact ⟨Decimal.tidy_roundTo _ (by decide), Decimal.tidy_roundTo _ (by decide),
    Decimal.tidy_roundTo _ (by decide)⟩

theorem hasPlaces_exactSum (hitems : ∀ i ∈ items, i.Rounded) :
    Decimal.HasPlaces 2 (exactSum items) := by
  refine Decimal.HasPlaces.sum fun q hq => ?_
  obtain ⟨i, hi, rfl⟩ := List.mem_map.1 hq
  exact (hitems i hi).tidy_lineTotal.hasPlaces

/-- **The totals of lines are exact**, and there always are some, as long as nothing has to be
rounded on the way. -/
theorem exists_ofItems_eq (hitems : ∀ i ∈ items, i.Rounded) (hsums : SumsFit items)
    (htax : TaxFits (exactSum items) vatRate.toRat) :
    ∃ t, ofItems items vatRate = some t ∧ t.Exact items vatRate := by
  have hhundred : Decimal.hundred.toRat = 100 := by decide +kernel
  obtain ⟨sum, hsum, hvalue⟩ := Decimal.exists_sum_eq (sumsFit_iff.1 hsums)
  rw [← exactSum_eq] at hvalue
  -- the sum has two fraction digits already
  have hsubtotal : sum.roundMoney.toRat = exactSum items := by
    rw [Decimal.toRat_roundMoney, hvalue, (hasPlaces_exactSum hitems).nearest_eq]
  obtain ⟨product, hproduct, hproductValue⟩ := Decimal.exists_mul_eq (a := sum.roundMoney)
    (b := vatRate) (by rw [hsubtotal]; exact htax.product)
  rw [hsubtotal] at hproductValue
  obtain ⟨hundredth, hhundredth, hhundredthValue⟩ := Decimal.exists_div_eq (a := product)
    (b := .hundred) (by rw [hhundred]; decide)
    (by rw [hhundred, hproductValue]; exact htax.hundredth)
  have hvat : hundredth.roundMoney.toRat = nearest 2 (exactSum items * vatRate.toRat / 100) := by
    rw [Decimal.toRat_roundMoney, hhundredthValue, hhundred, hproductValue]
  obtain ⟨total, htotal, htotalValue⟩ := Decimal.exists_add_eq (a := sum.roundMoney)
    (b := hundredth.roundMoney) (by rw [hsubtotal, hvat]; exact htax.total)
  refine ⟨⟨sum.roundMoney, hundredth.roundMoney, total.roundMoney⟩, ?_, hsubtotal, hvat, ?_⟩
  · simp only [ofItems, ofLineTotals, hsum, Option.bind_eq_bind, Option.bind_some, hproduct,
      hhundredth, htotal]
    rfl
  · have hplaces : Decimal.HasPlaces 2 (sum.roundMoney.toRat + hundredth.roundMoney.toRat) :=
      (Decimal.tidy_roundTo sum (by decide)).hasPlaces.add
        (Decimal.tidy_roundTo hundredth (by decide)).hasPlaces
    show total.roundMoney.toRat = _
    rw [Decimal.toRat_roundMoney, htotalValue, hplaces.nearest_eq]

/-- Rounded totals that are exact are known from the sum of the lines. -/
theorem Exact.unique (h : t.Exact items vatRate) (h' : t'.Exact items' vatRate) (ht : t.Rounded)
    (ht' : t'.Rounded) (hsum : exactSum items = exactSum items') : t = t' := by
  have hsubtotal : t.subtotal.toRat = t'.subtotal.toRat := by rw [h.subtotal, h'.subtotal, hsum]
  have hvat : t.vat.toRat = t'.vat.toRat := by rw [h.vat, h'.vat, hsum]
  have htotal : t.total.toRat = t'.total.toRat := by rw [h.total, h'.total, hsubtotal, hvat]
  have heq : t.subtotal = t'.subtotal ∧ t.vat = t'.vat ∧ t.total = t'.total :=
    ⟨ht.subtotal.eq ht'.subtotal (Decimal.toRat_eq_iff.1 hsubtotal),
      ht.vat.eq ht'.vat (Decimal.toRat_eq_iff.1 hvat),
      ht.total.eq ht'.total (Decimal.toRat_eq_iff.1 htotal)⟩
  cases t
  cases t'
  simpa using heq

theorem exactSum_perm (h : items'.Perm items) : exactSum items' = exactSum items :=
  (h.map _).sum_eq

/-- **The totals are the same for every order of the lines** whose sums on the way are
representable. -/
theorem ofItems_eq_of_perm (hitems : ∀ i ∈ items, i.Rounded) (hsums : SumsFit items)
    (htax : TaxFits (exactSum items) vatRate.toRat) :
    ∃ t, t.Exact items vatRate ∧
      ∀ items', items'.Perm items → SumsFit items' → ofItems items' vatRate = some t := by
  obtain ⟨t, ht, hexact⟩ := exists_ofItems_eq hitems hsums htax
  refine ⟨t, hexact, fun items' hperm hsums' => ?_⟩
  have hsum := exactSum_perm hperm
  obtain ⟨t', ht', hexact'⟩ := exists_ofItems_eq (fun i hi => hitems i (hperm.mem_iff.1 hi)) hsums'
    (hsum ▸ htax)
  rw [ht', hexact'.unique hexact (rounded_of_ofItems ht') (rounded_of_ofItems ht) hsum]

end Totals

/-! ### Reports -/

/-- The line of an entry is rounded. -/
theorem Draft.rounded_of_ofEntry {limits : Expression.Limits} {defaults : PriceDefaults}
    {bindings : Bindings} {e : Entry} {answer : Lookup} {d : Draft}
    (h : ofEntry limits defaults bindings e answer = some d) : d.item.Rounded := by
  obtain ⟨i, hprice, rfl⟩ := Option.map_eq_some_iff.1 h
  obtain ⟨_, _, _, hshows, -⟩ := Entry.shows_of_price hprice
  exact hshows.rounded.warnOf _

theorem Draft.rounded_of_tune {d : Draft} {patterns : List Pattern} {policy : Policy} {i : Item}
    (hd : d.item.Rounded) (h : d.tune patterns policy = some i) : i.Rounded := by
  unfold Draft.tune at h
  split at h
  · exact hd.tune h
  · cases h
    exact hd

/-- The quantities and the amounts of a report. -/
def Report.amounts (r : Report) : List Decimal :=
  r.items.flatMap (fun i => [i.qty, i.baseQty, i.unitPrice, i.lineTotal]) ++
    [r.totals.subtotal, r.totals.vat, r.totals.total]

theorem Report.tidy_of_mem_amounts {r : Report} (hitems : ∀ i ∈ r.items, i.Rounded)
    (htotals : r.totals.Rounded) {x : Decimal} (hx : x ∈ r.amounts) : x.Tidy 2 := by
  rcases List.mem_append.1 hx with hx | hx
  · obtain ⟨i, hi, hx⟩ := List.mem_flatMap.1 hx
    have hrounded := hitems i hi
    simp only [List.mem_cons, List.not_mem_nil, or_false] at hx
    rcases hx with rfl | rfl | rfl | rfl
    · exact hrounded.qty
    · exact hrounded.baseQty
    · exact hrounded.unitPrice
    · exact hrounded.tidy_lineTotal
  · simp only [List.mem_cons, List.not_mem_nil, or_false] at hx
    rcases hx with rfl | rfl | rfl
    · exact htotals.subtotal
    · exact htotals.vat
    · exact htotals.total

namespace Service

variable {config : Config} {tenant : TenantId} {key : RuleKey} {bindings : Bindings}
  {profile : String} {w w' : World} {r : Report}

/-- The lines of a report are rounded, and its totals are theirs, in whatever world it is made. -/
theorem exists_parts_of_generate
    (h : (generate config tenant key bindings profile).run.run w = (.ok r, w')) :
    (∀ i ∈ r.items, i.Rounded) ∧ Totals.ofItems r.items r.vatRate = some r.totals := by
  obtain ⟨rule, w₁, -, h⟩ := ExceptT.run_bind_eq_ok h
  obtain ⟨drafts, w₂, hdrafts, h⟩ := ExceptT.run_bind_eq_ok h
  obtain ⟨described, w₃, -, h⟩ := ExceptT.run_bind_eq_ok h
  obtain ⟨patterns, w₄, -, h⟩ := ExceptT.run_bind_eq_ok h
  obtain ⟨items, hitems, h⟩ := Option.bind_eq_some_iff.1 (Action.run_ofDecimal_eq_ok h)
  obtain ⟨totals, htotals, h⟩ := Option.bind_eq_some_iff.1 h
  cases h
  refine ⟨fun i hi => ?_, htotals⟩
  obtain ⟨catalog, w₂', -, -, hrun⟩ :=
    draftAll_run config tenant bindings profile rule.nodup_entries w₁
  rw [hdrafts] at hrun
  obtain ⟨d, hd, htune⟩ := exists_mem_zip (mapM_eq_some_iff.1 hitems).flip hi
  cases hlines : rule.entries.mapM fun e =>
      Draft.ofEntry config.limits config.pricing bindings e (catalog e) with
  | none =>
      rw [hlines] at hrun
      cases hrun
  | some lines =>
      rw [hlines] at hrun
      cases hrun
      obtain ⟨e, -, hentry⟩ := exists_mem_zip (mapM_eq_some_iff.1 hlines).flip
        (List.of_mem_zip hd).2
      exact Draft.rounded_of_tune (Draft.rounded_of_ofEntry hentry) htune

/-- **The amounts of quotes are exact up to rounding.**  Lines whose products are representable are
there, and each amount is the rounded exact product.  If the sums on the way and the amounts of the
tax are representable too, then so are the totals: the subtotal is the exact sum of the lines, the
tax is rounded once from its exact value, and the total is the exact sum of the two; and all orders
of the lines come to the same.  In every report the totals are those of its lines, so all of this
holds of it, and each quantity and amount that is not too large is written with two fraction
digits. -/
theorem amounts_exact :
    (∀ (makings : List Item.Making) (vatRate : Decimal), (∀ m ∈ makings, m.Exact) →
      ∃ items, makings.mapM Item.Making.line? = some items ∧
        List.Forall₂ Item.Making.ShownBy makings items ∧
        (Totals.SumsFit items → Totals.TaxFits (Totals.exactSum items) vatRate.toRat →
          ∃ t, t.Exact items vatRate ∧ ∀ items', items'.Perm items → Totals.SumsFit items' →
            Totals.ofItems items' vatRate = some t)) ∧
    ∀ config tenant key bindings profile w r w',
      (generate config tenant key bindings profile).run.run w = (.ok r, w') →
      Totals.ofItems r.items r.vatRate = some r.totals ∧
      (∀ i ∈ r.items, Representable (i.qty.toRat * i.unitPrice.toRat) →
        i.lineTotal.toRat = nearest 2 (i.qty.toRat * i.unitPrice.toRat)) ∧
      (Totals.SumsFit r.items → Totals.TaxFits (Totals.exactSum r.items) r.vatRate.toRat →
        r.totals.Exact r.items r.vatRate) ∧
      ∀ x ∈ r.amounts, |x.toRat| < Decimal.coeffBound / 100 → x.scale = 2 := by
  constructor
  · intro makings vatRate hexact
    obtain ⟨items, hitems, hrounded, hshown⟩ := Item.Making.exists_lines hexact
    exact ⟨items, hitems, hshown, Totals.ofItems_eq_of_perm hrounded⟩
  · intro config tenant key bindings profile w r w' h
    obtain ⟨hitems, htotals⟩ := exists_parts_of_generate h
    have hrounded := Totals.rounded_of_ofItems htotals
    refine ⟨htotals, fun i hi => (hitems i hi).lineTotal_eq, ?_, ?_⟩
    · intro hsums htax
      obtain ⟨t, ht, hexact⟩ := Totals.exists_ofItems_eq hitems hsums htax
      obtain rfl := Option.some.inj (htotals.symm.trans ht)
      exact hexact
    · intro x hx hsize
      refine (Report.tidy_of_mem_amounts hitems hrounded hx).scale_eq ?_
      simpa using hsize

/-- A line of labor, of which the quantity is set once more, and one of material. -/
def twoLines : List Item.Making := [
  ⟨.labor, "tiling", "Tiling", .ofBits 10005 3 (by decide), "m2", .tenths 455,
    [.ofBits 12345 3 (by decide)]⟩,
  ⟨.material, "tile", "Tile", .whole 3, "m2", .hundredths 1999, []⟩]

/-- Two lines are rounded, and so is their tax; they come to the same the other way round.  A report
with failures has the totals of its lines too. -/
theorem amounts_exact_twoLines :
    (∃ items, twoLines.mapM Item.Making.line? = some items ∧
      items.map Item.lineTotal = [.hundredths 56193, .hundredths 5997] ∧
      Totals.ofItems items (.whole 21) =
        some ⟨.hundredths 62190, .hundredths 13060, .hundredths 75250⟩ ∧
      Totals.ofItems items.reverse (.whole 21) = Totals.ofItems items (.whole 21)) ∧
    ∃ r w', (generate .standard "acme" troubled.key tenSquareMeters "standard").run.run
        troubledWorld = (.ok r, w') ∧
      Totals.ofItems r.items r.vatRate = some r.totals ∧ r.totals.total.scale = 2 := by
  have hexact : ∀ m ∈ twoLines, m.Exact := by
    have hlabor : ∀ qty ∈ [Decimal.ofBits 10005 3 (by decide), .ofBits 12345 3 (by decide)],
        Representable (qty.roundMoney.toRat * (Decimal.tenths 455).roundMoney.toRat) := by
      refine List.forall_mem_cons.2 ⟨⟨4554550, 4, ?_⟩, List.forall_mem_singleton.2 ⟨5619250, 4, ?_⟩⟩
      · decide +kernel
      · decide +kernel
    have hmaterial : ∀ qty ∈ [Decimal.whole 3],
        Representable (qty.roundMoney.toRat * (Decimal.hundredths 1999).roundMoney.toRat) :=
      List.forall_mem_singleton.2 ⟨5997, 2, by decide +kernel⟩
    exact List.forall_mem_cons.2 ⟨hlabor, List.forall_mem_singleton.2 hmaterial⟩
  obtain ⟨items, hitems, -, htotals⟩ := amounts_exact.1 twoLines (.whole 21) hexact
  have hamounts : items.map Item.lineTotal = [.hundredths 56193, .hundredths 5997] := by
    have hmap := congrArg (Option.map (List.map Item.lineTotal)) hitems
    exact Option.some.inj (hmap.symm.trans (by decide +kernel))
  have hsums {is : List Item} {a b : Decimal} (his : is.map Item.lineTotal = [a, b])
      (hsum : Representable (a.toRat + b.toRat)) : Totals.SumsFit is := by
    refine Totals.sumsFit_iff.2 fun earlier hle => ?_
    rw [his] at hle
    rcases List.prefix_cons_iff.1 hle with rfl | ⟨rest, rfl, hrest⟩
    · exact Decimal.representable_toRat .zero
    · rcases List.prefix_cons_iff.1 hrest with rfl | ⟨last, rfl, hlast⟩
      · simpa using Decimal.representable_toRat a
      · obtain rfl := List.prefix_nil.1 hlast
        simpa using hsum
  have hsum : Totals.exactSum items = 62190 / 100 := by
    rw [Totals.exactSum_eq, hamounts]
    decide +kernel
  have htax : Totals.TaxFits (Totals.exactSum items) (Decimal.whole 21).toRat := by
    rw [hsum]
    refine ⟨⟨1305990, 2, ?_⟩, ⟨1305990, 4, ?_⟩, ⟨75250, 2, ?_⟩⟩
    · decide +kernel
    · decide +kernel
    · decide +kernel
  have hreverse : items.reverse.map Item.lineTotal = [.hundredths 5997, .hundredths 56193] := by
    rw [List.map_reverse, hamounts]
    rfl
  obtain ⟨t, -, ht⟩ := htotals (hsums hamounts ⟨62190, 2, by decide +kernel⟩) htax
  have hforth := ht items (.refl items) (hsums hamounts ⟨62190, 2, by decide +kernel⟩)
  have hback := ht items.reverse items.reverse_perm (hsums hreverse ⟨62190, 2, by decide +kernel⟩)
  refine ⟨⟨items, hitems, hamounts, ?_, hback.trans hforth.symm⟩, ?_⟩
  · rw [Totals.ofItems, hamounts]
    decide +kernel
  · have htotal : ((generate .standard "acme" troubled.key tenSquareMeters "standard").run.run
        troubledWorld).1.toOption.map (fun r => r.totals.total) = some (.hundredths 562500) := by
      decide +kernel
    rcases hrun : (generate .standard "acme" troubled.key tenSquareMeters "standard").run.run
      troubledWorld with ⟨_ | r, w'⟩
    · rw [hrun] at htotal
      cases htotal
    · rw [hrun] at htotal
      obtain ⟨htotals, -, -, hscale⟩ := amounts_exact.2 _ _ _ _ _ _ r w' hrun
      refine ⟨r, w', rfl, htotals, hscale _ (by simp [Report.amounts]) ?_⟩
      have htotal : r.totals.total = .hundredths 562500 := Option.some.inj htotal
      rw [htotal]
      decide +kernel

end Service
end Estimating
