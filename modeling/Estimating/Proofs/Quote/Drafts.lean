/-
What becomes of the entries of a rule.

Each entry becomes one line, whatever goes wrong with it, and what goes wrong is told in the order
of the entries.  A line depends on its own entry and on the answer of the catalog for it, and on no
other one.

* `Entry.Precedes`, `Rule.pairwise_entries` — the order of the entries; no item is among them twice;
* `Entry.Affordable` — the price of an entry is a decimal, and so is its product with the quantity;
* `Entry.troubles` — what goes wrong with an entry;
* `Draft.Tells`, `Draft.tells` — **what a line tells of its entry**;
* `Rule.drafts`, `Rule.drafts_isSome` — the lines of a rule, and that there are any;
* `Rule.forall₂_tells` — there is one for each entry;
* `Rule.exists_evaluation_failure_iff` — a failed evaluation is found in the list of failures under
  the kind and the name of the item;
* `Rule.exists_same_line` — **a line depends on nothing else**.
-/
import Estimating.Quote.Report
import Mathlib.Data.List.Forall2
import Mathlib.Data.List.Pairwise

set_option autoImplicit false

namespace Estimating

/-! ### The order of entries -/

/-- The order of entries: labor before materials, and each section by its items. -/
def Entry.Precedes (a b : Entry) : Prop :=
  a.kind = .labor ∧ b.kind = .material ∨ a.kind = b.kind ∧ compare a.item b.item = .lt

/-- Entries in order are two different items. -/
theorem Entry.Precedes.ne {a b : Entry} (h : a.Precedes b) :
    (a.kind, a.item) ≠ (b.kind, b.item) := by
  intro heq
  obtain ⟨hkind, hitem⟩ := Prod.mk.inj heq
  rcases h with ⟨ha, hb⟩ | ⟨-, hlt⟩
  · rw [ha, hb] at hkind
    cases hkind
  · rw [hitem, Std.ReflOrd.compare_self] at hlt
    cases hlt

namespace Rule

theorem pairwise_sectionEntries (kind : ItemKind) (items : Table String String) :
    (sectionEntries kind items).Pairwise Entry.Precedes :=
  List.pairwise_map.2 (Std.ExtTreeMap.ordered_keys_toList.imp fun h => .inr ⟨rfl, h⟩)

theorem mem_sectionEntries {kind : ItemKind} {items : Table String String} {e : Entry} :
    e ∈ sectionEntries kind items ↔ e.kind = kind ∧ items[e.item]? = some e.expression := by
  simp only [sectionEntries, List.mem_map, Prod.exists,
    Std.ExtTreeMap.mem_toList_iff_getElem?_eq_some]
  constructor
  · rintro ⟨item, expression, h, rfl⟩
    exact ⟨rfl, h⟩
  · rintro ⟨rfl, h⟩
    exact ⟨e.item, e.expression, h, rfl⟩

/-- Labor comes first, then materials, and each section is in the order of its items. -/
theorem pairwise_entries (r : Rule) : r.entries.Pairwise Entry.Precedes := by
  refine List.pairwise_append.2 ⟨pairwise_sectionEntries _ _, pairwise_sectionEntries _ _, ?_⟩
  intro a ha b hb
  exact .inl ⟨(mem_sectionEntries.1 ha).1, (mem_sectionEntries.1 hb).1⟩

/-- No item is there twice. -/
theorem eq_of_mem_entries {r : Rule} {a b : Entry} (ha : a ∈ r.entries) (hb : b ∈ r.entries)
    (h : (a.kind, a.item) = (b.kind, b.item)) : a = b := by
  by_contra hne
  have hpairs : r.entries.Pairwise fun a b => (a.kind, a.item) ≠ (b.kind, b.item) :=
    r.pairwise_entries.imp Entry.Precedes.ne
  have : Std.Symm fun a b : Entry => (a.kind, a.item) ≠ (b.kind, b.item) := ⟨fun _ _ => Ne.symm⟩
  exact hpairs.forall ha hb hne h

/-- An item of a rule is labor or a material. -/
theorem kind_ne_of_mem {r : Rule} {e : Entry} (he : e ∈ r.entries) : e.kind ≠ .custom := by
  rcases List.mem_append.1 he with he | he
  · rw [(mem_sectionEntries.1 he).1]
    decide
  · rw [(mem_sectionEntries.1 he).1]
    decide

theorem nodup_entries (r : Rule) : r.entries.Nodup :=
  r.pairwise_entries.imp fun h heq => h.ne (by rw [heq])

end Rule

/-! ### Lines -/

namespace Entry

variable (limits : Expression.Limits) (defaults : PriceDefaults) (bindings : Bindings)

/-- The quantity of an entry; nothing if it has no value. -/
def qty (e : Entry) : Decimal := (e.value limits bindings).toOption.getD .zero

/-- The price that a catalog tells is a decimal, and so is its product with the quantity. -/
def Affordable (e : Entry) : Lookup → Prop
  | .ok (some (.labor r)) =>
    ((e.qty limits bindings).roundMoney.mul r.unitPrice.roundMoney).isSome
  | .ok (some (.material m)) =>
    ∃ price, m.unitPrice = some price ∧
      ((e.qty limits bindings).roundMoney.mul price.roundMoney).isSome
  | _ => True

/-- What goes wrong with an entry: its evaluation, if it has no value, and its price, if there is no
row for it. -/
def troubles (e : Entry) (answer : Lookup) : List (ItemKind × String × Stage) :=
  (match e.value limits bindings with
    | .ok _ => []
    | .error _ => [(e.kind, e.item, .evaluation)]) ++
  match answer with
    | .ok (some _) => []
    | _ => [(e.kind, e.item, .pricing)]

end Entry

namespace Item

variable {kind : ItemKind} {item description unit : String} {qty price : Decimal}

theorem build_isSome (h : (qty.roundMoney.mul price.roundMoney).isSome) :
    (build kind item description qty unit price).isSome := by
  rw [build, Option.isSome_map, product?, Option.isSome_map]
  exact h

theorem roundMoney_zero : Decimal.zero.roundMoney = .hundredths 0 := by decide

/-- A line that is free of charge is always there. -/
theorem build_zero_isSome (kind : ItemKind) (item description unit : String) (qty : Decimal) :
    (build kind item description qty unit .zero).isSome := by
  have hzero : (Decimal.hundredths 0).isZero = true := by decide
  refine build_isSome ?_
  rw [roundMoney_zero, Decimal.mul, hzero, Bool.or_true]
  rfl

/-- Nothing costs nothing. -/
theorem product?_zero (price : Decimal) :
    product? (.hundredths 0) price = some (.hundredths 0) := by
  have hzero : (Decimal.hundredths 0).isZero = true := by decide
  rw [product?, Decimal.mul, hzero, Bool.true_or]
  exact congrArg some roundMoney_zero

/-- What a new line shows. -/
structure Shows (kind : ItemKind) (item description : String) (qty : Decimal) (unit : String)
    (price : Decimal) (i : Item) : Prop where
  kind_eq : i.kind = kind
  item_eq : i.item = item
  description_eq : i.description = description
  qty_eq : i.qty = qty.roundMoney
  baseQty_eq : i.baseQty = qty.roundMoney
  unit_eq : i.unit = unit
  unitPrice_eq : i.unitPrice = price.roundMoney
  lineTotal_eq : product? qty.roundMoney price.roundMoney = some i.lineTotal
  confidence_eq : i.confidence = .high
  tuning_eq : i.tuning = .untuned
  warning_eq : i.warning = none

theorem shows_of_build {i : Item} (h : build kind item description qty unit price = some i) :
    Shows kind item description qty unit price i := by
  obtain ⟨lineTotal, htotal, rfl⟩ := Option.map_eq_some_iff.1 h
  exact ⟨rfl, rfl, rfl, rfl, rfl, rfl, rfl, htotal, rfl, rfl, rfl⟩

end Item

/-- An affordable entry has a price. -/
theorem Entry.Affordable.price_isSome {limits : Expression.Limits} {bindings : Bindings}
    {e : Entry} {answer : Lookup} (h : e.Affordable limits bindings answer)
    (defaults : PriceDefaults) : (e.price defaults (e.qty limits bindings) answer).isSome := by
  match answer, h with
  | .ok (some (.labor r)), h => exact Item.build_isSome h
  | .ok (some (.material m)), ⟨price, hprice, h⟩ =>
      rw [Entry.price, hprice]
      exact Item.build_isSome h
  | .ok none, _ => exact Item.build_zero_isSome _ _ _ _ _
  | .error cause, _ => exact Item.build_zero_isSome _ _ _ _ _

/-- A line with a price is a new line of the kind and the item of the entry; without a row it is
free, in the unit that stands in, and described by the item. -/
theorem Entry.shows_of_price {defaults : PriceDefaults} {e : Entry} {qty : Decimal}
    {answer : Lookup} {i : Item} (h : e.price defaults qty answer = some i) :
    ∃ description unit price, i.Shows e.kind e.item description qty unit price ∧
      ((∀ row, answer ≠ .ok (some row)) →
        description = e.item ∧ unit = defaults.unitOf e.kind ∧ price = .zero) := by
  match answer, h with
  | .ok (some (.labor r)), h =>
      exact ⟨_, _, _, Item.shows_of_build h, fun hno => absurd rfl (hno _)⟩
  | .ok (some (.material m)), h =>
      obtain ⟨price, _, h⟩ := Option.bind_eq_some_iff.1 h
      exact ⟨_, _, _, Item.shows_of_build h, fun hno => absurd rfl (hno _)⟩
  | .ok none, h => exact ⟨_, _, _, Item.shows_of_build h, fun _ => ⟨rfl, rfl, rfl⟩⟩
  | .error cause, h => exact ⟨_, _, _, Item.shows_of_build h, fun _ => ⟨rfl, rfl, rfl⟩⟩

namespace Draft

variable (limits : Expression.Limits) (defaults : PriceDefaults) (bindings : Bindings)

/-- What a line tells of its entry. -/
structure Tells (e : Entry) (answer : Lookup) (d : Draft) : Prop where
  kind : d.item.kind = e.kind
  item : d.item.item = e.item
  qty : d.item.qty = (e.qty limits bindings).roundMoney
  baseQty : d.item.baseQty = (e.qty limits bindings).roundMoney
  untuned : d.item.tuning = .untuned
  evaluated : d.evaluated = (e.value limits bindings).isOk
  failures : d.failures.map (fun f => (f.kind, f.item, f.stage)) = e.troubles limits bindings answer
  confident : d.item.confidence = .high ↔ d.failures = []
  unwarned : d.item.warning = none ↔ d.failures = []
  /-- Without a value there is nothing to pay for. -/
  empty : d.evaluated = false → d.item.qty = .hundredths 0 ∧ d.item.baseQty = .hundredths 0 ∧
    d.item.lineTotal = .hundredths 0
  /-- Without a row the line is free of charge. -/
  free : (∀ row, answer ≠ .ok (some row)) → d.item.unitPrice = .hundredths 0 ∧
    d.item.unit = defaults.unitOf e.kind ∧ d.item.description = e.item

variable {limits defaults bindings} {e : Entry} {answer : Lookup}

/-- A warning is there, and the confidence is low, as soon as there is a failure. -/
theorem clean_warnOf {i : Item} (hconfidence : i.confidence = .high) (hwarning : i.warning = none)
    (failures : List Failure) :
    ((i.warnOf failures).confidence = .high ↔ failures = []) ∧
      ((i.warnOf failures).warning = none ↔ failures = []) := by
  cases failures with
  | nil => exact ⟨iff_of_true hconfidence rfl, iff_of_true hwarning rfl⟩
  | cons f fs => exact ⟨iff_of_false nofun nofun, iff_of_false nofun nofun⟩

/-- A warning changes nothing else. -/
theorem warnOf_eq (i : Item) (failures : List Failure) :
    ∃ warning confidence, i.warnOf failures = { i with warning, confidence } := by
  unfold Item.warnOf
  split
  · exact ⟨i.warning, i.confidence, rfl⟩
  · exact ⟨_, _, rfl⟩

theorem map_failures (e : Entry) (answer : Lookup) :
    (e.failures (e.value limits bindings) answer).map (fun f => (f.kind, f.item, f.stage)) =
      e.troubles limits bindings answer := by
  unfold Entry.failures Entry.troubles
  rcases answer with cause | _ | row <;> cases e.value limits bindings <;> rfl

theorem tells_of_price {i : Item} (h : e.price defaults (e.qty limits bindings) answer = some i) :
    Tells limits defaults bindings e answer
      ⟨i.warnOf (e.failures (e.value limits bindings) answer), (e.value limits bindings).isOk,
        e.failures (e.value limits bindings) answer⟩ := by
  obtain ⟨description, unit, price, hshows, hfree⟩ := Entry.shows_of_price h
  obtain ⟨hconfident, hunwarned⟩ := clean_warnOf hshows.confidence_eq hshows.warning_eq
    (e.failures (e.value limits bindings) answer)
  obtain ⟨warning, confidence, hwarn⟩ :=
    warnOf_eq i (e.failures (e.value limits bindings) answer)
  refine ⟨?_, ?_, ?_, ?_, ?_, rfl, map_failures e answer, hconfident, hunwarned,
    fun hvalue => ?_, fun hno => ?_⟩
  · rw [hwarn, ← hshows.kind_eq]
  · rw [hwarn, ← hshows.item_eq]
  · rw [hwarn, ← hshows.qty_eq]
  · rw [hwarn, ← hshows.baseQty_eq]
  · rw [hwarn, ← hshows.tuning_eq]
  · have hqty : e.qty limits bindings = .zero := by
      unfold Entry.qty
      cases hv : e.value limits bindings with
      | error error => rfl
      | ok value =>
          rw [hv] at hvalue
          cases hvalue
    rw [hqty] at hshows
    have htotal := hshows.lineTotal_eq
    rw [Item.roundMoney_zero, Item.product?_zero, Option.some_inj] at htotal
    rw [hwarn]
    exact ⟨hshows.qty_eq.trans Item.roundMoney_zero,
      hshows.baseQty_eq.trans Item.roundMoney_zero, htotal.symm⟩
  · obtain ⟨rfl, rfl, rfl⟩ := hfree hno
    rw [hwarn]
    exact ⟨hshows.unitPrice_eq.trans Item.roundMoney_zero, hshows.unit_eq, hshows.description_eq⟩

/-- **Every line tells of its entry.** -/
theorem tells {d : Draft} (h : ofEntry limits defaults bindings e answer = some d) :
    d.Tells limits defaults bindings e answer := by
  obtain ⟨i, hprice, rfl⟩ := Option.map_eq_some_iff.1 h
  exact tells_of_price hprice

theorem ofEntry_isSome (h : e.Affordable limits bindings answer) (defaults : PriceDefaults) :
    (ofEntry limits defaults bindings e answer).isSome :=
  Option.isSome_map.trans (h.price_isSome defaults)

end Draft

/-! ### All lines of a rule -/

/-- The results of a list of calls, if all of them have one. -/
theorem mapM_eq_some_iff {α β : Type} {f : α → Option β} {xs : List α} : ∀ {ys : List β},
    xs.mapM f = some ys ↔ List.Forall₂ (fun x y => f x = some y) xs ys := by
  induction xs with
  | nil =>
      intro ys
      rw [List.mapM_nil, List.forall₂_nil_left_iff]
      exact Option.some_inj.trans eq_comm
  | cons x xs ih =>
      intro ys
      rw [List.mapM_cons, List.forall₂_cons_left_iff]
      constructor
      · intro h
        obtain ⟨y, hy, h⟩ := Option.bind_eq_some_iff.1 h
        obtain ⟨zs, hzs, h⟩ := Option.bind_eq_some_iff.1 h
        exact ⟨y, zs, hy, ih.1 hzs, (Option.some.inj h).symm⟩
      · rintro ⟨y, zs, hy, hzs, rfl⟩
        rw [hy, ih.2 hzs]
        rfl

theorem mapM_congr {α β : Type} {f g : α → Option β} {xs : List α} (h : ∀ x ∈ xs, f x = g x) :
    xs.mapM f = xs.mapM g := by
  induction xs with
  | nil => rfl
  | cons x xs ih =>
      rw [List.mapM_cons, List.mapM_cons, h x (by simp), ih fun y hy => h y (by simp [hy])]

/-- All calls have a result if and only if each of them has one. -/
theorem isSome_mapM_iff {α β : Type} {f : α → Option β} {xs : List α} :
    (xs.mapM f).isSome ↔ ∀ x ∈ xs, (f x).isSome := by
  induction xs with
  | nil => simp
  | cons x xs ih =>
      rw [List.mapM_cons, List.forall_mem_cons, ← ih]
      cases f x with
      | none => simp
      | some y => cases xs.mapM f <;> simp

/-- Each of the first things stands beside one of the second. -/
theorem exists_mem_zip {α β : Type} {R : α → β → Prop} {xs : List α} {ys : List β}
    (h : List.Forall₂ R xs ys) {x : α} (hx : x ∈ xs) : ∃ y, (x, y) ∈ xs.zip ys ∧ R x y := by
  induction h with
  | nil => cases hx
  | cons hR _ ih =>
      rcases List.mem_cons.1 hx with rfl | hx
      · exact ⟨_, List.mem_cons_self, hR⟩
      · obtain ⟨y, hy, hR⟩ := ih hx
        exact ⟨y, List.mem_cons_of_mem _ hy, hR⟩

theorem Entry.mem_troubles_evaluation {limits : Expression.Limits} {bindings : Bindings}
    {e : Entry} {answer : Lookup} {kind : ItemKind} {item : String} :
    (kind, item, Stage.evaluation) ∈ e.troubles limits bindings answer ↔
      (kind, item) = (e.kind, e.item) ∧ (e.value limits bindings).isOk = false := by
  unfold Entry.troubles
  rcases answer with cause | _ | row <;> cases e.value limits bindings <;>
    simp [Except.isOk, Except.toBool]

namespace Rule

variable (r : Rule) (limits : Expression.Limits) (defaults : PriceDefaults) (bindings : Bindings)
  (catalog : Entry → Lookup)

/-- The lines of a rule, given the answers of a catalog. -/
def drafts : Option (List Draft) :=
  r.entries.mapM fun e => Draft.ofEntry limits defaults bindings e (catalog e)

variable {r limits defaults bindings catalog} {drafts : List Draft}

/-- If all entries are affordable, there are lines. -/
theorem drafts_isSome (h : ∀ e ∈ r.entries, e.Affordable limits bindings (catalog e))
    (defaults : PriceDefaults) : (r.drafts limits defaults bindings catalog).isSome :=
  isSome_mapM_iff.2 fun e he => Draft.ofEntry_isSome (h e he) defaults

/-- There is one line for each entry, in order. -/
theorem forall₂_tells (h : r.drafts limits defaults bindings catalog = some drafts) :
    List.Forall₂ (fun e d => d.Tells limits defaults bindings e (catalog e)) r.entries drafts :=
  (mapM_eq_some_iff.1 h).imp fun _ _ => Draft.tells

/-- What has failed is told in the order of the entries. -/
theorem flatMap_failures (h : r.drafts limits defaults bindings catalog = some drafts) :
    drafts.flatMap Draft.failures =
      r.entries.flatMap fun e => e.failures (e.value limits bindings) (catalog e) := by
  have hall := mapM_eq_some_iff.1 h
  clear h
  generalize r.entries = es at hall
  induction hall with
  | nil => rfl
  | cons h _ ih =>
      obtain ⟨i, -, rfl⟩ := Option.map_eq_some_iff.1 h
      rw [List.flatMap_cons, List.flatMap_cons, ih]

theorem map_failures (h : r.drafts limits defaults bindings catalog = some drafts) :
    (drafts.flatMap Draft.failures).map (fun f => (f.kind, f.item, f.stage)) =
      r.entries.flatMap fun e => e.troubles limits bindings (catalog e) := by
  rw [flatMap_failures h, List.map_flatMap]
  simp only [Draft.map_failures]

/-- A failed evaluation is found under the kind and the name of the item. -/
theorem exists_evaluation_failure_iff
    (h : r.drafts limits defaults bindings catalog = some drafts) {e : Entry}
    (he : e ∈ r.entries) :
    (∃ f ∈ drafts.flatMap Draft.failures,
        f.stage = .evaluation ∧ f.kind = e.kind ∧ f.item = e.item) ↔
      (e.value limits bindings).isOk = false := by
  have hmem : (∃ f ∈ drafts.flatMap Draft.failures,
      f.stage = .evaluation ∧ f.kind = e.kind ∧ f.item = e.item) ↔
      (e.kind, e.item, Stage.evaluation) ∈
        r.entries.flatMap fun e => e.troubles limits bindings (catalog e) := by
    rw [← map_failures h, List.mem_map]
    constructor
    · rintro ⟨f, hf, hstage, hkind, hitem⟩
      exact ⟨f, hf, by rw [hkind, hitem, hstage]⟩
    · rintro ⟨f, hf, heq⟩
      obtain ⟨hkind, hrest⟩ := Prod.mk.inj heq
      obtain ⟨hitem, hstage⟩ := Prod.mk.inj hrest
      exact ⟨f, hf, hstage, hkind, hitem⟩
  rw [hmem, List.mem_flatMap]
  constructor
  · rintro ⟨e', he', htrouble⟩
    obtain ⟨heq, hvalue⟩ := Entry.mem_troubles_evaluation.1 htrouble
    obtain rfl := eq_of_mem_entries he he' heq
    exact hvalue
  · intro hvalue
    exact ⟨e, he, Entry.mem_troubles_evaluation.2 ⟨rfl, hvalue⟩⟩

/-- **The line of an entry depends on nothing else** than its own answer of the catalog: under
another rule that has the entry too it is the same line. -/
theorem exists_same_line {r' : Rule} {catalog' : Entry → Lookup} {drafts' : List Draft}
    (h : r.drafts limits defaults bindings catalog = some drafts)
    (h' : r'.drafts limits defaults bindings catalog' = some drafts') {e : Entry}
    (he : e ∈ r.entries) (he' : e ∈ r'.entries) (hsame : catalog e = catalog' e) :
    ∃ d, (e, d) ∈ r.entries.zip drafts ∧ (e, d) ∈ r'.entries.zip drafts' := by
  obtain ⟨d, hmem, hd⟩ := exists_mem_zip (mapM_eq_some_iff.1 h) he
  obtain ⟨d', hmem', hd'⟩ := exists_mem_zip (mapM_eq_some_iff.1 h') he'
  rw [← hsame, hd] at hd'
  cases hd'
  exact ⟨d, hmem, hmem'⟩

end Rule

end Estimating
