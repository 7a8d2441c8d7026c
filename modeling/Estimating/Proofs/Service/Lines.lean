/-
What a line of a quote reports where all stores work.

Until there are samples enough for an item, its line reports the value of its expression.  From then
on it reports the product of that value and the learned factor, so a user who corrects the line
corrects the product.

* `Entry.checked_value` — the value of an entry has two fraction digits and is within the limit;
* `PatternStore.patternFor_list` — what has been learned for a rule, looked up by an item, is the
  pattern of the key;
* `Policy.tuned`, `Policy.reported` — the quantity under a factor, and the quantity on a line;
* `Item.tune_reports` — tuning gives this quantity;
* `Service.generate_reports` — **what the line of an entry reports**.
-/
import Estimating.Proofs.Decimal.Rounding
import Estimating.Proofs.Expression.Evaluation
import Estimating.Proofs.Service.Calm
import Estimating.Proofs.Service.Generation

set_option autoImplicit false

namespace Estimating

/-! ### Values -/

/-- The value of an entry has two fraction digits and lies between zero and the largest result. -/
theorem Entry.checked_value {e : Entry} {limits : Expression.Limits} {bindings : Bindings}
    {base : Decimal} (h : e.value limits bindings = .ok base) :
    base.roundMoney = base ∧ .zero ≤ base ∧ base ≤ limits.maxResult := by
  obtain ⟨expression, hcompile, heval⟩ := Except.bind_eq_ok.1 h
  obtain ⟨tokens, -, hcompile⟩ := Except.bind_eq_ok.1 hcompile
  obtain ⟨rpn, -, hcompile⟩ := Except.bind_eq_ok.1 hcompile
  cases hcompile
  obtain ⟨stack, -, heval⟩ := Except.bind_eq_ok.1 heval
  obtain ⟨x, -, hcheck⟩ := Except.bind_eq_ok.1 heval
  obtain ⟨rfl, hlo, hhi⟩ := Expression.checkResult_eq_ok.1 hcheck
  exact ⟨Decimal.roundTo_roundTo x (by decide), hlo, hhi⟩

theorem Entry.roundMoney_value {e : Entry} {limits : Expression.Limits} {bindings : Bindings}
    {base : Decimal} (h : e.value limits bindings = .ok base) : base.roundMoney = base :=
  (checked_value h).1

/-! ### What has been learned for an item -/

theorem Owned.mem_list {κ α : Type} [Ord κ] [Std.TransOrd κ] [Std.LawfulEqOrd κ]
    {t : Table (Owned κ) α} {tenant : TenantId} {a : α} :
    a ∈ list t tenant ↔ ∃ key, t[(⟨tenant, key⟩ : Owned κ)]? = some a := by
  simp only [list, List.mem_map, List.mem_filter, Prod.exists,
    Std.ExtTreeMap.mem_toList_iff_getElem?_eq_some, beq_iff_eq]
  constructor
  · rintro ⟨⟨tenant', key⟩, a, ⟨ha, rfl⟩, rfl⟩
    exact ⟨key, ha⟩
  · rintro ⟨key, ha⟩
    exact ⟨⟨tenant, key⟩, a, ⟨ha, rfl⟩, rfl⟩

/-- What has been learned for a rule, looked up by an item, is the pattern of the key. -/
theorem PatternStore.patternFor_list {store : PatternStore} (hplaced : store.Placed)
    (tenant : TenantId) (key : PatternKey) :
    patternFor ((store.list tenant).filter fun p => p.key.ruleKey == key.ruleKey) key.item =
      store.get tenant key := by
  have hmem {p : Pattern} :
      p ∈ (store.list tenant).filter (fun p => p.key.ruleKey == key.ruleKey) ∧
        p.key.item = key.item ↔ store.get tenant key = some p := by
    simp only [PatternStore.list, List.mem_filter, Owned.mem_list, beq_iff_eq]
    constructor
    · rintro ⟨⟨⟨key', hp⟩, hrule⟩, hitem⟩
      obtain ⟨-, hkey⟩ := Owned.mk.inj (hplaced tenant key' p hp)
      rw [← PatternKey.eq_of_parts hrule hitem, hkey]
      exact hp
    · intro hp
      obtain ⟨-, hkey⟩ := Owned.mk.inj (hplaced tenant key p hp)
      exact ⟨⟨⟨key, hp⟩, by rw [hkey]⟩, by rw [hkey]⟩
  unfold patternFor
  cases hfind : List.find? (fun p => p.key.item == key.item)
    ((store.list tenant).filter fun p => p.key.ruleKey == key.ruleKey) with
  | none =>
      symm
      rw [Option.eq_none_iff_forall_not_mem]
      intro p hp
      obtain ⟨hp, hitem⟩ := hmem.2 hp
      exact absurd (beq_iff_eq.2 hitem) (List.find?_eq_none.1 hfind p hp)
  | some p =>
      have hitem := List.find?_some hfind
      exact (hmem.1 ⟨List.mem_of_find?_eq_some hfind, beq_iff_eq.1 hitem⟩).symm

/-! ### Quantities under a factor -/

namespace Policy

variable (policy : Policy)

/-- A quantity under a factor, if it is a decimal. -/
def tuned (base factor : Decimal) : Option Decimal :=
  (policy.clamp factor).bind fun factor => (base.mul factor).map .roundMoney

/-- The quantity that a line reports for its value, given what has been learned; `none` if it is
too large. -/
def reported (base : Decimal) : Option Pattern → Option Decimal
  | none => some base
  | some p => if policy.minSamples ≤ p.samples then policy.tuned base p.factor else some base

end Policy

namespace Item

variable {i j : Item} {policy : Policy}

/-- The parts of a line that name it. -/
def name (i : Item) : ItemKind × String := (i.kind, i.item)

theorem setQty_eq_some {qty : Decimal} (h : i.setQty qty = some j) :
    j.qty = qty.roundMoney ∧ j.baseQty = i.baseQty ∧ j.name = i.name := by
  obtain ⟨total, -, rfl⟩ := Option.map_eq_some_iff.1 h
  exact ⟨rfl, rfl, rfl⟩

theorem multiply_eq_some {p : Pattern} (h : i.multiply p policy = some j) :
    policy.tuned i.baseQty p.factor = some j.qty ∧ j.name = i.name := by
  obtain ⟨factor, hfactor, h⟩ := Option.bind_eq_some_iff.1 h
  obtain ⟨product, hproduct, h⟩ := Option.bind_eq_some_iff.1 h
  obtain ⟨tuned, htuned, h⟩ := Option.bind_eq_some_iff.1 h
  obtain ⟨hqty, -, hname⟩ := setQty_eq_some htuned
  cases h
  refine ⟨?_, hname⟩
  show policy.tuned i.baseQty p.factor = some tuned.qty
  rw [Policy.tuned, hfactor, Option.bind_some, hproduct, Option.map_some, hqty]

/-- **Tuning gives the quantity that is to be reported**, and the line stays that of its item. -/
theorem tune_reports {pattern : Option Pattern} (hbase : i.baseQty.roundMoney = i.baseQty)
    (h : i.tune pattern policy = some j) :
    policy.reported i.baseQty pattern = some j.qty ∧ j.name = i.name := by
  obtain ⟨plain, hplain, h⟩ := Option.bind_eq_some_iff.1 h
  obtain ⟨hqty, hbaseQty, hname⟩ := setQty_eq_some hplain
  rw [hbase] at hqty
  cases pattern with
  | none =>
      cases h
      exact ⟨congrArg some hqty.symm, hname⟩
  | some p =>
      simp only at h
      unfold Policy.reported
      split at h
      · next henough =>
          obtain ⟨htuned, hname'⟩ := multiply_eq_some h
          simp only [if_pos henough]
          exact ⟨hbaseQty ▸ htuned, hname'.trans hname⟩
      · next hfew =>
          cases h
          simp only [if_neg hfew]
          exact ⟨congrArg some hqty.symm, hname⟩

end Item

/-- A line without a value is left as it is, and any other one reports its value, tuned. -/
theorem Draft.tune_reports {d : Draft} {patterns : List Pattern} {policy : Policy} {i : Item}
    (hbase : d.item.baseQty.roundMoney = d.item.baseQty) (h : d.tune patterns policy = some i) :
    i.name = d.item.name ∧ (d.evaluated = true →
      policy.reported d.item.baseQty (patternFor patterns d.item.item) = some i.qty) := by
  unfold Draft.tune at h
  cases hevaluated : d.evaluated with
  | false =>
      rw [hevaluated] at h
      cases h
      exact ⟨rfl, nofun⟩
  | true =>
      rw [hevaluated, if_pos rfl] at h
      obtain ⟨hqty, hname⟩ := Item.tune_reports hbase h
      exact ⟨hname, fun _ => hqty⟩

/-! ### Lines of a report -/

namespace Service

open World

variable {config : Config} {tenant : TenantId} {profile : String} {s s' : Stores}

/-- Lines that were drafted are those of the answers of some catalog. -/
theorem exists_catalog_of_draftAll {bindings : Bindings} {rule : Rule} {drafts : List Draft}
    {w w' : World} (h : (draftAll config tenant bindings profile rule.entries).run.run w =
      (.ok drafts, w')) :
    ∃ catalog, rule.drafts config.limits config.pricing bindings catalog = some drafts := by
  obtain ⟨catalog, w₁, -, -, hrun⟩ :=
    draftAll_run config tenant bindings profile rule.nodup_entries w
  refine ⟨catalog, ?_⟩
  rw [h] at hrun
  unfold Rule.drafts
  cases hdrafts : rule.entries.mapM fun e =>
      Draft.ofEntry config.limits config.pricing bindings e (catalog e) with
  | none =>
      rw [hdrafts] at hrun
      cases hrun
  | some ds =>
      rw [hdrafts] at hrun
      cases hrun
      rfl

/-- **What the line of an entry reports** is the value of the entry, tuned by the pattern stored. -/
theorem generate_reports (key : PatternKey) {bindings : Bindings} {rule : Rule} {e : Entry}
    {base : Decimal} {report : Report} {line : Item} (hplaced : s.patterns.Placed)
    (hrule : s.rules.get tenant key.ruleKey = some rule) (he : e ∈ rule.entries)
    (hitem : e.item = key.item) (hvalue : e.value config.limits bindings = .ok base)
    (h : Yields (generate config tenant key.ruleKey bindings profile).run s (.ok report) s')
    (hline : report.items.find? (fun i => i.kind == e.kind && i.item == e.item) = some line) :
    config.tuning.reported base (s.patterns.get tenant key) = some line.qty := by
  have hfind : (findRule tenant key.ruleKey).run.run (.of s) = (.ok rule, .of s) := by
    have hask : Yields (Action.ofStore (World.ask .rules fun s =>
        .ok (s.rules.get tenant key.ruleKey))).run s (.ok (some rule)) s := by
      rw [← hrule]
      exact Action.yields_ofStore (yields_ask _ _)
    exact hask.bind (yields_pure rule)
  obtain ⟨drafts, described, patterns, w₂, w₃, w₄, hdrafts, hdescribe, hpatterns, -, hitems⟩ :=
    exists_drafts_of_generate hfind h
  have hreads : Reads (draftAll config tenant bindings profile rule.entries).run :=
    Reads.mapM (reads_draft config tenant bindings profile) _
  obtain rfl := hreads.world_eq hdrafts
  obtain rfl := (reads_describe tenant profile).world_eq hdescribe
  have hpattern : patternFor (patterns.toOption.getD []) key.item = s.patterns.get tenant key := by
    cases hpatterns
    exact PatternStore.patternFor_list hplaced tenant key
  -- the line found comes from an entry of the same kind and item, and there is only one
  obtain ⟨catalog, hdrafts⟩ := exists_catalog_of_draftAll hdrafts
  obtain ⟨d, hd, htune⟩ := exists_mem_zip (mapM_eq_some_iff.1 hitems).flip
    (List.mem_of_find?_eq_some hline)
  have hd := (List.of_mem_zip hd).2
  obtain ⟨e', he', htells⟩ := exists_mem_zip (Rule.forall₂_tells hdrafts).flip hd
  have he' := (List.of_mem_zip he').2
  have hbase : d.item.baseQty.roundMoney = d.item.baseQty := by
    rw [htells.baseQty]
    exact Decimal.roundTo_roundTo _ (by decide)
  obtain ⟨hname, hqty⟩ := Draft.tune_reports hbase htune
  have hsame : (e'.kind, e'.item) = (e.kind, e.item) := by
    have hfound := List.find?_some hline
    simp only [Bool.and_eq_true, beq_iff_eq] at hfound
    rw [← htells.kind, ← htells.item, ← hfound.1, ← hfound.2]
    exact hname.symm
  obtain rfl := Rule.eq_of_mem_entries he' he hsame
  have hvalued : e'.qty config.limits bindings = base := by
    rw [Entry.qty, hvalue]
    rfl
  have hevaluated : d.evaluated = true := by
    rw [htells.evaluated, hvalue]
    rfl
  rw [← hpattern, ← hqty hevaluated, htells.baseQty, hvalued, Entry.roundMoney_value hvalue,
    htells.item, hitem]

end Service
end Estimating
