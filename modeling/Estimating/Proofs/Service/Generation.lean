/-
Generation where stores may fail.

Any call to a store may fail, and whether it does may change from call to call.  What the catalog
has answered is all that the lines of a report depend on.

* `World.ask_run` — a call that reads, in any world;
* `Service.draftAll_run` — the lines of a rule are those of the answers that the catalog has given;
* `Service.exists_drafts_of_generate` — a report is made of these lines;
* `Service.generate_lines` — **what generation makes of a rule**.
-/
import Estimating.Proofs.Quote.Drafts
import Estimating.Proofs.Results
import Estimating.Service.Operations
import Mathlib.Logic.Function.Basic

set_option autoImplicit false

namespace Estimating

/-! ### Calls in any world -/

namespace World

variable {α : Type}

/-- A call that is not answered changes no store. -/
theorem meetOutage_stores (name : StoreName) (conflict : Option StoreError) (w : World) :
    ((meetOutage name conflict).run w).2.stores = w.stores := by
  unfold meetOutage
  simp only [StateT.run]
  split
  · rfl
  · split
    · split <;> rfl
    · rfl

/-- A call that reads gives what is read or an error, and changes no store. -/
theorem ask_run (name : StoreName) (read : Stores → Except StoreError α) (w : World) :
    ∃ r w', (ask name read).run w = (r, w') ∧ w'.stores = w.stores ∧
      (r = read w.stores ∨ ∃ cause, r = .error cause) := by
  have hstores := meetOutage_stores name none w
  revert hstores
  unfold ask
  rw [StateT.run_bind]
  rcases (meetOutage name none).run w with ⟨cause?, w'⟩
  intro hstores
  cases cause? with
  | none => exact ⟨_, w', rfl, hstores, .inl (congrArg read hstores)⟩
  | some cause => exact ⟨_, w', rfl, hstores, .inr ⟨cause, rfl⟩⟩

end World

theorem Action.run_ofDecimal_eq_ok {α : Type} {w w' : World} {x : Option α} {y : α}
    (h : (ofDecimal x).run.run w = (.ok y, w')) : x = some y := by
  cases x with
  | none => cases h
  | some x =>
      cases h
      rfl

/-! ### Lines -/

namespace Service

variable {config : Config} {tenant : TenantId} {bindings : Bindings} {profile : String}

/-- An answer that the catalog may give for an entry. -/
def MayAnswer (c : Catalog) (tenant : TenantId) (profile : String) (e : Entry) (answer : Lookup) :
    Prop :=
  answer = .ok (rowOf c tenant profile e) ∨ ∃ cause, answer = .error cause

theorem lookUp_run (tenant : TenantId) (profile : String) (e : Entry) (w : World) :
    ∃ answer w', (lookUp tenant profile e).run.run w = (.ok answer, w') ∧ w'.stores = w.stores ∧
      MayAnswer w.stores.catalog tenant profile e answer := by
  obtain ⟨r, w', hrun, hstores, hread⟩ :=
    World.ask_run .catalog (fun s => .ok (rowOf s.catalog tenant profile e)) w
  refine ⟨r, w', ?_, hstores, hread⟩
  show (Except.ok <$> World.ask .catalog _).run w = _
  rw [StateT.run_map, hrun]
  rfl

/-- The line of an entry is that of the answer that the catalog has given. -/
theorem draft_run (config : Config) (tenant : TenantId) (bindings : Bindings) (profile : String)
    (e : Entry) (w : World) :
    ∃ answer w', w'.stores = w.stores ∧ MayAnswer w.stores.catalog tenant profile e answer ∧
      (draft config tenant bindings profile e).run.run w =
        ((Draft.ofEntry config.limits config.pricing bindings e answer).elim
          (.error .overflow) .ok, w') := by
  obtain ⟨answer, w', hrun, hstores, hanswer⟩ := lookUp_run tenant profile e w
  refine ⟨answer, w', hstores, hanswer, ?_⟩
  rw [draft, ExceptT.run_bind_of_ok hrun]
  cases Draft.ofEntry config.limits config.pricing bindings e answer <;> rfl

/-- The lines of entries are those of the answers that the catalog has given. -/
theorem draftAll_run (config : Config) (tenant : TenantId) (bindings : Bindings) (profile : String)
    {es : List Entry} (hnodup : es.Nodup) (w : World) :
    ∃ (catalog : Entry → Lookup) (w' : World), w'.stores = w.stores ∧
      (∀ e, MayAnswer w.stores.catalog tenant profile e (catalog e)) ∧
      (draftAll config tenant bindings profile es).run.run w =
        ((es.mapM fun e => Draft.ofEntry config.limits config.pricing bindings e (catalog e)).elim
          (.error .overflow) .ok, w') := by
  induction es generalizing w with
  | nil =>
      exact ⟨fun e => .ok (rowOf w.stores.catalog tenant profile e), w, rfl, fun e => .inl rfl, rfl⟩
  | cons e es ih =>
      obtain ⟨he, hnodup⟩ := List.nodup_cons.1 hnodup
      obtain ⟨answer, w₁, hstores, hanswer, hrun⟩ :=
        draft_run config tenant bindings profile e w
      obtain ⟨catalog, w₂, hstores', hanswers, hrest⟩ := ih hnodup w₁
      rw [hstores] at hstores' hanswers
      -- the entry is not looked up once more
      obtain ⟨catalog', hself, hother⟩ : ∃ catalog' : Entry → Lookup, catalog' e = answer ∧
          ∀ e', e' ≠ e → catalog' e' = catalog e' :=
        ⟨Function.update catalog e answer, Function.update_self _ _ _,
          fun e' hne => Function.update_of_ne hne _ _⟩
      have hsame : es.mapM (fun e' => Draft.ofEntry config.limits config.pricing bindings e'
          (catalog' e')) = es.mapM fun e' => Draft.ofEntry config.limits config.pricing bindings e'
            (catalog e') :=
        mapM_congr fun e' he' => by rw [hother e' fun heq => he (heq ▸ he')]
      have hanswers' (e' : Entry) :
          MayAnswer w.stores.catalog tenant profile e' (catalog' e') := by
        by_cases heq : e' = e
        · rw [heq, hself]
          exact hanswer
        · rw [hother e' heq]
          exact hanswers e'
      rw [draftAll, List.mapM_cons]
      cases hdraft : Draft.ofEntry config.limits config.pricing bindings e answer with
      | none =>
          refine ⟨catalog', w₁, hstores, hanswers', ?_⟩
          rw [hdraft] at hrun
          rw [ExceptT.run_bind_of_error hrun, List.mapM_cons, hself, hdraft]
          rfl
      | some d =>
          refine ⟨catalog', w₂, hstores', hanswers', ?_⟩
          rw [hdraft] at hrun
          rw [ExceptT.run_bind_of_ok hrun, List.mapM_cons, hself, hdraft, hsame]
          rw [draftAll] at hrest
          cases hdrafts : es.mapM fun e' => Draft.ofEntry config.limits config.pricing bindings e'
              (catalog e') with
          | none =>
              rw [hdrafts] at hrest
              exact ExceptT.run_bind_of_error hrest
          | some ds =>
              rw [hdrafts] at hrest
              exact ExceptT.run_bind_of_ok hrest

/-- Failing calls make no entry dear. -/
theorem affordable_of_mayAnswer {limits : Expression.Limits} {c : Catalog} {e : Entry}
    {answer : Lookup} (h : MayAnswer c tenant profile e answer)
    (hrow : e.Affordable limits bindings (.ok (rowOf c tenant profile e))) :
    e.Affordable limits bindings answer := by
  rcases h with rfl | ⟨cause, rfl⟩
  · exact hrow
  · trivial

theorem findRule_run_stores {key : RuleKey} {w w' : World} {rule : Rule}
    (h : (findRule tenant key).run.run w = (.ok rule, w')) : w'.stores = w.stores := by
  obtain ⟨r, w₁, hrun, hstores, -⟩ :=
    World.ask_run .rules (fun s => .ok (s.rules.get tenant key)) w
  obtain ⟨found, w₂, hask, hfound⟩ := ExceptT.run_bind_eq_ok h
  have heq : (Except.mapError ServiceError.store r, w₁) = (.ok found, w₂) := by
    rw [← hask]
    show _ = (Except.mapError ServiceError.store <$> World.ask .rules _).run w
    rw [StateT.run_map, hrun]
    rfl
  obtain ⟨-, rfl⟩ := Prod.mk.inj heq
  cases found with
  | none => cases hfound
  | some rule' =>
      cases hfound
      exact hstores

/-- A report is made of the lines of its rule. -/
theorem exists_drafts_of_generate {key : RuleKey} {w w₁ w' : World} {rule : Rule} {report : Report}
    (hrule : (findRule tenant key).run.run w = (.ok rule, w₁))
    (h : (generate config tenant key bindings profile).run.run w = (.ok report, w')) :
    ∃ drafts described patterns w₂ w₃ w₄,
      (draftAll config tenant bindings profile rule.entries).run.run w₁ = (.ok drafts, w₂) ∧
      (describe tenant profile).run.run w₂ = (.ok described, w₃) ∧
      (Action.attempt (Learning.ofRule tenant key).run).run.run w₃ = (.ok patterns, w₄) ∧
      report.failures = drafts.flatMap Draft.failures ∧
      tuneAll drafts (patterns.toOption.getD []) config.tuning = some report.items := by
  rw [generate, ExceptT.run_bind_of_ok hrule] at h
  obtain ⟨drafts, w₂, hdrafts, h⟩ := ExceptT.run_bind_eq_ok h
  obtain ⟨described, w₃, hdescribed, h⟩ := ExceptT.run_bind_eq_ok h
  obtain ⟨patterns, w₄, hpatterns, h⟩ := ExceptT.run_bind_eq_ok h
  have hreport := Action.run_ofDecimal_eq_ok h
  obtain ⟨items, hitems, hreport⟩ := Option.bind_eq_some_iff.1 hreport
  obtain ⟨totals, -, hreport⟩ := Option.bind_eq_some_iff.1 hreport
  cases hreport
  exact ⟨drafts, described, patterns, w₂, w₃, w₄, hdrafts, hdescribed, hpatterns, rfl, hitems⟩

/-- A line whose evaluation has failed, as the list of failures tells, stays as it is; any other one
is tuned. -/
theorem forall₂_tune {rule : Rule} {catalog : Entry → Lookup} {drafts : List Draft}
    {patterns : List Pattern} {items : List Item}
    (hdrafts : rule.drafts config.limits config.pricing bindings catalog = some drafts)
    (hitems : tuneAll drafts patterns config.tuning = some items) :
    List.Forall₂ (fun d i =>
      if ∃ f ∈ drafts.flatMap Draft.failures,
          f.stage = .evaluation ∧ f.kind = d.item.kind ∧ f.item = d.item.item then
        i = d.item ∧ i.tuning = .untuned
      else d.item.tune (patternFor patterns d.item.item) config.tuning = some i) drafts items := by
  have hentry : ∀ d ∈ drafts, ∃ e ∈ rule.entries,
      d.Tells config.limits config.pricing bindings e (catalog e) := by
    intro d hd
    obtain ⟨e, hmem, htells⟩ := exists_mem_zip (Rule.forall₂_tells hdrafts).flip hd
    exact ⟨e, (List.of_mem_zip hmem).2, htells⟩
  refine ((List.forall₂_and_left _ _).2 ⟨hentry, mapM_eq_some_iff.1 hitems⟩).imp ?_
  rintro d i ⟨⟨e, he, htells⟩, htune⟩
  have hfailed := Rule.exists_evaluation_failure_iff hdrafts he
  rw [← htells.kind, ← htells.item, ← htells.evaluated] at hfailed
  unfold Draft.tune at htune
  cases hevaluated : d.evaluated with
  | false =>
      rw [hevaluated] at htune
      rw [if_pos (hfailed.2 hevaluated)]
      cases htune
      exact ⟨rfl, htells.untuned⟩
  | true =>
      rw [hevaluated, if_pos rfl] at htune
      rw [if_neg fun h => absurd (hfailed.1 h) (by rw [hevaluated]; decide)]
      exact htune

/-- **What generation makes of a rule.**  Whatever the catalog answers for each entry, a row, none
or an error: as long as no price is too large, there is one line for each entry, labor first and
each section in the order of its items.  It tells of its entry; the failures are told in the same
order; and it is the same line under any other rule and any other answers, if its own entry and its
own answer are the same.  In a world where calls may fail, generation drafts these lines for the
answers that it has got; and its report holds their failures and, of each line whose evaluation has
failed, the line as it is. -/
theorem generate_lines (config : Config) (bindings : Bindings) :
    (∀ (rule : Rule) (catalog : Entry → Lookup),
      (∀ e ∈ rule.entries, e.Affordable config.limits bindings (catalog e)) →
      ∃ drafts, rule.drafts config.limits config.pricing bindings catalog = some drafts) ∧
    (∀ (rule : Rule) (catalog : Entry → Lookup) (drafts : List Draft),
      rule.drafts config.limits config.pricing bindings catalog = some drafts →
      rule.entries.Pairwise Entry.Precedes ∧
      List.Forall₂ (fun e d => d.Tells config.limits config.pricing bindings e (catalog e))
        rule.entries drafts ∧
      (drafts.flatMap Draft.failures).map (fun f => (f.kind, f.item, f.stage)) =
        rule.entries.flatMap (fun e => e.troubles config.limits bindings (catalog e)) ∧
      ∀ (rule' : Rule) (catalog' : Entry → Lookup) (drafts' : List Draft),
        rule'.drafts config.limits config.pricing bindings catalog' = some drafts' →
        ∀ e ∈ rule.entries, e ∈ rule'.entries → catalog e = catalog' e →
          ∃ d, (e, d) ∈ rule.entries.zip drafts ∧ (e, d) ∈ rule'.entries.zip drafts') ∧
    ∀ (tenant : TenantId) (key : RuleKey) (profile : String) (w w₁ : World) (rule : Rule),
      (findRule tenant key).run.run w = (.ok rule, w₁) →
      (∀ e ∈ rule.entries, e.Affordable config.limits bindings
        (.ok (rowOf w.stores.catalog tenant profile e))) →
      ∃ (catalog : Entry → Lookup) (drafts : List Draft) (w₂ : World),
        (∀ e, MayAnswer w.stores.catalog tenant profile e (catalog e)) ∧
        rule.drafts config.limits config.pricing bindings catalog = some drafts ∧
        (draftAll config tenant bindings profile rule.entries).run.run w₁ = (.ok drafts, w₂) ∧
        ∀ report w', (generate config tenant key bindings profile).run.run w = (.ok report, w') →
          report.failures = drafts.flatMap Draft.failures ∧
          ∃ patterns, List.Forall₂ (fun d i =>
            if ∃ f ∈ report.failures,
                f.stage = .evaluation ∧ f.kind = d.item.kind ∧ f.item = d.item.item then
              i = d.item ∧ i.tuning = .untuned
            else d.item.tune (patternFor patterns d.item.item) config.tuning = some i)
            drafts report.items := by
  refine ⟨fun rule catalog h => Option.isSome_iff_exists.1 (Rule.drafts_isSome h _), ?_, ?_⟩
  · intro rule catalog drafts h
    exact ⟨rule.pairwise_entries, Rule.forall₂_tells h, Rule.map_failures h,
      fun rule' catalog' drafts' h' e he he' hsame => Rule.exists_same_line h h' he he' hsame⟩
  · intro tenant key profile w w₁ rule hrule hfits
    have hstores := findRule_run_stores hrule
    obtain ⟨catalog, w₂, -, hanswers, hrun⟩ :=
      draftAll_run config tenant bindings profile rule.nodup_entries w₁
    rw [hstores] at hanswers
    obtain ⟨drafts, hdrafts⟩ := Option.isSome_iff_exists.1 (Rule.drafts_isSome
      (fun e he => affordable_of_mayAnswer (hanswers e) (hfits e he)) config.pricing)
    have hlines : (draftAll config tenant bindings profile rule.entries).run.run w₁ =
        (.ok drafts, w₂) := by
      rw [Rule.drafts] at hdrafts
      rw [hrun, hdrafts]
      rfl
    refine ⟨catalog, drafts, w₂, hanswers, hdrafts, hlines, fun report w' hreport => ?_⟩
    obtain ⟨drafts', described, patterns, w₂', w₃, w₄, hlines', -, -, hfailures, hitems⟩ :=
      exists_drafts_of_generate hrule hreport
    rw [hlines] at hlines'
    cases hlines'
    refine ⟨hfailures, patterns.toOption.getD [], ?_⟩
    rw [hfailures]
    exact forall₂_tune hdrafts hitems

/-- A rule with an expression that has no value. -/
def troubled : Rule where
  tenant := "acme"
  key := ⟨.bathroom, .basic⟩
  labor := Table.ofList [("demolition", "areaM2 / 0"), ("tiling", "areaM2")]
  materials := Table.ofList [("tile", "areaM2 * 2")]
  createdAt := .epoch
  updatedAt := .epoch

/-- The catalog has a price for tiling only, and the first call to it fails. -/
def troubledWorld : World where
  stores := { Stores.empty with
    rules := RuleStore.put ∅ troubled
    catalog := Catalog.putLabor ∅ "acme" "standard" ⟨"tiling", "Tiling", "m2", .whole 450⟩ }
  outage name := if name = .catalog then some ⟨.unavailable, some 1⟩ else none

/-- Ten square meters. -/
def tenSquareMeters : Bindings := Table.ofList [("areaM2", .number (.whole 10))]

/-- One expression fails, one call to the catalog fails, and one item has no price: there are three
failures and three lines. -/
theorem generate_lines_troubled :
    (findRule "acme" troubled.key).run.run troubledWorld = (.ok troubled, troubledWorld) ∧
      (∀ e ∈ troubled.entries, e.Affordable Config.standard.limits tenSquareMeters
        (.ok (rowOf troubledWorld.stores.catalog "acme" "standard" e))) ∧
      ∃ report w', (generate .standard "acme" troubled.key tenSquareMeters "standard").run.run
          troubledWorld = (.ok report, w') ∧
        ∃ catalog drafts, troubled.drafts Config.standard.limits Config.standard.pricing
            tenSquareMeters catalog = some drafts ∧
          report.failures = drafts.flatMap Draft.failures ∧ drafts.length = 3 := by
  have hrule : (findRule "acme" troubled.key).run.run troubledWorld =
      (.ok troubled, troubledWorld) := by rfl
  have hentries : troubled.entries = [⟨.labor, "demolition", "areaM2 / 0"⟩,
      ⟨.labor, "tiling", "areaM2"⟩, ⟨.material, "tile", "areaM2 * 2"⟩] := by decide +kernel
  have hfits : ∀ e ∈ troubled.entries, e.Affordable Config.standard.limits tenSquareMeters
      (.ok (rowOf troubledWorld.stores.catalog "acme" "standard" e)) := by
    have hdemolition : rowOf troubledWorld.stores.catalog "acme" "standard"
        ⟨.labor, "demolition", "areaM2 / 0"⟩ = none := by decide +kernel
    have htiling : rowOf troubledWorld.stores.catalog "acme" "standard"
        ⟨.labor, "tiling", "areaM2"⟩ = some (.labor ⟨"tiling", "Tiling", "m2", .whole 450⟩) := by
      decide +kernel
    have htile : rowOf troubledWorld.stores.catalog "acme" "standard"
        ⟨.material, "tile", "areaM2 * 2"⟩ = none := by decide +kernel
    intro e he
    rw [hentries] at he
    simp only [List.mem_cons, List.not_mem_nil, or_false] at he
    rcases he with rfl | rfl | rfl
    · rw [hdemolition]
      trivial
    · rw [htiling]
      show Option.isSome _ = true
      decide +kernel
    · rw [htile]
      trivial
  have hsome : ((generate .standard "acme" troubled.key tenSquareMeters "standard").run.run
      troubledWorld).1.toOption.isSome := by decide +kernel
  have hlines := generate_lines .standard tenSquareMeters
  obtain ⟨catalog, drafts, -, -, hdrafts, -, hreports⟩ :=
    hlines.2.2 "acme" troubled.key "standard" troubledWorld troubledWorld troubled hrule hfits
  rcases hrun : (generate .standard "acme" troubled.key tenSquareMeters "standard").run.run
    troubledWorld with ⟨_ | report, w'⟩
  · rw [hrun] at hsome
    cases hsome
  · refine ⟨hrule, hfits, report, w', rfl, catalog, drafts, hdrafts,
      (hreports report w' hrun).1, ?_⟩
    rw [← (hlines.2.1 troubled catalog drafts hdrafts).2.1.length_eq, hentries]
    rfl

end Service
end Estimating
