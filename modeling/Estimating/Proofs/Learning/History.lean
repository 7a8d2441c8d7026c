/-
What has been learned is a function of the corrections that have been learned from.

The state of learning is spread over three stores: quotes are bound to rule keys, corrections are
logged, and patterns are written under versions.  From what is seen of a run one can still tell
every pattern: the corrections under a key since it was last forgotten are all that counts.

* `Event.edits`, `Service.edits` — the pairs of quantities that have been learned from under a key
  since it was last forgotten;
* `Service.Remembers` — a pattern knows of the edits given, or there is none of either;
* `Service.Remembers.step` — an operation changes both alike;
* `Service.patterns_run` — **the patterns after a run**.
-/
import Estimating.Proofs.Learning.Window
import Estimating.Proofs.Service.Run

set_option autoImplicit false

namespace Estimating

/-- A valid configuration has a valid policy. -/
theorem Config.valid_tuning {config : Config} (h : config.fault? = none) : config.tuning.Valid := by
  refine Policy.fault?_eq_none ?_
  unfold fault? at h
  split at h
  · cases h
  · assumption

/-- The old and the new quantity of a correction. -/
abbrev Edit := Decimal × Decimal

/-- The edits learned under a key, after what has been seen: a correction that was told to have been
learned counts under the rule key that its quote was bound to, and forgetting begins anew. -/
def Event.edits (tenant : TenantId) (key : PatternKey) (es : List Edit) (e : Event) : List Edit :=
  match e.op, e.answer with
  | .correct tenant' r _ _, .ok (.outcome (.logged _ (.updated ..))) =>
    if tenant' = tenant ∧ r.item = key.item ∧
        e.before.stores.quotes.get tenant r.quote = some key.ruleKey then
      es ++ [(r.oldQty, r.newQty)]
    else es
  | .forget tenant' key', .ok _ => if tenant' = tenant ∧ key' = key then [] else es
  | _, _ => es

namespace Service

/-- The edits learned under a key since it was last forgotten. -/
def edits (tenant : TenantId) (key : PatternKey) (events : List Event) : List Edit :=
  events.foldl (Event.edits tenant key) []

theorem edits_append_singleton (tenant : TenantId) (key : PatternKey) (events : List Event)
    (e : Event) :
    edits tenant key (events ++ [e]) = Event.edits tenant key (edits tenant key events) e := by
  rw [edits, List.foldl_append]
  rfl

/-- An operation that changes nothing adds nothing to the edits. -/
theorem edits_of_keeps {w : World} {op : Operation} {result : Except ServiceError Answer}
    (h : op.Keeps result) (tenant : TenantId) (key : PatternKey) (es : List Edit) :
    Event.edits tenant key es ⟨w, op, result⟩ = es := by
  cases op with
  | correct tenant' r id now =>
      unfold Event.edits
      split
      · next heq hresult => exact absurd hresult (h _ _)
      · next heq hresult => cases heq
      · rfl
  | forget tenant' key' => exact h.elim
  | _ => rfl

/-- A correction adds nothing to the edits unless it is told to have been learned. -/
theorem edits_of_not_updated (w : World) {tenant' : TenantId} {r : Correction} {id : EntryId}
    {now : Timestamp} {result : Except ServiceError Answer} (tenant : TenantId) (key : PatternKey)
    (es : List Edit)
    (h : ∀ entry factor samples tier,
      result ≠ .ok (.outcome (.logged entry (.updated factor samples tier)))) :
    Event.edits tenant key es ⟨w, .correct tenant' r id now, result⟩ = es := by
  unfold Event.edits
  split
  · next heq hresult => exact absurd hresult (h _ _ _ _)
  · next heq hresult => cases heq
  · rfl

/-- The pattern, if there is one, knows of the edits and of no other. -/
def Remembers (policy : Policy) (es : List Edit) : Option Pattern → Prop
  | none => es = []
  | some p => es ≠ [] ∧ ∃ samples, (es.map fun e => policy.sample e.1 e.2) = samples.map some ∧
    p.Learned policy samples

variable {config : Config} {s s' : Stores}

/-- One edit more makes the pattern that is written. -/
theorem Remembers.learn {q : Sampling} {es : List Edit} {old new : Decimal} {next : Pattern}
    (hpolicy : q.policy.Valid) (hsample : q.policy.clamp (changeFactor old new) = some q.sample)
    (h : Remembers q.policy es (s.patterns.get q.tenant q.key))
    (hnext : q.observe (s.patterns.get q.tenant q.key) = some next) :
    Remembers q.policy (es ++ [(old, new)])
      (some (next.versioned (s.patterns.versionAt q.tenant q.key + 1))) := by
  have hlast : q.policy.sample old new = some q.sample.roundFactor := by
    rw [Policy.sample, hsample]
    rfl
  refine ⟨by simp, ?_⟩
  unfold PatternStore.versionAt
  -- the first edit makes a pattern, every other one extends it
  cases hget : s.patterns.get q.tenant q.key with
  | none =>
      rw [hget] at h hnext
      obtain rfl : es = [] := h
      refine ⟨[q.sample.roundFactor], ?_, Pattern.learned_of_seed hpolicy hsample hnext⟩
      simp [hlast]
  | some p =>
      rw [hget] at h hnext
      obtain ⟨-, samples, hsamples, hlearned⟩ := h
      refine ⟨samples ++ [q.sample.roundFactor], ?_, hlearned.extend hpolicy hnext⟩
      rw [List.map_append, List.map_append, hsamples]
      simp [hlast]

/-- One sample more under one key: what is stored under any key knows of the edits. -/
theorem Remembers.put {q : Sampling} {es : List Edit} {old new : Decimal} {next : Pattern}
    (hpolicy : q.policy.Valid) (hplaced : s.patterns.Placed)
    (hsample : q.policy.clamp (changeFactor old new) = some q.sample)
    (hnext : q.observe (s.patterns.get q.tenant q.key) = some next) {tenant : TenantId}
    {key : PatternKey} (h : Remembers q.policy es (s.patterns.get tenant key)) :
    Remembers q.policy (if q.tenant = tenant ∧ q.key = key then es ++ [(old, new)] else es)
      (PatternStore.get (s.patterns.put next) tenant key) := by
  have hplace : next.place = ⟨q.tenant, q.key⟩ := hplaced.observe hnext
  obtain ⟨htenant, hkey⟩ := Owned.mk.inj hplace
  rw [PatternStore.put, PatternStore.get_insert_versioned, htenant, hkey, hplace]
  by_cases hsame : q.tenant = tenant ∧ q.key = key
  · obtain ⟨rfl, rfl⟩ := hsame
    rw [if_pos ⟨rfl, rfl⟩, if_pos rfl]
    exact h.learn hpolicy hsample hnext
  · rw [if_neg hsame, if_neg fun heq => hsame (Owned.mk.inj heq)]
    exact h

/-- Nothing is known of what has been forgotten. -/
theorem Remembers.delete {policy : Policy} {es : List Edit} (tenant' : TenantId)
    (key' : PatternKey) {tenant : TenantId} {key : PatternKey}
    (h : Remembers policy es (s.patterns.get tenant key)) :
    Remembers policy (if tenant' = tenant ∧ key' = key then [] else es)
      (PatternStore.get (s.patterns.delete tenant' key').1 tenant key) := by
  rw [PatternStore.get_delete]
  by_cases hsame : tenant' = tenant ∧ key' = key
  · rw [if_pos hsame, if_pos hsame]
    rfl
  · rw [if_neg hsame, if_neg hsame]
    exact h

/-- **An operation changes the patterns as it changes the edits.** -/
theorem Remembers.step {op : Operation} {result : Except ServiceError Answer}
    (heffect : Effect config s op result s') (hplaced : s.patterns.Placed)
    (hpolicy : config.tuning.Valid) {tenant : TenantId} {key : PatternKey} {es : List Edit}
    (h : Remembers config.tuning es (s.patterns.get tenant key)) :
    Remembers config.tuning (Event.edits tenant key es ⟨.of s, op, result⟩)
      (s'.patterns.get tenant key) := by
  cases heffect with
  | keep hkeeps =>
      rw [edits_of_keeps hkeeps]
      exact h
  | log hresult =>
      rw [edits_of_not_updated (.of s) tenant key es hresult]
      exact h
  | @learn tenant' r id now key' sample next hrule hitem hsample hnext =>
      -- the rule key of the quote and the item of the correction make one key only
      have hkey : (r.item = key.item ∧ s.quotes.get tenant' r.quote = some key.ruleKey) ↔
          key' = key := by
        constructor
        · rintro ⟨hitem', hrule'⟩
          have hrules := Option.some.inj (hrule.symm.trans hrule')
          exact PatternKey.eq_of_parts hrules (hitem.trans hitem')
        · rintro rfl
          exact ⟨hitem.symm, hrule⟩
      have hput := Remembers.put (q := ⟨tenant', key', sample, config.tuning, now⟩) hpolicy hplaced
        hsample hnext h
      show Remembers _ (if tenant' = tenant ∧ r.item = key.item ∧
          s.quotes.get tenant r.quote = some key.ruleKey then es ++ [(r.oldQty, r.newQty)] else es)
        (PatternStore.get (s.patterns.put next) tenant key)
      have hcond : (tenant' = tenant ∧ r.item = key.item ∧
          s.quotes.get tenant r.quote = some key.ruleKey) ↔ tenant' = tenant ∧ key' = key := by
        rw [← hkey]
        exact and_congr_right fun htenant => by rw [htenant]
      rw [if_congr hcond rfl rfl]
      exact hput
  | forget tenant' key' => exact h.delete tenant' key'
  | _ => exact h

/-- At every moment of a run the patterns know of the edits seen. -/
theorem remembers_run (hconfig : config.tuning.Valid) (tenant : TenantId) (key : PatternKey)
    (ops : List Operation) :
    Remembers config.tuning (edits tenant key (history config ops))
      ((run config ops).stores.patterns.get tenant key) := by
  induction ops using List.reverseRecOn with
  | nil =>
      have hnone : (run config []).stores.patterns.get tenant key = none :=
        Std.ExtTreeMap.getElem?_empty
      rw [hnone]
      rfl
  | append_singleton ops op ih =>
      obtain ⟨s, s', hs, hs', hplaced, heffect⟩ :=
        exists_effect hconfig.maxAttempts_ne_zero ops op
      rw [hs] at ih
      have hstep := Remembers.step heffect hplaced hconfig ih
      rw [history_append_singleton, edits_append_singleton, hs']
      rw [hs] at hstep ⊢
      exact hstep

/-- A correction that is told to have been learned tells the pattern that is stored then. -/
theorem exists_pattern_of_updated (hconfig : config.tuning.Valid) (ops : List Operation)
    {tenant : TenantId} {r : Correction} {id : EntryId} {now : Timestamp} {entry : EntryId}
    {factor : Decimal} {samples : Nat} {tier : Tier}
    (h : (see config (run config ops) (.correct tenant r id now)).answer =
      .ok (.outcome (.logged entry (.updated factor samples tier)))) :
    ∃ key p, (run config ops).stores.quotes.get tenant r.quote = some key.ruleKey ∧
      key.item = r.item ∧
      (run config (ops ++ [.correct tenant r id now])).stores.patterns.get tenant key = some p ∧
      p.factor = factor ∧ p.samples = samples := by
  obtain ⟨s, s', hs, hs', hplaced, heffect⟩ :=
    exists_effect hconfig.maxAttempts_ne_zero ops (.correct tenant r id now)
  rw [h] at heffect
  rw [hs, hs']
  cases heffect with
  | keep hkeeps => exact absurd rfl (hkeeps _ _)
  | log hresult => exact absurd rfl (hresult _ _ _ _)
  | @learn _ _ _ _ key sample next hrule hitem hsample hnext =>
      have hplace : next.place = ⟨tenant, key⟩ := hplaced.observe hnext
      let saved := next.versioned (s.patterns.versionAt next.tenant next.key + 1)
      refine ⟨key, saved, hrule, hitem, ?_, rfl, rfl⟩
      exact (PatternStore.get_insert_versioned ..).trans (if_pos hplace)

/-- **The patterns after a run are a function of the edits learned.**  Under every key there is a
pattern if and only if something has been learned since it was last forgotten.  Then its version is
the number of edits; it counts as many samples, but not more than the window; the samples in the
window are those of the latest edits; and its factor is their median, between the bounds and to
three fraction digits.  What a user is told after a correction is the pattern stored then. -/
theorem patterns_run (config : Config) (hconfig : config.fault? = none) (ops : List Operation) :
    (∀ tenant key,
      ((run config ops).stores.patterns.get tenant key = none ↔
        edits tenant key (history config ops) = []) ∧
      ∀ p, (run config ops).stores.patterns.get tenant key = some p →
        p.version = (edits tenant key (history config ops)).length ∧
        p.samples =
          min (edits tenant key (history config ops)).length config.tuning.maxSamples ∧
        p.recent.map some =
          (Pattern.lastOf config.tuning.windowSize (edits tenant key (history config ops))).map
            (fun e => config.tuning.sample e.1 e.2) ∧
        some p.factor = (median p.recent >>= config.tuning.clamp).map .roundFactor) ∧
    ∀ tenant r id now entry factor samples tier,
      (see config (run config ops) (.correct tenant r id now)).answer =
        .ok (.outcome (.logged entry (.updated factor samples tier))) →
      ∃ key p, (run config ops).stores.quotes.get tenant r.quote = some key.ruleKey ∧
        key.item = r.item ∧
        (run config (ops ++ [.correct tenant r id now])).stores.patterns.get tenant key = some p ∧
        p.factor = factor ∧ p.samples = samples := by
  have hvalid := Config.valid_tuning hconfig
  refine ⟨?_, fun _ _ _ _ _ _ _ _ => exists_pattern_of_updated hvalid ops⟩
  intro tenant key
  have h := remembers_run hvalid tenant key ops
  cases hget : (run config ops).stores.patterns.get tenant key with
  | none =>
      rw [hget] at h
      exact ⟨⟨fun _ => h, fun _ => rfl⟩, nofun⟩
  | some p =>
      rw [hget] at h
      obtain ⟨hne, samples, hsamples, hlearned⟩ := h
      have hlength : samples.length = (edits tenant key (history config ops)).length := by
        rw [← List.length_map (f := some), ← hsamples, List.length_map]
      refine ⟨⟨nofun, fun hnil => absurd hnil hne⟩, ?_⟩
      intro p' hp'
      cases hp'
      refine ⟨hlearned.version.trans hlength, hlength ▸ hlearned.count, ?_, hlearned.factor.symm⟩
      rw [hlearned.recent, ← Pattern.lastOf_map, ← Pattern.lastOf_map, hsamples]

/-- A rule, a quote under it, and a correction of the quote. -/
def firstQuote : List Operation := [
  .putRule ⟨"acme", ⟨.bathroom, .basic⟩, ∅, Table.ofList [("tile", "areaM2")], .epoch, .epoch⟩,
  .issueQuote "acme" "q1" ⟨.bathroom, .basic, .whole 10, false, false, ∅⟩ "standard",
  .correct "acme" (.ofQuantities "q1" .material "tile" (.whole 10) (.whole 11)) default .epoch]

/-- What the correction is about. -/
def tiles : PatternKey := ⟨⟨.bathroom, .basic⟩, "tile", by decide +kernel⟩

/-- The first correction of a quote makes a pattern. -/
theorem patterns_run_firstQuote :
    Config.standard.fault? = none ∧
      edits "acme" tiles (history .standard firstQuote) = [(.whole 10, .whole 11)] ∧
      ∃ p, (run .standard firstQuote).stores.patterns.get "acme" tiles = some p ∧ p.version = 1 ∧
        p.recent.map some = [Policy.standard.sample (.whole 10) (.whole 11)] := by
  have hconfig : Config.standard.fault? = none := by decide
  have hedits : edits "acme" tiles (history .standard firstQuote) =
      [(.whole 10, .whole 11)] := by decide +kernel
  obtain ⟨hnone, hsome⟩ := (patterns_run .standard hconfig firstQuote).1 "acme" tiles
  rw [hedits] at hnone hsome
  cases hget : (run .standard firstQuote).stores.patterns.get "acme" tiles with
  | none => exact absurd (hnone.1 hget) nofun
  | some p =>
      obtain ⟨hversion, -, hrecent, -⟩ := hsome p hget
      exact ⟨hconfig, hedits, p, rfl, hversion, hrecent⟩

end Service
end Estimating
