/-
What is learned when a line is corrected to one quantity again and again.

The first quotes report the value of the expression, so all of these corrections make one sample.
Once there are samples enough, a quote reports the product of the value and the factor, and from
then on a correction makes a sample of what is still missing after the factor has been used.

* `Pattern.length_lastOf_lt` — the first entries are the more part of the last ones, too, as long as
  few others have come after them;
* `Service.Remembers.factor_eq`, `Service.Remembers.factor_eq_of_last` — the factor of the first
  samples, and that of the last ones; `Service.Remembers.factor_eq_of_forall` — that of all of them,
  where they are one;
* `Service.Remembers.reported_eq_base`, `Service.Remembers.reported_eq_tuned` — what a line reports
  before and after there are samples enough;
* `Repeated` — the edits that are learned, each made to what the line reports at the time;
* `Config.Settled` — corrections of what is reported under a factor teach nothing else;
* `Repeated.take_eq`, `Repeated.sample_eq` — **the first edits are made to the value**, and **if the
  factor is settled, all edits make one sample**.
-/
import Estimating.Proofs.Learning.History
import Estimating.Proofs.Learning.Median
import Estimating.Proofs.Service.Lines
import Mathlib.Data.List.Count

set_option autoImplicit false

namespace Estimating

/-! ### Windows with a majority -/

/-- Where the first entries are all the same, they are the more part of the last ones too, as long
as few others have come after them. -/
theorem Pattern.length_lastOf_lt {α : Type} [BEq α] [LawfulBEq α] {xs : List α} {a : α}
    {m size : Nat} (hfirst : ∀ x ∈ xs.take m, x = a) (hne : xs ≠ []) (hfew : xs.length < 2 * m)
    (hwindow : 2 * (xs.length - m) < size) :
    (lastOf size xs).length < 2 * (lastOf size xs).count a := by
  have hlength := List.length_pos_iff.2 hne
  unfold lastOf
  have hsplit : xs.drop (xs.length - size) =
      (xs.take m).drop (xs.length - size) ++ xs.drop m := by
    rcases Nat.le_total m xs.length with hm | hm
    · rw [← List.drop_append_of_le_length (by rw [List.length_take]; omega),
        List.take_append_drop]
    · rw [List.take_of_length_le hm, List.drop_eq_nil_of_le hm, List.append_nil]
  have hcount : ((xs.take m).drop (xs.length - size)).count a =
      ((xs.take m).drop (xs.length - size)).length :=
    List.count_eq_length.2 fun x hx => (hfirst x (List.mem_of_mem_drop hx)).symm
  rw [hsplit, List.count_append, hcount]
  simp only [List.length_append, List.length_drop, List.length_take]
  omega

namespace Service.Remembers

variable {policy : Policy} {es : List Edit} {p : Pattern} {factor : Decimal}

theorem ne_nil (h : Remembers policy es (some p)) : es ≠ [] := h.1

/-- The factor is the sample that more than half of the edits in the window make. -/
theorem factor_eq_of_majority (hpolicy : policy.Valid) (h : Remembers policy es (some p))
    {old new : Decimal} (hfactor : policy.sample old new = some factor)
    (hsize : factor.size < 2 ^ 95) {window : List (Option Decimal)}
    (hwindow : window = Pattern.lastOf policy.windowSize (es.map fun e => policy.sample e.1 e.2))
    (hmajority : window.length < 2 * window.count (some factor)) : p.factor = factor := by
  obtain ⟨-, samples, hsamples, hlearned⟩ := h
  refine hlearned.factor_eq hpolicy hfactor hsize (fun x hx => ?_) ?_
  · have hmem := List.mem_map_of_mem (f := some) hx
    rw [← hsamples] at hmem
    obtain ⟨e, -, he⟩ := List.mem_map.1 hmem
    exact ⟨e.1, e.2, he⟩
  · rw [hsamples, Pattern.lastOf_map, ← hlearned.recent] at hwindow
    rw [hwindow, List.length_map,
      List.count_map_of_injective p.recent some (Option.some_injective _)] at hmajority
    exact hmajority

/-- **The factor of the first samples is kept** as long as they are the more part of the window. -/
theorem factor_eq (hpolicy : policy.Valid) (h : Remembers policy es (some p)) {old new : Decimal}
    (hfactor : policy.sample old new = some factor) (hsize : factor.size < 2 ^ 95) {m : Nat}
    (hfirst : ∀ e ∈ es.take m, policy.sample e.1 e.2 = some factor) (hfew : es.length < 2 * m)
    (hwindow : 2 * (es.length - m) < policy.windowSize) : p.factor = factor := by
  refine h.factor_eq_of_majority hpolicy hfactor hsize rfl ?_
  refine Pattern.length_lastOf_lt (m := m) (fun x hx => ?_) ?_ ?_ ?_
  · rw [← List.map_take] at hx
    obtain ⟨e, he, rfl⟩ := List.mem_map.1 hx
    exact hfirst e he
  · simpa using h.ne_nil
  · rwa [List.length_map]
  · rwa [List.length_map]

/-- The factor of edits that all make one sample. -/
theorem factor_eq_of_forall (hpolicy : policy.Valid) (h : Remembers policy es (some p))
    {old new : Decimal} (hfactor : policy.sample old new = some factor)
    (hsize : factor.size < 2 ^ 95) (hall : ∀ e ∈ es, policy.sample e.1 e.2 = some factor) :
    p.factor = factor := by
  have hlength := List.length_pos_iff.2 h.ne_nil
  have hwindow := hpolicy.windowSize_ne_zero
  refine h.factor_eq hpolicy hfactor hsize (m := es.length) ?_ ?_ ?_
  · rwa [List.take_length]
  · omega
  · omega

/-- Once the first edits have left the window, they no longer count. -/
theorem factor_eq_of_last (hpolicy : policy.Valid) (h : Remembers policy es (some p))
    {old new : Decimal} (hfactor : policy.sample old new = some factor)
    (hsize : factor.size < 2 ^ 95) {m : Nat}
    (hlast : ∀ e ∈ es.drop m, policy.sample e.1 e.2 = some factor)
    (hmany : m + policy.windowSize ≤ es.length) : p.factor = factor := by
  have hwindow := hpolicy.windowSize_ne_zero
  have hall : ∀ x ∈ Pattern.lastOf policy.windowSize (es.map fun e => policy.sample e.1 e.2),
      some factor = x := by
    intro x hx
    rw [Pattern.lastOf_map] at hx
    obtain ⟨e, he, rfl⟩ := List.mem_map.1 hx
    refine (hlast e ?_).symm
    have hsplit : es.length - policy.windowSize = m + (es.length - policy.windowSize - m) := by
      omega
    rw [Pattern.lastOf, hsplit, ← List.drop_drop] at he
    exact List.mem_of_mem_drop he
  refine h.factor_eq_of_majority hpolicy hfactor hsize rfl ?_
  rw [List.count_eq_length.2 hall, Pattern.lastOf, List.length_drop, List.length_map]
  omega

/-- How many samples a pattern counts. -/
theorem samples_eq (h : Remembers policy es (some p)) :
    p.samples = min es.length policy.maxSamples := by
  obtain ⟨-, samples, hsamples, hlearned⟩ := h
  have hlength := congrArg List.length hsamples
  simp only [List.length_map] at hlength
  rw [hlearned.count, hlength]

/-- Before there are samples enough, a line reports its value. -/
theorem reported_eq_base {pattern : Option Pattern} (h : Remembers policy es pattern)
    (hfew : es.length < max 1 policy.minSamples) (base : Decimal) :
    policy.reported base pattern = some base := by
  cases pattern with
  | none => rfl
  | some p =>
      have hsome := List.length_pos_iff.2 h.ne_nil
      have hsamples := h.samples_eq
      exact if_neg (by omega)

/-- From then on it reports the product of its value and the factor. -/
theorem reported_eq_tuned {pattern : Option Pattern} (h : Remembers policy es pattern)
    (hmany : max 1 policy.minSamples ≤ es.length) (hreach : policy.minSamples ≤ policy.maxSamples)
    (hfactor : ∀ p, pattern = some p → p.factor = factor) (base : Decimal) :
    policy.reported base pattern = policy.tuned base factor := by
  cases pattern with
  | none =>
      obtain rfl : es = [] := h
      exact absurd hmany (by simp)
  | some p =>
      have hsamples := h.samples_eq
      rw [← hfactor p rfl]
      exact if_pos (by omega)

end Service.Remembers

/-! ### Edits to one quantity -/

/-- The edits that are learned when a line is corrected to one quantity again and again, and the
pattern learned from them.  Each edit is made to what the line reports at the time, and is large
enough to be logged. -/
inductive Repeated (config : Config) (base target : Decimal) : List Edit → Option Pattern → Prop
  | none : Repeated config base target [] none
  | edit {es : List Edit} {before : Option Pattern} {after : Pattern} {qty : Decimal}
      (h : Repeated config base target es before)
      (hqty : config.tuning.reported base before = some qty)
      (hsignificant : config.significance.isSignificant qty target = true)
      (hlearned : Service.Remembers config.tuning (es ++ [(qty, target)]) (some after)) :
      Repeated config base target (es ++ [(qty, target)]) (some after)

/-- Corrections of what is reported under a factor teach nothing else: the factor is never used, or
the corrections are too small to be logged, or they teach the same factor. -/
def Config.Settled (config : Config) (base target factor : Decimal) : Prop :=
  config.tuning.maxSamples < config.tuning.minSamples ∨
    ∀ qty, config.tuning.tuned base factor = some qty →
      config.significance.isSignificant qty target = true →
      config.tuning.sample qty target = some factor

namespace Repeated

variable {config : Config} {base target factor : Decimal} {es : List Edit}
  {pattern : Option Pattern}

theorem remembers (h : Repeated config base target es pattern) :
    Service.Remembers config.tuning es pattern := by
  cases h with
  | none => rfl
  | edit _ _ _ hlearned => exact hlearned

/-- **The first edits are made to the value itself**, as many as there have to be before the factor
is used. -/
theorem take_eq (h : Repeated config base target es pattern) :
    ∀ e ∈ es.take (max 1 config.tuning.minSamples), e = (base, target) := by
  induction h with
  | none => simp
  | @edit es before after qty hbefore hqty _ _ ih =>
      intro e he
      -- as long as there are few, the new edit is one of the first; later ones are none
      rcases Nat.lt_or_ge es.length (max 1 config.tuning.minSamples) with hfew | hmany
      · rw [hbefore.remembers.reported_eq_base hfew, Option.some_inj] at hqty
        rcases List.mem_append.1 (List.mem_of_mem_take he) with he | he
        · exact ih e (by rwa [List.take_of_length_le (Nat.le_of_lt hfew)])
        · rw [List.mem_singleton.1 he, hqty]
      · rw [List.take_append_of_le_length hmany] at he
        exact ih e he

/-- **If a factor is settled, all edits make the same sample.** -/
theorem sample_eq (hpolicy : config.tuning.Valid) (h : Repeated config base target es pattern)
    (hfactor : config.tuning.sample base target = some factor) (hsize : factor.size < 2 ^ 95)
    (hsettled : config.Settled base target factor) :
    ∀ e ∈ es, config.tuning.sample e.1 e.2 = some factor := by
  induction h with
  | none => nofun
  | @edit es before after qty hbefore hqty hsignificant _ ih =>
      intro e he
      rcases List.mem_append.1 he with he | he
      · exact ih e he
      · rw [List.mem_singleton.1 he]
        have hremembers := hbefore.remembers
        cases before with
        | none =>
            cases hqty
            exact hfactor
        | some p =>
            -- all edits so far make one sample, so that is the factor
            have hp : p.factor = factor :=
              hremembers.factor_eq_of_forall hpolicy hfactor hsize ih
            unfold Policy.reported at hqty
            simp only [hp] at hqty
            split at hqty
            · next henough =>
                rcases hsettled with hunreached | hsettled
                · have := hremembers.samples_eq
                  omega
                · exact hsettled qty hqty hsignificant
            · cases hqty
              exact hfactor

/-- **How long the factor of the first edits is kept**: as long as these are the more part of the
window, and for good if it is settled. -/
theorem factor_eq (hpolicy : config.tuning.Valid) {p : Pattern}
    (h : Repeated config base target es (some p))
    (hfactor : config.tuning.sample base target = some factor) (hsize : factor.size < 2 ^ 95)
    (hwhile : es.length < 2 * max 1 config.tuning.minSamples ∧
        2 * (es.length - max 1 config.tuning.minSamples) < config.tuning.windowSize ∨
      config.Settled base target factor) : p.factor = factor := by
  rcases hwhile with ⟨hfew, hwindow⟩ | hsettled
  · refine h.remembers.factor_eq hpolicy hfactor hsize (fun e he => ?_) hfew hwindow
    rw [h.take_eq e he]
    exact hfactor
  · exact h.remembers.factor_eq_of_forall hpolicy hfactor hsize
      (h.sample_eq hpolicy hfactor hsize hsettled)

end Repeated

end Estimating
