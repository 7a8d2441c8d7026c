/-
Runs of learning on its own.

Learning is called with two quantities of one item, or told to forget the item.  The service is one
caller, which checks the quantities first; here they are any decimals.  A run begins with stores
that hold nothing and work throughout.

* `Learning.Call`, `Learning.Call.perform` — what learning can be called for;
* `Learning.run`, `Learning.history` — the world after calls, and each call with its result;
* `Learning.edits` — the pairs of quantities recorded under a key since it was last forgotten;
* `Learning.Call.step` — what one call does to the patterns and to the edits;
* `Learning.remembers_run` — **after a run the patterns know of the edits and of no others**.
-/
import Estimating.Proofs.Learning.History

set_option autoImplicit false

namespace Estimating.Learning

open Service World

/-! ### Calls -/

/-- What learning can be called for. -/
inductive Call
  | record (tenant : TenantId) (key : PatternKey) (old new : Decimal) (now : Timestamp)
  | forget (tenant : TenantId) (key : PatternKey)

namespace Call

/-- Makes a call. -/
def perform (policy : Policy) : Call → Step Unit
  | record tenant key old new now =>
    (fun _ => ()) <$> Learning.record policy tenant key old new now
  | forget tenant key => (fun _ => ()) <$> Learning.forget tenant key

/-- The edits recorded under a key, after a call with this result.  What failed counts for
nothing, and forgetting begins anew. -/
def edits (tenant : TenantId) (key : PatternKey) (es : List Edit) :
    Call → Except LearningError Unit → List Edit
  | record tenant' key' old new _, .ok () =>
    if tenant' = tenant ∧ key' = key then es ++ [(old, new)] else es
  | forget tenant' key', .ok () => if tenant' = tenant ∧ key' = key then [] else es
  | _, .error _ => es

end Call

/-- The world after calls, from a given one. -/
def after (policy : Policy) (w : World) (calls : List Call) : World :=
  calls.foldl (fun w c => ((c.perform policy).run.run w).2) w

/-- Calls with their results, from a given world. -/
def historyFrom (policy : Policy) (w : World) : List Call → List (Call × Except LearningError Unit)
  | [] => []
  | c :: calls =>
    (c, ((c.perform policy).run.run w).1) ::
      historyFrom policy ((c.perform policy).run.run w).2 calls

/-- The world after a run. -/
def run (policy : Policy) (calls : List Call) : World := after policy (.of .empty) calls

/-- The calls of a run with their results. -/
def history (policy : Policy) (calls : List Call) : List (Call × Except LearningError Unit) :=
  historyFrom policy (.of .empty) calls

/-- The edits recorded under a key since it was last forgotten. -/
def edits (tenant : TenantId) (key : PatternKey)
    (seen : List (Call × Except LearningError Unit)) : List Edit :=
  seen.foldl (fun es c => c.1.edits tenant key es c.2) []

/-! ### What a run remembers -/

variable {policy : Policy} {s : Stores}

/-- **What one call does** to the patterns it does to the edits. -/
theorem Call.step (hpolicy : policy.Valid) (hplaced : s.patterns.Placed) (c : Call) :
    ∃ result s', Yields (c.perform policy).run s result s' ∧ s'.patterns.Placed ∧
      ∀ tenant key es, Remembers policy es (s.patterns.get tenant key) →
        Remembers policy (c.edits tenant key es result) (s'.patterns.get tenant key) := by
  cases c with
  | record tenant' key' old new now =>
      rcases record_calm tenant' key' old new now hplaced hpolicy.maxAttempts_ne_zero with
        hover | ⟨sample, next, hsample, hnext, hrecord⟩
      · exact ⟨_, s, hover.map_run _, hplaced, fun _ _ _ h => h⟩
      · refine ⟨_, _, hrecord.map_run _, hplaced.insert next _, ?_⟩
        intro tenant key es h
        exact Remembers.put (q := ⟨tenant', key', sample, policy, now⟩) hpolicy hplaced hsample
          hnext h
  | forget tenant' key' =>
      refine ⟨_, _, (forget_calm tenant' key' s).map_run _,
        hplaced.delete tenant' key', ?_⟩
      exact fun tenant key es h => h.delete tenant' key'

/-- Calls on stores whose patterns know of given edits. -/
theorem remembers_after (hpolicy : policy.Valid) (calls : List Call) :
    ∀ {s : Stores} {es : TenantId → PatternKey → List Edit}, s.patterns.Placed →
      (∀ tenant key, Remembers policy (es tenant key) (s.patterns.get tenant key)) →
      ∃ s', after policy (.of s) calls = .of s' ∧ s'.patterns.Placed ∧
        ∀ tenant key, Remembers policy
          ((historyFrom policy (.of s) calls).foldl (fun es c => c.1.edits tenant key es c.2)
            (es tenant key)) (s'.patterns.get tenant key) := by
  induction calls with
  | nil => exact fun {s} _ hplaced h => ⟨s, rfl, hplaced, h⟩
  | cons c calls ih =>
      intro s es hplaced h
      obtain ⟨result, s₁, hyields, hplaced₁, hstep⟩ := c.step hpolicy hplaced
      have hrun : (c.perform policy).run.run (.of s) = (result, .of s₁) := hyields
      obtain ⟨s', hafter, hplaced', hall⟩ :=
        ih hplaced₁ fun tenant key => hstep tenant key _ (h tenant key)
      refine ⟨s', ?_, hplaced', fun tenant key => ?_⟩
      · rw [after, List.foldl_cons, hrun]
        exact hafter
      · rw [historyFrom, List.foldl_cons, hrun]
        exact hall tenant key

/-- At the beginning there is nothing to know of. -/
theorem remembers_empty (policy : Policy) (tenant : TenantId) (key : PatternKey) :
    Remembers policy [] (Stores.empty.patterns.get tenant key) := by
  have hnone : Stores.empty.patterns.get tenant key = none := Std.ExtTreeMap.getElem?_empty
  rw [hnone]
  rfl

/-- **After a run the patterns know of the edits and of no others.** -/
theorem remembers_run (hpolicy : policy.Valid) (calls : List Call) :
    ∃ s, run policy calls = .of s ∧ s.patterns.Placed ∧
      ∀ tenant key, Remembers policy (edits tenant key (history policy calls))
        (s.patterns.get tenant key) :=
  remembers_after hpolicy calls PatternStore.placed_empty (remembers_empty policy)

end Estimating.Learning
