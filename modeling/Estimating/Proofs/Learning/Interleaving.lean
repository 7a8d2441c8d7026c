/-
Recordings on one store, their steps interleaved in any order.

Any number of recordings share a store that is empty at first.  A schedule tells whose turn it is
and what the clock shows; each turn is one step, a read or a write.  A recording may hold a pattern
that others have long overwritten, and then its write is refused: what it holds is either behind the
stored version, or made from what is stored.

* `Sampling.observeAll` — the pattern after several samples;
* `Interleaving`, `Interleaving.step`, `Interleaving.run` — the recordings and their store, one
  turn, and a whole schedule; the successful writes are logged in their order;
* `Interleaving.Turn` — **all that a turn can do**;
* `Interleaving.Sound` — what every turn keeps up, and `Interleaving.sound_run` — so it holds at
  every moment;
* `Interleaving.Pressed` — a recording loses an attempt only to writes of others;
* `Interleaving.saves_run` — **no sample is lost and none counts twice**.
-/
import Estimating.Proofs.Learning.Observation
import Mathlib.Data.List.Induction
import Mathlib.Logic.Function.Basic

set_option autoImplicit false

namespace Estimating

/-! ### Samples one after the other -/

namespace Sampling

/-- The pattern after several samples, of which the first one makes it; it keeps the version that it
is made with. -/
def observeAll (samples : List Sampling) : Option (Option Pattern) :=
  samples.foldlM (fun current s => (s.observe current).map some) none

theorem observeAll_append_singleton (samples : List Sampling) (s : Sampling) :
    observeAll (samples ++ [s]) =
      observeAll samples >>= fun current => (s.observe current).map some := by
  simp [observeAll, List.foldlM_append]

/-- A pattern is there as soon as there is a sample. -/
theorem observeAll_eq_none {samples : List Sampling} (h : observeAll samples = some none) :
    samples = [] := by
  cases samples using List.reverseRecOn with
  | nil => rfl
  | append_singleton samples s =>
      rw [observeAll_append_singleton] at h
      obtain ⟨current, _, h⟩ := Option.bind_eq_some_iff.1 h
      obtain ⟨p, _, h⟩ := Option.map_eq_some_iff.1 h
      cases h

end Sampling

namespace PatternStore

variable {store : PatternStore} {tenant : TenantId} {key : PatternKey} {samples : List Sampling}
  {next : Pattern}

/-- What is stored under a key has been learned from the samples given, and its version counts
them. -/
def Recalls (store : PatternStore) (tenant : TenantId) (key : PatternKey)
    (samples : List Sampling) : Prop :=
  ∃ current, Sampling.observeAll samples = some current ∧
    store.get tenant key = current.map (Pattern.versioned samples.length)

/-- The version counts the samples. -/
theorem Recalls.versionAt_eq (h : store.Recalls tenant key samples) :
    store.versionAt tenant key = samples.length := by
  obtain ⟨current, hall, hget⟩ := h
  unfold versionAt
  rw [hget]
  cases current with
  | none =>
      rw [Sampling.observeAll_eq_none hall]
      rfl
  | some p => rfl

/-- What has been made of the stored pattern is learned from one sample more. -/
theorem Recalls.insert {q : Sampling} (h : store.Recalls q.tenant q.key samples)
    (hplaced : store.Placed) (hnext : q.observe (store.get q.tenant q.key) = some next) :
    Recalls (Std.ExtTreeMap.insert store next.place (next.versioned (samples.length + 1)))
      q.tenant q.key (samples ++ [q]) := by
  have hplace := hplaced.observe hnext
  obtain ⟨current, hall, hget⟩ := h
  have hlength : current = none → samples.length = 0 := by
    rintro rfl
    rw [Sampling.observeAll_eq_none hall]
    rfl
  rw [hget, q.observe_versioned hlength] at hnext
  obtain ⟨learned, hlearned, rfl⟩ := Option.map_eq_some_iff.1 hnext
  refine ⟨some learned, ?_, ?_⟩
  · rw [Sampling.observeAll_append_singleton, hall]
    exact congrArg (Option.map some) hlearned
  · rw [get_insert_versioned, if_pos hplace, List.length_append]
    rfl

/-- A pattern of another key changes nothing. -/
theorem Recalls.insert_of_ne (h : store.Recalls tenant key samples)
    (hne : next.place ≠ ⟨tenant, key⟩) (n : Nat) :
    Recalls (Std.ExtTreeMap.insert store next.place (next.versioned n)) tenant key samples := by
  obtain ⟨current, hall, hget⟩ := h
  exact ⟨current, hall, by rw [get_insert_versioned, if_neg hne, hget]⟩

end PatternStore

/-! ### Turns -/

namespace Recording

/-- Whether the next step is a write. -/
def isWriting : Recording → Bool
  | .writing .. => true
  | _ => false

/-- The clock reading of the sample that the next step saves, if it saves one. -/
def saves? (store : PatternStore) : Recording → Option Timestamp
  | .writing _ next expected =>
    match store.write next expected with
    | .ok _ => some next.updatedAt
    | .error _ => none
  | _ => none

variable {s : Sampling} {store : PatternStore} {n : Nat} {next : Pattern}

theorem step_of_observe_eq_none (h : s.observe (store.get s.tenant s.key) = none) :
    (reading (n + 1)).step s store = (.finished (.error .overflow), store) := by
  rw [step, Sampling.prepare_get, h]
  rfl

theorem step_of_observe_eq_some (h : s.observe (store.get s.tenant s.key) = some next) :
    (reading (n + 1)).step s store =
      (.writing n next (store.versionAt s.tenant s.key), store) := by
  rw [step, Sampling.prepare_get, h]
  rfl

end Recording

/-- Recordings on one store, numbered by `ι`. -/
structure Interleaving (ι : Type) where
  store : PatternStore
  recordings : ι → Recording
  /-- Whose the writes were, the refused ones included. -/
  written : List ι
  /-- The successful writes in their order: whose they were, and when the sample was taken. -/
  saved : List (ι × Timestamp)

namespace Interleaving

variable {ι : Type} [DecidableEq ι] (calls : ι → Sampling)

/-- No recording has begun, and the store is empty. -/
def start : Interleaving ι := ⟨∅, fun i => .start (calls i), [], []⟩

/-- A turn of the recording `turn.1` at the time `turn.2`. -/
def step (s : Interleaving ι) (turn : ι × Timestamp) : Interleaving ι :=
  let r := s.recordings turn.1
  let after := r.step { calls turn.1 with now := turn.2 } s.store
  { store := after.2
    recordings := Function.update s.recordings turn.1 after.1
    written := if r.isWriting then s.written ++ [turn.1] else s.written
    saved := s.saved ++ ((r.saves? s.store).map (turn.1, ·)).toList }

/-- The state after a schedule. -/
def run (schedule : List (ι × Timestamp)) : Interleaving ι :=
  schedule.foldl (step calls) (start calls)

/-- The state in which only the recording `i` has moved. -/
def become (s : Interleaving ι) (i : ι) (r : Recording) : Interleaving ι :=
  { s with recordings := Function.update s.recordings i r }

/-- The version that is stored under the key of the recording `i`. -/
def versionFor (s : Interleaving ι) (i : ι) : Nat :=
  s.store.versionAt (calls i).tenant (calls i).key

/-- What the recording `i` makes at the time `now` of the pattern that is stored under its key. -/
def offer (s : Interleaving ι) (i : ι) (now : Timestamp) : Option Pattern :=
  { calls i with now }.observe (s.store.get (calls i).tenant (calls i).key)

/-- All that a turn of the recording `i` can do. -/
inductive Turn (s : Interleaving ι) (i : ι) : Interleaving ι → Prop
  | rest {result : Except LearningError Pattern} (h : s.recordings i = .finished result) :
      Turn s i s
  | giveUp (h : s.recordings i = .reading 0) :
      Turn s i (s.become i (.finished (.error (calls i).giveUp)))
  | overflow {n : Nat} (h : s.recordings i = .reading (n + 1)) :
      Turn s i (s.become i (.finished (.error .overflow)))
  | read {n : Nat} {next : Pattern} (now : Timestamp) (h : s.recordings i = .reading (n + 1))
      (hnext : s.offer calls i now = some next) :
      Turn s i (s.become i (.writing n next (s.versionFor calls i)))
  | conflict {n expected : Nat} {next : Pattern} (h : s.recordings i = .writing n next expected)
      (hne : s.store.versionAt next.tenant next.key ≠ expected) :
      Turn s i { s.become i (.reading n) with written := s.written ++ [i] }
  | save {n expected : Nat} {next : Pattern} (h : s.recordings i = .writing n next expected)
      (heq : s.store.versionAt next.tenant next.key = expected) :
      Turn s i
        { store := s.store.insert next.place (next.versioned (expected + 1))
          recordings := Function.update s.recordings i
            (.finished (.ok (next.versioned (expected + 1))))
          written := s.written ++ [i]
          saved := s.saved ++ [(i, next.updatedAt)] }

/-- A recording that reads is about to write what it makes of the stored pattern. -/
theorem step_of_offer {s : Interleaving ι} {i : ι} {n : Nat} {now : Timestamp} {next : Pattern}
    (hi : s.recordings i = .reading (n + 1)) (hnext : s.offer calls i now = some next) :
    step calls s (i, now) = s.become i (.writing n next (s.versionFor calls i)) := by
  simp only [step, hi, Recording.step_of_observe_eq_some hnext]
  simp [become, Recording.isWriting, Recording.saves?, versionFor]

theorem turn_step (s : Interleaving ι) (turn : ι × Timestamp) :
    Turn calls s turn.1 (step calls s turn) := by
  obtain ⟨i, now⟩ := turn
  cases hr : s.recordings i with
  | reading n =>
      cases n with
      | zero =>
          have h : step calls s (i, now) = s.become i (.finished (.error (calls i).giveUp)) := by
            simp only [step, hr]
            simp [become, Recording.step, Recording.isWriting, Recording.saves?, Sampling.giveUp]
          rw [h]
          exact .giveUp hr
      | succ n =>
          cases hoffer : s.offer calls i now with
          | none =>
              have h : step calls s (i, now) = s.become i (.finished (.error .overflow)) := by
                simp only [step, hr, Recording.step_of_observe_eq_none hoffer]
                simp [become, Recording.isWriting, Recording.saves?]
              rw [h]
              exact .overflow hr
          | some next =>
              rw [step_of_offer calls hr hoffer]
              exact .read now hr hoffer
  | writing n next expected =>
      by_cases hv : s.store.versionAt next.tenant next.key = expected
      · have hwrite := PatternStore.write_of_versionAt_eq hv
        have h : step calls s (i, now) =
            { store := s.store.insert next.place (next.versioned (expected + 1))
              recordings := Function.update s.recordings i
                (.finished (.ok (next.versioned (expected + 1))))
              written := s.written ++ [i]
              saved := s.saved ++ [(i, next.updatedAt)] } := by
          simp only [step, hr, Recording.step, hwrite]
          simp [Recording.isWriting, Recording.saves?, hwrite]
        rw [h]
        exact .save hr hv
      · have hwrite := PatternStore.write_of_versionAt_ne hv
        have h : step calls s (i, now) =
            { s.become i (.reading n) with written := s.written ++ [i] } := by
          simp only [step, hr, Recording.step, hwrite, Sampling.conclude]
          simp [become, Recording.isWriting, Recording.saves?, hwrite]
        rw [h]
        exact .conflict hr hv
  | finished result =>
      have h : step calls s (i, now) = s := by
        have hupdate : Function.update s.recordings i (.finished result) = s.recordings :=
          Function.update_eq_self_iff.2 hr.symm
        simp only [step, hr, Recording.step, hupdate]
        simp [Recording.isWriting, Recording.saves?]
      rw [h]
      exact .rest hr

/-! ### What every turn keeps up -/

/-- The samples that have been saved under a key, in the order of the writes. -/
def samples (saved : List (ι × Timestamp)) (tenant : TenantId) (key : PatternKey) :
    List Sampling :=
  (saved.map fun e => { calls e.1 with now := e.2 }).filter fun q =>
    decide ((⟨q.tenant, q.key⟩ : Owned PatternKey) = ⟨tenant, key⟩)

omit [DecidableEq ι] in
theorem samples_append (saved new : List (ι × Timestamp)) (tenant : TenantId) (key : PatternKey) :
    samples calls (saved ++ new) tenant key =
      samples calls saved tenant key ++ samples calls new tenant key := by
  rw [samples, List.map_append, List.filter_append]
  rfl

omit [DecidableEq ι] in
/-- A sample counts under its own tenant and key. -/
theorem samples_singleton (i : ι) (now : Timestamp) (tenant : TenantId) (key : PatternKey) :
    samples calls [(i, now)] tenant key =
      if (⟨(calls i).tenant, (calls i).key⟩ : Owned PatternKey) = ⟨tenant, key⟩ then
        [{ calls i with now }] else [] := by
  rw [samples, List.map_singleton, List.filter_cons, List.filter_nil]
  simp only [decide_eq_true_eq]

end Interleaving

namespace Recording

/-- How many writes a recording may still make. -/
def left : Recording → Nat
  | .reading n => n
  | .writing n _ _ => n + 1
  | .finished _ => 0

/-- Whether a recording has been told that its write succeeded. -/
def hasSaved : Recording → Bool
  | .finished (.ok _) => true
  | _ => false

end Recording

namespace Interleaving

variable {ι : Type} [DecidableEq ι] {calls : ι → Sampling} {s s' : Interleaving ι}

/-- What every turn keeps up. -/
structure Sound (calls : ι → Sampling) (s : Interleaving ι) : Prop where
  /-- A pattern is stored under its own tenant and key. -/
  placed : s.store.Placed
  /-- What is stored has been learned from the samples saved, and its version counts them. -/
  learned : ∀ tenant key, ∃ current,
    Sampling.observeAll (samples calls s.saved tenant key) = some current ∧
      s.store.get tenant key =
        current.map (Pattern.versioned (samples calls s.saved tenant key).length)
  /-- A pattern about to be written is behind the stored one, or made from it. -/
  fresh : ∀ i n next expected, s.recordings i = .writing n next expected →
    next.place = ⟨(calls i).tenant, (calls i).key⟩ ∧ expected ≤ s.versionFor calls i ∧
      (expected = s.versionFor calls i → s.offer calls i next.updatedAt = some next)
  /-- Every write uses up an attempt. -/
  attempts : ∀ i, s.written.count i + (s.recordings i).left ≤ (calls i).policy.maxAttempts
  /-- A recording has saved its sample once or not at all, as it has been told. -/
  once : ∀ i, (s.saved.map Prod.fst).count i = if (s.recordings i).hasSaved then 1 else 0

@[simp] theorem recordings_become (i j : ι) (r : Recording) :
    (s.become i r).recordings j = if j = i then r else s.recordings j :=
  Function.update_apply _ _ _ _

/-- The version counts the samples. -/
theorem Sound.versionAt_eq (h : Sound calls s) (tenant : TenantId) (key : PatternKey) :
    s.store.versionAt tenant key = (samples calls s.saved tenant key).length :=
  PatternStore.Recalls.versionAt_eq (h.learned tenant key)

/-- A recording that has not been told of a success has saved nothing. -/
theorem Sound.not_mem_saved (h : Sound calls s) {i : ι} (hi : (s.recordings i).hasSaved = false) :
    i ∉ s.saved.map Prod.fst := by
  rw [← List.count_eq_zero, h.once i, hi]
  rfl

theorem sound_start (calls : ι → Sampling) : Sound calls (start calls) where
  placed := PatternStore.placed_empty
  learned tenant key := ⟨none, rfl, Std.ExtTreeMap.getElem?_empty⟩
  fresh i n next expected h := by cases h
  attempts i := by simp [start, Recording.start, Recording.left]
  once i := by simp [start, Recording.start, Recording.hasSaved]

/-- A turn that saves nothing. -/
theorem Sound.quiet (h : Sound calls s) {i : ι} {r : Recording} {written : List ι}
    (hfresh : ∀ n next expected, r = .writing n next expected →
      next.place = ⟨(calls i).tenant, (calls i).key⟩ ∧ expected ≤ s.versionFor calls i ∧
        (expected = s.versionFor calls i → s.offer calls i next.updatedAt = some next))
    (hwritten : ∀ j ≠ i, written.count j = s.written.count j)
    (hattempts : written.count i + r.left ≤ s.written.count i + (s.recordings i).left)
    (hsaved : r.hasSaved = (s.recordings i).hasSaved) :
    Sound calls { s.become i r with written } where
  placed := h.placed
  learned := h.learned
  fresh j n next expected hj := by
    have hmoved : (s.become i r).recordings j = .writing n next expected := hj
    rw [recordings_become] at hmoved
    by_cases hji : j = i
    · subst hji
      rw [if_pos rfl] at hmoved
      exact hfresh n next expected hmoved
    · rw [if_neg hji] at hmoved
      exact h.fresh j n next expected hmoved
  attempts j := by
    show written.count j + ((s.become i r).recordings j).left ≤ _
    rw [recordings_become]
    by_cases hji : j = i
    · subst hji
      rw [if_pos rfl]
      exact Nat.le_trans hattempts (h.attempts j)
    · rw [if_neg hji, hwritten j hji]
      exact h.attempts j
  once j := by
    have hj := h.once j
    show _ = if ((s.become i r).recordings j).hasSaved then 1 else 0
    rw [recordings_become]
    by_cases hji : j = i
    · subst hji
      rw [if_pos rfl, hsaved]
      exact hj
    · rw [if_neg hji]
      exact hj

/-- A turn that saves a sample. -/
theorem Sound.save (h : Sound calls s) {i : ι} {n expected : Nat} {next : Pattern}
    (hi : s.recordings i = .writing n next expected)
    (heq : s.store.versionAt next.tenant next.key = expected) :
    Sound calls
      { store := s.store.insert next.place (next.versioned (expected + 1))
        recordings := Function.update s.recordings i
          (.finished (.ok (next.versioned (expected + 1))))
        written := s.written ++ [i]
        saved := s.saved ++ [(i, next.updatedAt)] } := by
  obtain ⟨hplace, -, hoffer⟩ := h.fresh i n next expected hi
  obtain ⟨htenant, hkey⟩ := Owned.mk.inj hplace
  have hversion : expected = s.versionFor calls i := by
    rw [← heq, versionFor, ← htenant, ← hkey]
  have hcount : expected = (samples calls s.saved (calls i).tenant (calls i).key).length := by
    rw [hversion, versionFor, h.versionAt_eq]
  refine ⟨h.placed.insert next _, ?learned, ?fresh, ?attempts, ?once⟩
  case learned =>
    intro tenant key
    have hlearned : s.store.Recalls tenant key (samples calls s.saved tenant key) :=
      h.learned tenant key
    show PatternStore.Recalls _ tenant key (samples calls (s.saved ++ _) tenant key)
    rw [samples_append, samples_singleton, ← hplace]
    by_cases hk : next.place = ⟨tenant, key⟩
    · obtain ⟨rfl, rfl⟩ := Owned.mk.inj (hplace.symm.trans hk)
      rw [if_pos hk, hcount]
      exact hlearned.insert (q := { calls i with now := next.updatedAt }) h.placed (hoffer hversion)
    · rw [if_neg hk, List.append_nil]
      exact hlearned.insert_of_ne hk _
  case fresh =>
    -- what another recording holds for this key is behind from now on
    intro j n' next' expected' hj
    have hji : j ≠ i := by
      rintro rfl
      simp at hj
    obtain ⟨hplace', hle, hoffer'⟩ := h.fresh j n' next' expected' (by simpa [hji] using hj)
    refine ⟨hplace', ?_⟩
    have hget :=
      PatternStore.get_insert_versioned s.store next (expected + 1) (calls j).tenant (calls j).key
    simp only [versionFor, offer, PatternStore.versionAt, hget]
    by_cases hk : next.place = ⟨(calls j).tenant, (calls j).key⟩
    · obtain ⟨ht, hk'⟩ := Owned.mk.inj (hplace.symm.trans hk)
      have hsame : s.versionFor calls j = expected := by
        rw [hversion, versionFor, versionFor, ht, hk']
      simp only [if_pos hk, Pattern.versioned]
      exact ⟨by omega, fun h => by omega⟩
    · simp only [if_neg hk]
      exact ⟨hle, hoffer'⟩
  case attempts =>
    intro j
    have hj := h.attempts j
    show (s.written ++ [i]).count j + (Function.update s.recordings i _ j).left ≤ _
    rw [List.count_append, Function.update_apply]
    by_cases hji : j = i
    · subst hji
      rw [hi] at hj
      simp only [List.count_singleton_self, if_true, Recording.left] at hj ⊢
      omega
    · simpa [hji, List.count_singleton, Ne.symm hji] using hj
  case once =>
    intro j
    have hj := h.once j
    show ((s.saved ++ [(i, next.updatedAt)]).map Prod.fst).count j =
      if (Function.update s.recordings i _ j).hasSaved then 1 else 0
    rw [List.map_append, List.count_append, Function.update_apply]
    by_cases hji : j = i
    · subst hji
      rw [hi] at hj
      simp [hj, Recording.hasSaved]
    · simpa [hji, List.count_singleton, Ne.symm hji] using hj

theorem Sound.turn {i : ι} (h : Sound calls s) (ht : Turn calls s i s') : Sound calls s' := by
  cases ht with
  | rest hi => exact h
  | giveUp hi =>
      refine h.quiet nofun (fun _ _ => rfl) ?_ (by simp [hi, Recording.hasSaved])
      simp [hi, Recording.left]
  | overflow hi =>
      refine h.quiet nofun (fun _ _ => rfl) ?_ (by simp [hi, Recording.hasSaved])
      simp [Recording.left]
  | read now hi hnext =>
      refine h.quiet ?_ (fun _ _ => rfl) ?_ (by simp [hi, Recording.hasSaved])
      · intro n next expected heq
        cases heq
        refine ⟨?_, Nat.le_refl _, ?_⟩
        · exact h.placed.observe (s := { calls i with now }) hnext
        intro _
        rw [Sampling.observe_updatedAt hnext]
        exact hnext
      · simp [hi, Recording.left]
  | conflict hi hne =>
      refine h.quiet nofun ?_ ?_ (by simp [hi, Recording.hasSaved])
      · intro j hji
        simp [Ne.symm hji]
      · simp only [List.count_append, List.count_singleton_self, hi, Recording.left]
        omega
  | save hi heq => exact h.save hi heq

/-! ### Whole schedules -/

theorem run_append (schedule more : List (ι × Timestamp)) :
    run calls (schedule ++ more) = more.foldl (step calls) (run calls schedule) := by
  rw [run, List.foldl_append]
  rfl

/-- **At every moment** what is stored has been learned from the samples saved. -/
theorem sound_run (calls : ι → Sampling) (schedule : List (ι × Timestamp)) :
    Sound calls (run calls schedule) := by
  induction schedule using List.reverseRecOn with
  | nil => exact sound_start calls
  | append_singleton schedule turn ih =>
      rw [run_append]
      exact ih.turn (turn_step calls _ turn)

/-- A recording that has had no turn has not begun. -/
theorem recordings_run_of_forall_ne {i : ι} {schedule : List (ι × Timestamp)}
    (h : ∀ turn ∈ schedule, turn.1 ≠ i) :
    (run calls schedule).recordings i = .start (calls i) := by
  induction schedule using List.reverseRecOn with
  | nil => rfl
  | append_singleton schedule turn ih =>
      rw [run_append]
      have hturn : i ≠ turn.1 := (h turn (by simp)).symm
      show Function.update _ _ _ _ = _
      rw [Function.update_of_ne hturn]
      exact ih fun turn hmem => h turn (by simp [hmem])

/-- The log of the writes only grows. -/
theorem exists_saved_append (calls : ι → Sampling) (schedule more : List (ι × Timestamp)) :
    ∃ new, (run calls (schedule ++ more)).saved = (run calls schedule).saved ++ new := by
  induction more using List.reverseRecOn with
  | nil => exact ⟨[], by simp⟩
  | append_singleton more turn ih =>
      obtain ⟨new, hnew⟩ := ih
      rw [← List.append_assoc, run_append]
      exact ⟨_, by
        show (run calls (schedule ++ more)).saved ++ _ = _
        rw [hnew, List.append_assoc]⟩

/-! ### Attempts lost -/

/-- A recording that has begun at the version `base` has lost no more attempts than the version has
grown by since.  Before a write the version is the expected one, and the attempt is not lost yet. -/
def Pressed (calls : ι → Sampling) (base : Nat) (s : Interleaving ι) (i : ι) : Prop :=
  match s.recordings i with
  | .reading n => base + (calls i).policy.maxAttempts ≤ s.versionFor calls i + n
  | .writing n _ expected => base + (calls i).policy.maxAttempts ≤ expected + (n + 1)
  | .finished (.error (.contention ..)) =>
    base + (calls i).policy.maxAttempts ≤ s.versionFor calls i
  | .finished _ => True

/-- Versions only grow. -/
theorem Turn.versionFor_le {i : ι} (h : Sound calls s) (ht : Turn calls s i s') (j : ι) :
    s.versionFor calls j ≤ s'.versionFor calls j := by
  cases ht with
  | rest hi => exact Nat.le_refl _
  | giveUp hi => exact Nat.le_refl _
  | overflow hi => exact Nat.le_refl _
  | read now hi hnext => exact Nat.le_refl _
  | conflict hi hne => exact Nat.le_refl _
  | save hi heq =>
      rw [versionFor, versionFor, h.versionAt_eq, (h.save hi heq).versionAt_eq, samples_append,
        List.length_append]
      exact Nat.le_add_right _ _

theorem Pressed.turn {base : Nat} {i j : ι} (h : Sound calls s) (hp : Pressed calls base s i)
    (ht : Turn calls s j s') : Pressed calls base s' i := by
  have hle := ht.versionFor_le h i
  by_cases hji : i = j
  · subst hji
    cases ht with
    | rest hi => exact hp
    | giveUp hi =>
        simp only [Pressed, hi] at hp
        simp only [Pressed, recordings_become, if_true, Sampling.giveUp]
        exact hp
    | overflow hi => simp [Pressed]
    | read now hi hnext =>
        simp only [Pressed, hi] at hp
        simp only [Pressed, recordings_become, if_true]
        exact hp
    | @conflict n expected next hi hne =>
        -- the version has moved past the expected one
        obtain ⟨hplace, hexp, -⟩ := h.fresh i _ _ _ hi
        obtain ⟨htenant, hkey⟩ := Owned.mk.inj hplace
        rw [htenant, hkey] at hne
        have hlt : expected < s.versionFor calls i := Nat.lt_of_le_of_ne hexp (Ne.symm hne)
        simp only [Pressed, hi] at hp
        simp only [Pressed, recordings_become, if_true]
        show _ ≤ s.versionFor calls i + n
        omega
    | save hi heq => simp [Pressed]
  · have hsame : s'.recordings i = s.recordings i := by
      cases ht <;> simp [hji]
    unfold Pressed at hp ⊢
    rw [hsame]
    split
    · next n hr =>
        simp only [hr] at hp
        omega
    · next n next expected hr =>
        simp only [hr] at hp
        omega
    · next key n hr =>
        simp only [hr] at hp
        omega
    · trivial

theorem pressed_run (calls : ι → Sampling) {i : ι} {schedule : List (ι × Timestamp)}
    (h : ∀ turn ∈ schedule, turn.1 ≠ i) (more : List (ι × Timestamp)) :
    Pressed calls ((run calls schedule).versionFor calls i) (run calls (schedule ++ more)) i := by
  induction more using List.reverseRecOn with
  | nil =>
      rw [List.append_nil, Pressed, recordings_run_of_forall_ne h]
      exact Nat.le_refl _
  | append_singleton more turn ih =>
      rw [← List.append_assoc, run_append]
      exact ih.turn (sound_run calls _) (turn_step calls _ turn)

/-- A recording that has used up its attempts has been beaten by as many writes of others. -/
theorem exists_beaten {i : ι} {schedule more : List (ι × Timestamp)}
    (h : ∀ turn ∈ schedule, turn.1 ≠ i)
    (hend : (run calls (schedule ++ more)).recordings i = .reading 0 ∨
      ∃ key n, (run calls (schedule ++ more)).recordings i =
        .finished (.error (.contention key n))) :
    ∃ new, (run calls (schedule ++ more)).saved = (run calls schedule).saved ++ new ∧
      (calls i).policy.maxAttempts ≤ (new.filter fun e => decide (e.1 ≠ i ∧
        (calls e.1).tenant = (calls i).tenant ∧ (calls e.1).key = (calls i).key)).length := by
  obtain ⟨new, hnew⟩ := exists_saved_append calls schedule more
  have hsound := sound_run calls (schedule ++ more)
  have hpressed := pressed_run calls h more
  have hversion : (run calls schedule).versionFor calls i + (calls i).policy.maxAttempts ≤
      (run calls (schedule ++ more)).versionFor calls i := by
    rcases hend with hend | ⟨key, n, hend⟩
    · simpa only [Pressed, hend, Nat.add_zero] using hpressed
    · simpa only [Pressed, hend, Nat.add_zero] using hpressed
  have hunsaved : i ∉ new.map Prod.fst := by
    have hnone : i ∉ (run calls (schedule ++ more)).saved.map Prod.fst := by
      rcases hend with hend | ⟨key, n, hend⟩
      · exact hsound.not_mem_saved (by rw [hend]; rfl)
      · exact hsound.not_mem_saved (by rw [hend]; rfl)
    rw [hnew, List.map_append] at hnone
    exact fun hmem => hnone (List.mem_append_right _ hmem)
  have hsamples : (samples calls new (calls i).tenant (calls i).key).length =
      (new.filter fun e => decide (e.1 ≠ i ∧
        (calls e.1).tenant = (calls i).tenant ∧ (calls e.1).key = (calls i).key)).length := by
    rw [samples, List.filter_map, List.length_map]
    refine congrArg List.length (List.filter_congr ?_)
    intro e he
    have hne : e.1 ≠ i := fun h => hunsaved (h ▸ List.mem_map_of_mem he)
    simp [hne]
  rw [versionFor, versionFor, hsound.versionAt_eq, (sound_run calls schedule).versionAt_eq, hnew,
    samples_append, List.length_append] at hversion
  exact ⟨new, hnew, by omega⟩

/-- **No sample is lost and none counts twice.**  At every moment, whatever the schedule: what is
stored under a key has been learned from the samples of those recordings whose writes have
succeeded, in the order of the writes, and its version counts them; a recording that has been told
of its success is among them once, any other one is not; no recording makes more writes than it has
attempts; and one that has used them up was beaten as often, since its first turn, by writes of
others under its key. -/
theorem saves_run (calls : ι → Sampling) (schedule : List (ι × Timestamp)) :
    (∀ tenant key, ∃ current,
      Sampling.observeAll (samples calls (run calls schedule).saved tenant key) = some current ∧
      (run calls schedule).store.get tenant key = current.map
        (Pattern.versioned (samples calls (run calls schedule).saved tenant key).length) ∧
      (run calls schedule).store.versionAt tenant key =
        (samples calls (run calls schedule).saved tenant key).length) ∧
    (∀ i p, (run calls schedule).recordings i = .finished (.ok p) →
      ((run calls schedule).saved.map Prod.fst).count i = 1) ∧
    (∀ i, (∀ p, (run calls schedule).recordings i ≠ .finished (.ok p)) →
      i ∉ (run calls schedule).saved.map Prod.fst) ∧
    (∀ i, (run calls schedule).written.count i ≤ (calls i).policy.maxAttempts) ∧
    ∀ before during i, schedule = before ++ during → (∀ turn ∈ before, turn.1 ≠ i) →
      ((run calls schedule).recordings i = .reading 0 ∨
        ∃ key n, (run calls schedule).recordings i = .finished (.error (.contention key n))) →
      ∃ new, (run calls schedule).saved = (run calls before).saved ++ new ∧
        (calls i).policy.maxAttempts ≤ (new.filter fun e => decide (e.1 ≠ i ∧
          (calls e.1).tenant = (calls i).tenant ∧ (calls e.1).key = (calls i).key)).length := by
  have hsound := sound_run calls schedule
  refine ⟨?_, ?_, ?_, ?_, ?_⟩
  · intro tenant key
    obtain ⟨current, hall, hget⟩ := hsound.learned tenant key
    exact ⟨current, hall, hget, hsound.versionAt_eq tenant key⟩
  · intro i p hi
    rw [hsound.once i, hi]
    rfl
  · intro i hi
    refine hsound.not_mem_saved ?_
    unfold Recording.hasSaved
    split
    · next p hp => exact absurd hp (hi p)
    · rfl
  · intro i
    exact Nat.le_trans (Nat.le_add_right _ _) (hsound.attempts i)
  · rintro before during i rfl hbefore hend
    exact exists_beaten hbefore hend

/-- Two recordings under one key, with a single attempt each. -/
def rivals (_ : Bool) : Sampling :=
  ⟨"acme", ⟨⟨.bathroom, .basic⟩, "tiling", by decide +kernel⟩, .one,
    { Policy.standard with maxAttempts := 1 }, .epoch⟩

/-- A schedule in which both read before one of them writes. -/
def closeRace : List (Bool × Timestamp) :=
  [(true, .epoch), (false, .epoch), (true, .epoch), (false, .epoch)]

/-- Both rivals find nothing stored, one makes the pattern, and the other one is beaten by it. -/
theorem saves_run_rivals :
    (run rivals closeRace).recordings false = .reading 0 ∧
      ∃ p, (run rivals closeRace).recordings true = .finished (.ok p) ∧
        ((run rivals closeRace).saved.map Prod.fst).count true = 1 ∧
        ∃ new, (run rivals closeRace).saved = [] ++ new ∧
          1 ≤ (new.filter fun e => decide (e.1 ≠ false ∧
            (rivals e.1).tenant = (rivals false).tenant ∧
            (rivals e.1).key = (rivals false).key)).length := by
  have hbeaten : (run rivals closeRace).recordings false = .reading 0 := by rfl
  have hsaved : (run rivals closeRace).recordings true = .finished (.ok _) := rfl
  exact ⟨hbeaten, _, hsaved, (saves_run rivals closeRace).2.1 true _ hsaved,
    (saves_run rivals closeRace).2.2.2.2 [] closeRace false rfl nofun (.inl hbeaten)⟩

end Interleaving
end Estimating
