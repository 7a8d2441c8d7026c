/-
Forgetting while recordings are under way.

Resets take their turns among the recordings, each as one step: the pattern of a key is gone, and
the next sample under the key makes a new one, whose version begins at one again.  So a recording
that has read the old pattern may find the version that it expects on the new one.  It is told so
only by the count: its write is refused unless exactly as many samples have been saved since the
reset as its copy counts.

* `Move`, `Interleaving.move`, `Interleaving.play` — turns and resets in any order;
* `Interleaving.Orderly` — what every move keeps up, resets included;
* `Interleaving.Stale` — a recording that is about to write what it made of a pattern read before;
* `Interleaving.Undisturbed` — no such recording writes at a moment when the count is its own;
* `Interleaving.Renewed` — what is stored has been learned since the reset alone;
* `Interleaving.play_forget` — **a reset lasts as long as it is undisturbed**, and
  `Interleaving.play_lateWrite` — a run in which it is not.
-/
import Estimating.Proofs.Learning.Interleaving
import Estimating.Proofs.Learning.Median

set_option autoImplicit false

namespace Estimating

/-- What happens next: a turn of a recording, or a reset of a key. -/
inductive Move (ι : Type)
  | turn (i : ι) (now : Timestamp)
  | forget (tenant : TenantId) (key : PatternKey)

namespace Interleaving

variable {ι : Type} [DecidableEq ι]

/-! ### Moves -/

section Moves

variable (calls : ι → Sampling)

/-- A move; a reset removes the pattern of its key. -/
def move (s : Interleaving ι) : Move ι → Interleaving ι
  | .turn i now => step calls s (i, now)
  | .forget tenant key => { s with store := (s.store.delete tenant key).1 }

/-- The state after the moves given, from the state `s`. -/
def playFrom (s : Interleaving ι) (moves : List (Move ι)) : Interleaving ι :=
  moves.foldl (move calls) s

/-- The state after the moves given. -/
def play (moves : List (Move ι)) : Interleaving ι := playFrom calls (start calls) moves

theorem playFrom_append (s : Interleaving ι) (moves more : List (Move ι)) :
    playFrom calls s (moves ++ more) = playFrom calls (playFrom calls s moves) more :=
  List.foldl_append

variable {calls} in
/-- Only its own turns move a recording. -/
theorem recordings_playFrom_of_forall_ne {i : ι} {moves : List (Move ι)}
    (h : ∀ now, .turn i now ∉ moves) :
    ∀ s, (playFrom calls s moves).recordings i = s.recordings i := by
  induction moves with
  | nil => exact fun s => rfl
  | cons m moves ih =>
      intro s
      have hrest : ∀ now, .turn i now ∉ moves := fun now hmem =>
        h now (List.mem_cons_of_mem m hmem)
      show (playFrom calls (move calls s m) moves).recordings i = _
      rw [ih hrest]
      cases m with
      | turn j now =>
          have hne : i ≠ j := by
            rintro rfl
            exact h now List.mem_cons_self
          exact Function.update_of_ne hne _ _
      | forget tenant key => rfl

end Moves

end Interleaving

/-! ### What every move keeps up -/

/-- What a recording is about to write belongs to its key.  If it has read no pattern, it is that of
a first sample. -/
def Recording.Own (s : Sampling) (r : Recording) : Prop :=
  ∀ n next expected, r = .writing n next expected → next.place = ⟨s.tenant, s.key⟩ ∧
    (expected = 0 → { s with now := next.updatedAt }.observe none = some next)

namespace Interleaving

variable {ι : Type} [DecidableEq ι] {calls : ι → Sampling} {s s₀ s' : Interleaving ι}
  {tenant : TenantId} {key : PatternKey}

/-- What every move keeps up, resets included. -/
structure Orderly (calls : ι → Sampling) (s : Interleaving ι) : Prop where
  /-- A pattern is stored under its own tenant and key. -/
  placed : s.store.Placed
  /-- No pattern is stored under the version that stands for none. -/
  versioned : ∀ tenant key p, s.store.get tenant key = some p → p.version ≠ 0
  own : ∀ i, (s.recordings i).Own (calls i)
  /-- A recording has saved its sample once or not at all, as it has been told. -/
  once : ∀ i, (s.saved.map Prod.fst).count i = if (s.recordings i).hasSaved then 1 else 0

theorem orderly_start (calls : ι → Sampling) : Orderly calls (start calls) where
  placed := PatternStore.placed_empty
  versioned tenant key p h := by
    have hnone : PatternStore.get ∅ tenant key = none := Std.ExtTreeMap.getElem?_empty
    rw [start, hnone] at h
    cases h
  own i n next expected h := by cases h
  once i := (sound_start calls).once i

/-- A version of zero stands for no pattern. -/
theorem Orderly.get_eq_none (h : Orderly calls s) (hzero : s.store.versionAt tenant key = 0) :
    s.store.get tenant key = none := by
  unfold PatternStore.versionAt at hzero
  cases hget : s.store.get tenant key with
  | none => rfl
  | some p =>
      rw [hget] at hzero
      exact absurd hzero (h.versioned tenant key p hget)

/-- A turn that saves nothing. -/
theorem Orderly.quiet (h : Orderly calls s) {i : ι} {r : Recording} {written : List ι}
    (hown : r.Own (calls i)) (hsaved : r.hasSaved = (s.recordings i).hasSaved) :
    Orderly calls { s.become i r with written } where
  placed := h.placed
  versioned := h.versioned
  own := (Function.forall_update_iff s.recordings fun j r => r.Own (calls j)).2
    ⟨hown, fun j _ => h.own j⟩
  once := (Function.forall_update_iff s.recordings fun j r =>
      (s.saved.map Prod.fst).count j = if r.hasSaved then 1 else 0).2
    ⟨hsaved ▸ h.once i, fun j _ => h.once j⟩

/-- A turn that saves a sample. -/
theorem Orderly.save (h : Orderly calls s) {i : ι} {n expected : Nat} {next : Pattern}
    (hi : s.recordings i = .writing n next expected) :
    Orderly calls
      { store := s.store.insert next.place (next.versioned (expected + 1))
        recordings := Function.update s.recordings i
          (.finished (.ok (next.versioned (expected + 1))))
        written := s.written ++ [i]
        saved := s.saved ++ [(i, next.updatedAt)] } where
  placed := h.placed.insert next _
  versioned tenant key p hp := by
    rw [PatternStore.get_insert_versioned] at hp
    split at hp
    · cases hp
      exact Nat.succ_ne_zero _
    · exact h.versioned tenant key p hp
  own := (Function.forall_update_iff s.recordings fun j r => r.Own (calls j)).2
    ⟨fun _ _ _ => nofun, fun j _ => h.own j⟩
  once := by
    refine (Function.forall_update_iff s.recordings fun j r =>
      ((s.saved ++ [(i, next.updatedAt)]).map Prod.fst).count j =
        if r.hasSaved then 1 else 0).2 ⟨?_, fun j hji => ?_⟩
    · have hnone := h.once i
      rw [hi] at hnone
      simp [hnone, Recording.hasSaved]
    · simp [h.once j, Ne.symm hji]

theorem Orderly.turn {i : ι} (h : Orderly calls s) (ht : Turn calls s i s') :
    Orderly calls s' := by
  cases ht with
  | rest hi => exact h
  | giveUp hi => exact h.quiet (fun _ _ _ => nofun) (by rw [hi]; rfl)
  | overflow hi => exact h.quiet (fun _ _ _ => nofun) (by rw [hi]; rfl)
  | conflict hi hne => exact h.quiet (fun _ _ _ => nofun) (by rw [hi]; rfl)
  | save hi heq => exact h.save hi
  | @read n next now hi hnext =>
      refine h.quiet ?_ (by rw [hi]; rfl)
      intro n' next' expected heq
      cases heq
      refine ⟨h.placed.observe (s := { calls i with now }) hnext, fun hzero => ?_⟩
      -- the version of no pattern was read, so there was none
      rw [offer, h.get_eq_none hzero] at hnext
      rw [Sampling.observe_updatedAt hnext]
      exact hnext

theorem Orderly.forget (h : Orderly calls s) (tenant : TenantId) (key : PatternKey) :
    Orderly calls { s with store := (s.store.delete tenant key).1 } where
  placed := h.placed.delete tenant key
  versioned tenant' key' p hp := by
    rw [PatternStore.get_delete] at hp
    split at hp
    · cases hp
    · exact h.versioned tenant' key' p hp
  own := h.own
  once := h.once

theorem Orderly.playFrom (h : Orderly calls s) (moves : List (Move ι)) :
    Orderly calls (playFrom calls s moves) := by
  -- moves come one after the other, so the state is what varies
  induction moves generalizing s with
  | nil => exact h
  | cons m moves ih =>
      cases m with
      | turn i now => exact ih (h.turn (turn_step calls s (i, now)))
      | forget tenant key => exact ih (h.forget tenant key)

/-- **At every moment** of any run, resets included. -/
theorem orderly_play (calls : ι → Sampling) (moves : List (Move ι)) :
    Orderly calls (play calls moves) :=
  (orderly_start calls).playFrom moves

/-! ### After a reset -/

section AfterReset

variable (calls : ι → Sampling) (tenant : TenantId) (key : PatternKey)

/-- The samples that have been saved under the key since the state `s₀`. -/
def since (s₀ s : Interleaving ι) : List Sampling :=
  samples calls (s.saved.drop s₀.saved.length) tenant key

/-- Since the state `s₀` the recording `i` has been about to write under the key what it had made
of a pattern of the version `expected`. -/
def Stale (s₀ s : Interleaving ι) (i : ι) (expected : Nat) : Prop :=
  (⟨(calls i).tenant, (calls i).key⟩ : Owned PatternKey) = ⟨tenant, key⟩ ∧ expected ≠ 0 ∧
    ∃ n next, s₀.recordings i = .writing n next expected ∧
      s.recordings i = .writing n next expected

/-- Whenever such a recording takes its turn, the number of samples saved since is not the version
that it expects. -/
def Undisturbed (s₀ : Interleaving ι) (moves : List (Move ι)) : Prop :=
  ∀ before i now after expected, moves = before ++ .turn i now :: after →
    Stale calls tenant key s₀ (playFrom calls s₀ before) i expected →
      (since calls tenant key s₀ (playFrom calls s₀ before)).length ≠ expected

/-- Nothing from before the state `s₀` is left under the key. -/
structure Renewed (s₀ s : Interleaving ι) : Prop where
  /-- The log of the writes has only grown. -/
  grown : s₀.saved <+: s.saved
  /-- What is stored has been learned from the samples saved since, and its version counts them. -/
  learned : s.store.Recalls tenant key (since calls tenant key s₀ s)
  /-- A recording that has been told of its success since is among them once, any other one is
  not. -/
  once : ∀ i, ((s.saved.drop s₀.saved.length).map Prod.fst).count i =
    if (s.recordings i).hasSaved ∧ ¬(s₀.recordings i).hasSaved then 1 else 0

/-- What every move keeps up after a reset of the key, as long as it is undisturbed. -/
structure Anew (s₀ s : Interleaving ι) : Prop where
  orderly : Orderly calls s
  grown : s₀.saved <+: s.saved
  learned : s.store.Recalls tenant key (since calls tenant key s₀ s)
  /-- A pattern about to be written is stale, or behind the stored one, or made from it. -/
  fresh : ∀ i n next expected, s.recordings i = .writing n next expected →
    (⟨(calls i).tenant, (calls i).key⟩ : Owned PatternKey) = ⟨tenant, key⟩ →
      Stale calls tenant key s₀ s i expected ∨ (expected ≤ s.versionFor calls i ∧
        (expected = s.versionFor calls i → s.offer calls i next.updatedAt = some next))

end AfterReset

/-- A recording that is about to write is refused, or told of its success. -/
theorem Turn.recordings_of_writing {i : ι} {n expected : Nat} {next : Pattern}
    (ht : Turn calls s i s') (hi : s.recordings i = .writing n next expected) :
    s'.recordings i =
      if s.store.versionAt next.tenant next.key = expected then
        .finished (.ok (next.versioned (expected + 1)))
      else .reading n := by
  cases ht with
  | rest h => cases hi.symm.trans h
  | giveUp h => cases hi.symm.trans h
  | overflow h => cases hi.symm.trans h
  | read now h hnext => cases hi.symm.trans h
  | conflict h hne =>
      cases hi.symm.trans h
      rw [if_neg hne]
      exact Function.update_self _ _ _
  | save h heq =>
      cases hi.symm.trans h
      rw [if_pos heq]
      exact Function.update_self _ _ _

omit [DecidableEq ι] in
theorem since_append (hgrown : s₀.saved <+: s.saved) (new : List (ι × Timestamp))
    (hsaved : s'.saved = s.saved ++ new) :
    since calls tenant key s₀ s' = since calls tenant key s₀ s ++ samples calls new tenant key := by
  rw [since, hsaved, List.drop_append_of_le_length hgrown.length_le, samples_append]
  rfl

/-- The version counts the samples saved since the reset. -/
theorem Anew.versionFor_eq (h : Anew calls tenant key s₀ s) {i : ι}
    (hi : (⟨(calls i).tenant, (calls i).key⟩ : Owned PatternKey) = ⟨tenant, key⟩) :
    s.versionFor calls i = (since calls tenant key s₀ s).length := by
  obtain ⟨rfl, rfl⟩ := Owned.mk.inj hi
  exact h.learned.versionAt_eq

omit [DecidableEq ι] in
theorem Stale.of_recordings_eq {i : ι} {expected : Nat}
    (h : Stale calls tenant key s₀ s i expected) (hsame : s'.recordings i = s.recordings i) :
    Stale calls tenant key s₀ s' i expected := by
  obtain ⟨hi, hne, n, next, hbefore, hnow⟩ := h
  exact ⟨hi, hne, n, next, hbefore, hsame.trans hnow⟩

/-- **A reset forgets**: right after it nothing is stored, and a recording that has read nothing may
still make the first pattern. -/
theorem Orderly.anew_forget (h : Orderly calls s) :
    Anew calls tenant key (move calls s (.forget tenant key))
      (move calls s (.forget tenant key)) := by
  have hget : (move calls s (.forget tenant key)).store.get tenant key = none := by
    rw [move, PatternStore.get_delete, if_pos ⟨rfl, rfl⟩]
  refine ⟨h.forget tenant key, List.prefix_rfl, ⟨none, ?_, hget⟩, ?_⟩
  · rw [since, List.drop_length]
    rfl
  · intro i n next expected hi hplace
    obtain ⟨rfl, rfl⟩ := Owned.mk.inj hplace
    -- what was made of nothing stored is as good as new; what was made of a pattern is stale
    by_cases hzero : expected = 0
    · refine .inr ⟨by omega, fun _ => ?_⟩
      rw [offer, hget]
      exact (h.own i n next expected hi).2 hzero
    · exact .inl ⟨rfl, hzero, n, next, hi, hi⟩

/-- A turn that saves nothing. -/
theorem Anew.quiet (h : Anew calls tenant key s₀ s) {i : ι} {r : Recording} {written : List ι}
    (horderly : Orderly calls { s.become i r with written })
    (hfresh : ∀ n next expected, r = .writing n next expected →
      expected ≤ s.versionFor calls i ∧
        (expected = s.versionFor calls i → s.offer calls i next.updatedAt = some next)) :
    Anew calls tenant key s₀ { s.become i r with written } := by
  refine ⟨horderly, h.grown, h.learned, fun j n next expected hj hplace => ?_⟩
  by_cases hji : j = i
  · subst hji
    exact .inr (hfresh n next expected (by simpa using hj))
  · have hsame : (s.become i r).recordings j = s.recordings j := by simp [hji]
    refine (h.fresh j n next expected (hsame ▸ hj) hplace).imp_left fun hstale => ?_
    exact hstale.of_recordings_eq hsame

/-- A turn that saves a sample, of a recording that is not stale. -/
theorem Anew.save (h : Anew calls tenant key s₀ s) {i : ι} {n expected : Nat} {next : Pattern}
    (hi : s.recordings i = .writing n next expected)
    (heq : s.store.versionAt next.tenant next.key = expected)
    (hcalm : ¬Stale calls tenant key s₀ s i expected) :
    Anew calls tenant key s₀
      { store := s.store.insert next.place (next.versioned (expected + 1))
        recordings := Function.update s.recordings i
          (.finished (.ok (next.versioned (expected + 1))))
        written := s.written ++ [i]
        saved := s.saved ++ [(i, next.updatedAt)] } := by
  have hplace := (h.orderly.own i n next expected hi).1
  have hversion : expected = s.versionFor calls i := by
    obtain ⟨htenant, hkey⟩ := Owned.mk.inj hplace
    rw [← heq, versionFor, ← htenant, ← hkey]
  refine ⟨h.orderly.save hi, h.grown.trans (List.prefix_append _ _), ?learned, ?fresh⟩
  case learned =>
    rw [since_append h.grown [(i, next.updatedAt)] rfl, samples_singleton, ← hplace]
    by_cases hk : next.place = ⟨tenant, key⟩
    · -- it has been made from what is stored
      have hkey := hplace.symm.trans hk
      obtain ⟨-, hoffer⟩ := (h.fresh i n next expected hi hkey).resolve_left hcalm
      rw [if_pos hk, hversion, h.versionFor_eq hkey]
      obtain ⟨rfl, rfl⟩ := Owned.mk.inj hkey
      exact h.learned.insert (q := { calls i with now := next.updatedAt }) h.orderly.placed
        (hoffer hversion)
    · rw [if_neg hk, List.append_nil]
      exact h.learned.insert_of_ne hk _
  case fresh =>
    intro j n' next' expected' hj hkey
    have hji : j ≠ i := by
      rintro rfl
      simp at hj
    have hsame : Function.update s.recordings i
        (.finished (.ok (next.versioned (expected + 1)))) j = s.recordings j :=
      Function.update_of_ne hji _ _
    obtain hstale | ⟨hle, hoffer⟩ := h.fresh j n' next' expected' (hsame ▸ hj) hkey
    · exact .inl (hstale.of_recordings_eq hsame)
    refine .inr ?_
    have hget :=
      PatternStore.get_insert_versioned s.store next (expected + 1) (calls j).tenant (calls j).key
    simp only [versionFor, offer, PatternStore.versionAt, hget]
    by_cases hk : next.place = ⟨(calls j).tenant, (calls j).key⟩
    · -- what it holds for this key is behind from now on
      have hboth : s.versionFor calls j = expected := by
        rw [hversion, h.versionFor_eq hkey, h.versionFor_eq (hplace.symm.trans (hk.trans hkey))]
      simp only [if_pos hk, Pattern.versioned]
      exact ⟨by omega, fun h => by omega⟩
    · simp only [if_neg hk]
      exact ⟨hle, hoffer⟩

theorem Anew.turn {i : ι} (h : Anew calls tenant key s₀ s) (ht : Turn calls s i s')
    (hcalm : ∀ expected, Stale calls tenant key s₀ s i expected →
      (since calls tenant key s₀ s).length ≠ expected) :
    Anew calls tenant key s₀ s' := by
  have horderly := h.orderly.turn ht
  cases ht with
  | rest hi => exact h
  | giveUp hi => exact h.quiet horderly nofun
  | overflow hi => exact h.quiet horderly nofun
  | conflict hi hne => exact h.quiet horderly nofun
  | read now hi hnext =>
      refine h.quiet horderly ?_
      intro n next expected heq
      cases heq
      refine ⟨Nat.le_refl _, fun _ => ?_⟩
      rw [Sampling.observe_updatedAt hnext]
      exact hnext
  | @save n expected next hi heq =>
      refine h.save hi heq fun hstale => hcalm expected hstale ?_
      obtain ⟨htenant, hkey⟩ := Owned.mk.inj (h.orderly.own i n next expected hi).1
      rw [← h.versionFor_eq hstale.1, versionFor, ← htenant, ← hkey, heq]

/-- A reset of another key. -/
theorem Anew.forget (h : Anew calls tenant key s₀ s) {tenant' : TenantId} {key' : PatternKey}
    (hne : ¬(tenant' = tenant ∧ key' = key)) :
    Anew calls tenant key s₀ (move calls s (.forget tenant' key')) := by
  have hget : (s.store.delete tenant' key').1.get tenant key = s.store.get tenant key := by
    rw [PatternStore.get_delete, if_neg hne]
  obtain ⟨current, hall, hstored⟩ := h.learned
  refine ⟨h.orderly.forget tenant' key', h.grown, ⟨current, hall, hget.trans hstored⟩, ?_⟩
  intro i n next expected hi hplace
  have hfresh := h.fresh i n next expected hi hplace
  obtain ⟨rfl, rfl⟩ := Owned.mk.inj hplace
  simp only [move, versionFor, offer, PatternStore.versionAt, hget] at hfresh ⊢
  exact hfresh

theorem Undisturbed.of_append {moves more : List (Move ι)}
    (h : Undisturbed calls tenant key s₀ (moves ++ more)) : Undisturbed calls tenant key s₀ moves :=
  fun before i now after expected heq =>
    h before i now (after ++ more) expected (by rw [heq, List.append_assoc, List.cons_append])

theorem Anew.playFrom {moves : List (Move ι)} (h : Anew calls tenant key s₀ s₀)
    (hlast : .forget tenant key ∉ moves) (hcalm : Undisturbed calls tenant key s₀ moves) :
    Anew calls tenant key s₀ (playFrom calls s₀ moves) := by
  -- on the last move, since what is asked of a turn is about all that comes before it
  induction moves using List.reverseRecOn with
  | nil => exact h
  | append_singleton moves m ih =>
      rw [List.mem_append, not_or, List.mem_singleton] at hlast
      have hanew := ih hlast.1 hcalm.of_append
      rw [playFrom_append]
      cases m with
      | turn i now =>
          exact hanew.turn (turn_step calls _ (i, now)) fun expected =>
            hcalm moves i now [] expected rfl
      | forget tenant' key' =>
          refine hanew.forget ?_
          rintro ⟨rfl, rfl⟩
          exact hlast.2 rfl

/-- Nothing is told twice. -/
theorem Anew.renewed (h : Anew calls tenant key s₀ s) (hbefore : Orderly calls s₀) :
    Renewed calls tenant key s₀ s := by
  refine ⟨h.grown, h.learned, fun i => ?_⟩
  obtain ⟨new, hnew⟩ := h.grown
  have hnow := h.orderly.once i
  have hthen := hbefore.once i
  rw [← hnew, List.map_append, List.count_append, hthen] at hnow
  rw [← hnew, List.drop_left]
  split_ifs at hnow ⊢ <;> simp_all

/-- **A reset lasts as long as it is undisturbed.**  After a reset of a key, its last one, let no
recording from before write at a moment when exactly as many samples have been saved since as its
copy counts.  Then what is stored under the key has been learned from the samples saved since the
reset alone, in the order of the writes, and from each one once.  And a recording from before whose
turn it is now is refused, unless that is such a moment: then it writes its old copy over what has
been learned since. -/
theorem play_forget (calls : ι → Sampling) (before after : List (Move ι)) (tenant : TenantId)
    (key : PatternKey) (hlast : .forget tenant key ∉ after)
    (hcalm : Undisturbed calls tenant key (play calls (before ++ [.forget tenant key])) after) :
    Renewed calls tenant key (play calls (before ++ [.forget tenant key]))
        (play calls (before ++ .forget tenant key :: after)) ∧
      ∀ i n next expected now,
        Stale calls tenant key (play calls (before ++ [.forget tenant key]))
          (play calls (before ++ .forget tenant key :: after)) i expected →
        (play calls (before ++ .forget tenant key :: after)).recordings i =
          .writing n next expected →
        (play calls (before ++ .forget tenant key :: after ++ [.turn i now])).recordings i =
          if (since calls tenant key (play calls (before ++ [.forget tenant key]))
              (play calls (before ++ .forget tenant key :: after))).length = expected then
            .finished (.ok (next.versioned (expected + 1)))
          else .reading n := by
  have hreset : play calls (before ++ [.forget tenant key]) =
      move calls (play calls before) (.forget tenant key) :=
    playFrom_append calls _ _ _
  have hafter : play calls (before ++ .forget tenant key :: after) =
      playFrom calls (play calls (before ++ [.forget tenant key])) after := by
    rw [play, play, ← playFrom_append, List.append_assoc, List.singleton_append]
  have hanew : Anew calls tenant key (play calls (before ++ [.forget tenant key]))
      (play calls (before ++ [.forget tenant key])) := by
    rw [hreset]
    exact (orderly_play calls before).anew_forget
  have hend := hanew.playFrom hlast hcalm
  rw [← hafter] at hend
  refine ⟨hend.renewed hanew.orderly, fun i n next expected now hstale hi => ?_⟩
  have hturn : play calls (before ++ .forget tenant key :: after ++ [.turn i now]) =
      step calls (play calls (before ++ .forget tenant key :: after)) (i, now) :=
    playFrom_append calls _ _ _
  rw [hturn, ← hend.versionFor_eq hstale.1]
  generalize play calls (before ++ .forget tenant key :: after) = s at hi hend ⊢
  obtain ⟨htenant, hkey⟩ := Owned.mk.inj (hend.orderly.own i n next expected hi).1
  rw [versionFor, ← htenant, ← hkey]
  exact (turn_step calls s (i, now)).recordings_of_writing hi

/-! ### A late write -/

/-- Recordings under one key: one makes the pattern, one reads it before a reset, and two begin
after the reset. -/
inductive Crew
  | maker
  | reader
  | newcomer
  | follower
deriving DecidableEq

/-- The sample of those who raise a quantity. -/
def raised : Decimal := (Decimal.tenths 11).roundFactor

/-- The sample of those who lower one. -/
def lowered : Decimal := (Decimal.tenths 9).roundFactor

/-- The key of the crew. -/
def crewKey : PatternKey := ⟨⟨.bathroom, .basic⟩, "painting", by decide +kernel⟩

/-- Before the reset the quantities are raised, after it they are lowered. -/
def crew (i : Crew) : Sampling :=
  ⟨"acme", crewKey, if i = .maker ∨ i = .reader then raised else lowered, .standard, .epoch⟩

/-- The pattern is made and read. -/
def lateRead : List (Move Crew) :=
  [.turn .maker .epoch, .turn .maker .epoch, .turn .reader .epoch]

/-- One sample is saved after the reset, and then the old copy is written. -/
def lateWrite : List (Move Crew) :=
  [.turn .newcomer .epoch, .turn .newcomer .epoch, .turn .reader .epoch]

/-- What the reader makes of the old pattern. -/
def oldCopy : Pattern where
  tenant := "acme"
  key := crewKey
  factor := raised
  samples := 2
  recent := [raised, raised]
  version := 1
  createdAt := .epoch
  updatedAt := .epoch

/-- A recording of the crew that finds a pattern of one sample, its own, makes one of two. -/
theorem offer_again {s : Interleaving Crew} {i : Crew} {old new x : Decimal} {p : Pattern}
    (hsample : Policy.standard.sample old new = some x) (hsize : x.size < 2 ^ 95)
    (hlast : [x, x] = Pattern.lastOf Policy.standard.windowSize
      (p.recent ++ [(crew i).sample.roundFactor]))
    (hget : s.store.get "acme" crewKey = some p) :
    s.offer crew i .epoch = some { p with
      factor := x, recent := [x, x], samples := min (p.samples + 1) Policy.standard.maxSamples,
      updatedAt := .epoch } := by
  have hwindow : ∀ y ∈ [x, x], ∃ old new, Policy.standard.sample old new = some y := by
    intro y hy
    obtain rfl : y = x := by simpa using hy
    exact ⟨_, _, hsample⟩
  have hpolicy : Policy.standard.Valid := Policy.fault?_eq_none (by decide)
  refine (congrArg (crew i).observe hget).trans ?_
  exact Sampling.observe_of_majority hpolicy hsample hsize hlast hwindow (by simp)

/-- The reader is about to write its copy over what the maker has stored. -/
theorem play_lateRead (moves : List (Move Crew)) : play crew (lateRead ++ moves) =
    playFrom crew ((play crew [.turn .maker .epoch, .turn .maker .epoch]).become .reader
      (.writing 4 oldCopy 1)) moves := by
  have hsample : Policy.standard.sample (.whole 10) (.whole 11) = some raised := by decide +kernel
  have hoffer : (play crew [.turn .maker .epoch, .turn .maker .epoch]).offer crew .reader .epoch =
      some oldCopy :=
    offer_again hsample (by decide) (by decide)
      (show _ = some { oldCopy with samples := 1, recent := [raised] } from rfl)
  rw [play, playFrom_append]
  exact congrArg (playFrom crew · moves) (step_of_offer crew rfl hoffer)

/-- The reader is told of its success, and its copy is stored: the samples from before the reset are
back, and of the one saved since nothing is left. -/
theorem play_lateWrite :
    (play crew (lateRead ++ .forget "acme" crewKey :: lateWrite)).recordings .reader =
        .finished (.ok (oldCopy.versioned 2)) ∧
      (play crew (lateRead ++ .forget "acme" crewKey :: lateWrite)).store.get "acme" crewKey =
        some (oldCopy.versioned 2) ∧
      ¬Renewed crew "acme" crewKey (play crew (lateRead ++ [.forget "acme" crewKey]))
        (play crew (lateRead ++ .forget "acme" crewKey :: lateWrite)) := by
  simp only [play_lateRead]
  refine ⟨rfl, rfl, fun h => ?_⟩
  obtain ⟨current, hlearned, hstored⟩ := h.learned
  -- the newcomer has saved its sample since the reset and so has the reader: both would be there
  have hall : Sampling.observeAll ([crew .newcomer] ++ [crew .reader]) = some current := hlearned
  rw [Sampling.observeAll_append_singleton] at hall
  obtain ⟨p, hp, rfl⟩ := Option.map_eq_some_iff.1 hall
  have hrecent : some oldCopy.recent = some p.recent := congrArg (Option.map Pattern.recent) hstored
  rw [Sampling.observe_recent hp] at hrecent
  exact absurd hrecent (by decide)

/-- Two samples are saved after the reset. -/
def twoSaved : List (Move Crew) :=
  [.turn .newcomer .epoch, .turn .newcomer .epoch, .turn .follower .epoch, .turn .follower .epoch]

/-- The follower finds the sample of the newcomer, so the stored version is two in the end. -/
theorem versionAt_play_twoSaved : (play crew
    (lateRead ++ .forget "acme" crewKey :: twoSaved)).store.versionAt "acme" crewKey = 2 := by
  have hsample : Policy.standard.sample (.whole 10) (.whole 9) = some lowered := by decide +kernel
  let s := play crew (lateRead ++ .forget "acme" crewKey :: twoSaved.take 2)
  have hbegun : s.recordings .follower = .reading 5 :=
    congrArg (fun s => s.recordings .follower) (play_lateRead _)
  have hget : s.store.get "acme" crewKey =
      some { oldCopy with factor := lowered, samples := 1, recent := [lowered] } :=
    congrArg (fun s => s.store.get "acme" crewKey) (play_lateRead _)
  have hoffer := offer_again (i := .follower) hsample (by decide) (by decide) hget
  have hsplit : play crew (lateRead ++ .forget "acme" crewKey :: twoSaved) =
      step crew (step crew s (.follower, .epoch)) (.follower, .epoch) := rfl
  rw [hsplit, step_of_offer crew hbegun hoffer, show s = _ from play_lateRead _]
  rfl

/-- After the second one the old copy is refused, since it counts one. -/
theorem play_forget_refused :
    Renewed crew "acme" crewKey (play crew (lateRead ++ [.forget "acme" crewKey]))
        (play crew (lateRead ++ .forget "acme" crewKey :: twoSaved)) ∧
      (play crew (lateRead ++ .forget "acme" crewKey :: twoSaved ++
        [.turn .reader .epoch])).recordings .reader = .reading 4 := by
  have hcalm : Undisturbed crew "acme" crewKey (play crew (lateRead ++ [.forget "acme" crewKey]))
      twoSaved := by
    rintro before i now after expected heq ⟨-, -, n, next, hread, -⟩
    have hmem : Move.turn i now ∈ twoSaved := heq ▸ by simp
    simp only [twoSaved, List.mem_cons, Move.turn.injEq, List.not_mem_nil, or_false] at hmem
    rcases hmem with ⟨rfl, -⟩ | ⟨rfl, -⟩ | ⟨rfl, -⟩ | ⟨rfl, -⟩ <;> cases hread
  have h := play_forget crew lateRead twoSaved "acme" crewKey (by simp [twoSaved]) hcalm
  refine ⟨h.1, ?_⟩
  have hread : (play crew (lateRead ++ [.forget "acme" crewKey])).recordings .reader =
      .writing 4 oldCopy 1 := by
    rw [play_lateRead]
    rfl
  have hnow : (play crew (lateRead ++ .forget "acme" crewKey :: twoSaved)).recordings .reader =
      .writing 4 oldCopy 1 := by
    rw [play_lateRead]
    exact recordings_playFrom_of_forall_ne (by simp [twoSaved]) _
  rw [h.2 .reader 4 oldCopy 1 .epoch ⟨rfl, by decide, 4, oldCopy, hread, hnow⟩ hnow,
    ← h.1.learned.versionAt_eq, versionAt_play_twoSaved]
  rfl

end Interleaving
end Estimating
