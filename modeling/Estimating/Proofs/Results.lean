/-
Results that may be errors: what is known of the parts when the whole has succeeded or failed.

* `Except.map_eq_ok`, `Except.map_eq_error` — a result with a function applied to it;
* `Except.bind_eq_ok`, `Except.bind_eq_error` — a result that goes into a further step;
* `Except.foldlM_eq_error` — a run over a list;
* `ExceptT.run_bind_of_ok`, `ExceptT.run_bind_of_error`, `ExceptT.run_bind_eq_ok` — the same over a
  state, with the state in between.
-/

set_option autoImplicit false

namespace Except

variable {ε α β : Type}

theorem map_eq_ok {g : α → β} {x : Except ε α} {b : β} :
    x.map g = .ok b ↔ ∃ a, x = .ok a ∧ g a = b := by
  cases x with
  | error e => simp [Except.map]
  | ok a => simp [Except.map]

theorem map_eq_error {g : α → β} {x : Except ε α} {e : ε} :
    x.map g = .error e ↔ x = .error e := by
  cases x with
  | error e => simp [Except.map]
  | ok a => simp [Except.map]

theorem bind_eq_ok {x : Except ε α} {k : α → Except ε β} {b : β} :
    x >>= k = .ok b ↔ ∃ a, x = .ok a ∧ k a = .ok b := by
  cases x with
  | error e => simp [bind, Except.bind]
  | ok a => simp [bind, Except.bind]

theorem bind_eq_error {x : Except ε α} {k : α → Except ε β} {e : ε} :
    x >>= k = .error e ↔ x = .error e ∨ ∃ a, x = .ok a ∧ k a = .error e := by
  cases x with
  | error e => simp [bind, Except.bind]
  | ok a => simp [bind, Except.bind]

/-- A run has failed if it has failed at one of its steps. -/
theorem foldlM_eq_error {f : α → β → Except ε α} {xs : List β} {e : ε} : ∀ {a : α},
    xs.foldlM f a = .error e ↔ ∃ before x after a', xs = before ++ x :: after ∧
      before.foldlM f a = .ok a' ∧ f a' x = .error e := by
  induction xs with
  | nil => simp [pure, Except.pure]
  | cons y ys ih =>
      intro a
      rw [List.foldlM_cons, bind_eq_error]
      constructor
      · rintro (h | ⟨a₁, hy, h⟩)
        · exact ⟨[], y, ys, a, rfl, rfl, h⟩
        · obtain ⟨before, x, after, a', rfl, hbefore, hx⟩ := ih.1 h
          refine ⟨y :: before, x, after, a', rfl, ?_, hx⟩
          rw [List.foldlM_cons]
          exact bind_eq_ok.2 ⟨a₁, hy, hbefore⟩
      · rintro ⟨before, x, after, a', hlist, hbefore, hx⟩
        cases before with
        | nil =>
            cases hlist
            cases hbefore
            exact .inl hx
        | cons z before =>
            cases hlist
            rw [List.foldlM_cons] at hbefore
            obtain ⟨a₁, hy, hbefore⟩ := bind_eq_ok.1 hbefore
            exact .inr ⟨a₁, hy, ih.2 ⟨before, x, after, a', rfl, hbefore, hx⟩⟩

end Except

namespace ExceptT

variable {ε σ α β : Type} {a : ExceptT ε (StateM σ) α} {f : α → ExceptT ε (StateM σ) β} {s s' : σ}

theorem run_bind_of_ok {x : α} (h : a.run.run s = (.ok x, s')) :
    (a >>= f).run.run s = (f x).run.run s' := by
  rw [ExceptT.run_bind, StateT.run_bind, h]
  rfl

theorem run_bind_of_error {e : ε} (h : a.run.run s = (.error e, s')) :
    (a >>= f).run.run s = (.error e, s') := by
  rw [ExceptT.run_bind, StateT.run_bind, h]
  rfl

/-- What succeeds has succeeded at its first step. -/
theorem run_bind_eq_ok {y : β} (h : (a >>= f).run.run s = (.ok y, s')) :
    ∃ x s₁, a.run.run s = (.ok x, s₁) ∧ (f x).run.run s₁ = (.ok y, s') := by
  rcases hrun : a.run.run s with ⟨_ | x, s₁⟩
  · rw [run_bind_of_error hrun] at h
    cases h
  · rw [run_bind_of_ok hrun] at h
    exact ⟨x, s₁, rfl, h⟩

/-- A function applied to the result changes no state. -/
theorem run_bind_pure_snd (a : ExceptT ε (StateM σ) α) (g : α → β) (s : σ) :
    ((a >>= fun x => pure (g x)).run.run s).2 = (a.run.run s).2 := by
  rcases hrun : a.run.run s with ⟨_ | x, s'⟩
  · rw [run_bind_of_error hrun]
  · rw [run_bind_of_ok hrun]
    rfl

end ExceptT
