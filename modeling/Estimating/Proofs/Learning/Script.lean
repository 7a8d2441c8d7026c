/-
A recording as a program, cut at its accesses to the store.

A program that reads and writes patterns is known from its first access and from what it goes on
with after each answer.  So is a whole recording, and its steps are the accesses of that program,
one at a time.

* `Script`, `Script.step` — a program, and its first access answered by a store;
* `Recording.rest` — what a recording still has to do;
* `Recording.rest_start`, `Recording.rest_step` — **the steps of a recording are the accesses of
  the whole recording**.
-/
import Estimating.Learning.Recording

set_option autoImplicit false

namespace Estimating

/-- A program that reads and writes patterns. -/
inductive Script (α : Type) : Type
  | done (result : α)
  | get (tenant : TenantId) (key : PatternKey)
      (further : Except StoreError (Option Pattern) → Script α)
  | write (p : Pattern) (expected : Nat) (further : Except StoreError Pattern → Script α)

namespace Script

/-- One program after another. -/
def andThen {α β : Type} : Script α → (α → Script β) → Script β
  | done result, g => g result
  | get tenant key further, g => get tenant key fun answer => (further answer).andThen g
  | write p expected further, g => write p expected fun answer => (further answer).andThen g

instance : Monad Script where
  pure := done
  bind := andThen

/-- The program after its first access, which the store answers; without one it rests. -/
def step {α : Type} (store : PatternStore) : Script α → Script α × PatternStore
  | done result => (done result, store)
  | get tenant key further => (further (.ok (store.get tenant key)), store)
  | write p expected further =>
    match store.write p expected with
    | .ok (store, saved) => (further (.ok saved), store)
    | .error e => (further (.error e), store)

end Script

namespace Recording

/-- What a recording with `attempts` attempts left does. -/
def scriptFrom (s : Sampling) (attempts : Nat) : Script (Except LearningError Pattern) :=
  s.recordFrom (fun tenant key => .get tenant key .done) (fun p n => .write p n .done) attempts

/-- What a recording still has to do. -/
def rest (s : Sampling) : Recording → Script (Except LearningError Pattern)
  | .reading attempts => scriptFrom s attempts
  | .writing attempts next expected => .write next expected fun answer =>
    match Sampling.conclude answer with
    | some result => .done result
    | none => scriptFrom s attempts
  | .finished result => .done result

/-- After it has read, a recording writes, unless a number is too large. -/
theorem step_scriptFrom_succ (s : Sampling) (attempts : Nat) (store : PatternStore) :
    (scriptFrom s (attempts + 1)).step store =
      match s.prepare (store.get s.tenant s.key) with
      | none => (.done (.error .overflow), store)
      | some (next, expected) => (rest s (.writing attempts next expected), store) := by
  show Script.step store (.get s.tenant s.key _) = _
  simp only [Script.step, bind, Script.andThen]
  cases s.prepare (store.get s.tenant s.key) with
  | none => rfl
  | some made => rfl

/-- A recording that has not begun has everything to do. -/
theorem rest_start (s : Sampling) : (start s).rest s =
    s.record (fun tenant key => .get tenant key .done) (fun p n => .write p n .done) := rfl

/-- **A step of a recording is the next access of what it still has to do.** -/
theorem rest_step (s : Sampling) (r : Recording) (store : PatternStore) :
    (r.rest s).step store = ((r.step s store).1.rest s, (r.step s store).2) := by
  cases r with
  | reading n =>
      cases n with
      | zero => rfl
      | succ n =>
          rw [rest, step_scriptFrom_succ, step]
          cases s.prepare (store.get s.tenant s.key) with
          | none => rfl
          | some made => rfl
  | writing n next expected =>
      rw [rest, Script.step, step]
      cases store.write next expected with
      | ok saved => rfl
      | error e => cases e <;> rfl
  | finished result => rfl

end Recording
end Estimating
