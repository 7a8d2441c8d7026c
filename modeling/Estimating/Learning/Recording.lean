/-
Recording a correction in the store of patterns.

A recording reads the pattern of its key, adds its sample and writes the result back under the
version that it has read.  If another writer came in between it starts over, up to a number of
attempts.  Reading and writing are two steps, and the steps of several recordings may be interleaved
in any order.

* `Sampling` — what is recorded, and under which policy;
* `LearningError` — why something could not be learned or told;
* `Sampling.prepare` — what a recording does with what it has read;
* `Sampling.conclude` — what it does with the answer to its write;
* `Recording`, `Recording.step` — how far a recording has come, and one step on a store;
* `Sampling.record` — a whole recording, in any context that can read and write patterns.
-/
import Estimating.Learning.Store

set_option autoImplicit false

namespace Estimating

/-- What a recording is about. -/
structure Sampling where
  tenant : TenantId
  key : PatternKey
  /-- The sample, between the bounds of the policy. -/
  sample : Decimal
  policy : Policy
  now : Timestamp

/-- Why something could not be learned or told. -/
inductive LearningError
  | store (cause : StoreError)
  | /-- Other writers came in between at every attempt. -/
    contention (key : PatternKey) (attempts : Nat)
  | /-- A number is too large for a decimal. -/
    overflow
deriving DecidableEq, Repr

/-- The wording of a learning error. -/
def LearningError.message : LearningError → String
  | store cause => "Store error: " ++ cause.message
  | contention key attempts =>
    "Gave up updating pattern '" ++ key.text ++ "' after " ++ toString attempts ++
      " conflicting writes"
  | overflow => "a number is too large"

namespace Sampling

/-- The pattern to write, and the version that it is to replace, after reading `current`. -/
def prepare (s : Sampling) (current : Option Pattern) : Option (Pattern × Nat) :=
  (Pattern.next current s.tenant s.key s.sample s.policy s.now).map fun next =>
    (next, (current.map Pattern.version).getD 0)

/-- The result of a recording after the answer to its write; `none` if it starts over. -/
def conclude : Except StoreError Pattern → Option (Except LearningError Pattern)
  | .ok saved => some (.ok saved)
  | .error (.versionConflict ..) => none
  | .error e => some (.error (.store e))

/-- The error of a recording that has used up its attempts. -/
def giveUp (s : Sampling) : LearningError := .contention s.key s.policy.maxAttempts

/-- A recording with `attempts` attempts left, where patterns are read and written by `get` and
`write`. -/
def recordFrom {m : Type → Type} [Monad m]
    (get : TenantId → PatternKey → m (Except StoreError (Option Pattern)))
    (write : Pattern → Nat → m (Except StoreError Pattern)) (s : Sampling) :
    Nat → m (Except LearningError Pattern)
  | 0 => return .error s.giveUp
  | attempts + 1 => do
    match ← get s.tenant s.key with
    | .error e => return .error (.store e)
    | .ok current =>
      match s.prepare current with
      | none => return .error .overflow
      | some (next, expected) =>
        match conclude (← write next expected) with
        | some result => return result
        | none => recordFrom get write s attempts

/-- A whole recording. -/
def record {m : Type → Type} [Monad m]
    (get : TenantId → PatternKey → m (Except StoreError (Option Pattern)))
    (write : Pattern → Nat → m (Except StoreError Pattern)) (s : Sampling) :
    m (Except LearningError Pattern) :=
  recordFrom get write s s.policy.maxAttempts

end Sampling

/-! ### Steps -/

/-- How far a recording has come. -/
inductive Recording
  | /-- It reads next and has `attempts` attempts left. -/
    reading (attempts : Nat)
  | /-- It writes next and has `attempts` attempts left after that. -/
    writing (attempts : Nat) (next : Pattern) (expected : Nat)
  | finished (result : Except LearningError Pattern)

namespace Recording

/-- A recording that has not begun. -/
def start (s : Sampling) : Recording := .reading s.policy.maxAttempts

/-- One step of a recording on a store; a finished recording does nothing. -/
def step (s : Sampling) (r : Recording) (store : PatternStore) : Recording × PatternStore :=
  match r with
  | .reading 0 => (.finished (.error s.giveUp), store)
  | .reading (attempts + 1) =>
    match s.prepare (store.get s.tenant s.key) with
    | none => (.finished (.error .overflow), store)
    | some (next, expected) => (.writing attempts next expected, store)
  | .writing attempts next expected =>
    match store.write next expected with
    | .ok (store, saved) => (.finished (.ok saved), store)
    | .error e =>
      match Sampling.conclude (.error e) with
      | some result => (.finished result, store)
      | none => (.reading attempts, store)
  | .finished result => (.finished result, store)

end Recording
end Estimating
