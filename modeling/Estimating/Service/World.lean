/-
The stores of the service, and their outages.

* `Stores` — all stores together, and `Stores.empty`;
* `Outage` — a store that fails, for a number of calls or for good; it may fail every call or only
  let writes lose against another writer;
* `World` — stores, some of which may be out of order;
* `World.meetOutage` — the error of a call to a store that is out of order;
* `World.ask`, `World.change` — a call that reads a store, and one that changes it.
-/
import Estimating.Catalog.Store
import Estimating.Correction.Log
import Estimating.Learning.Store
import Estimating.Project.Store

set_option autoImplicit false

namespace Estimating

/-! ### Stores -/

/-- All stores together. -/
structure Stores where
  rules : RuleStore
  catalog : Catalog
  quotes : QuoteStore
  log : Log
  patterns : PatternStore

/-- Stores that hold nothing, with the log in memory. -/
def Stores.empty : Stores := ⟨∅, ∅, ∅, .memory [], ∅⟩

/-- One of the stores. -/
inductive StoreName
  | rules
  | catalog
  | quotes
  | log
  | patterns
deriving DecidableEq, Repr

namespace StoreName

/-- The name of a store in messages. -/
def text : StoreName → String
  | rules => "rules"
  | catalog => "catalog"
  | quotes => "quotes"
  | log => "log"
  | patterns => "patterns"

/-- The store of a name. -/
def ofText? : String → Option StoreName
  | "rules" => some rules
  | "catalog" => some catalog
  | "quotes" => some quotes
  | "log" => some log
  | "patterns" => some patterns
  | _ => none

end StoreName

/-! ### Outages -/

/-- The way in which a store fails. -/
inductive OutageKind
  | unavailable
  | notFound
  | serialization
  | /-- Only writes under a version fail, because of another writer. -/
    conflict
deriving DecidableEq, Repr

/-- A store that fails. -/
structure Outage where
  kind : OutageKind
  /-- How many calls are still to fail; all of them if there is no number. -/
  left : Option Nat
deriving DecidableEq, Repr

namespace Outage

/-- Whether calls still fail. -/
def isOn (o : Outage) : Bool := o.left != some 0

/-- The outage after one call. -/
def afterCall (o : Outage) : Outage := { o with left := o.left.map (· - 1) }

/-- The error of a call, unless only writes under a version fail. -/
def error? (o : Outage) (store : StoreName) : Option StoreError :=
  let text := store.text ++ " offline"
  match o.kind with
  | .unavailable => some (.unavailable text)
  | .notFound => some (.notFound text)
  | .serialization => some (.serialization text)
  | .conflict => none

end Outage

/-! ### The world -/

/-- Stores, some of which may be out of order. -/
structure World where
  stores : Stores
  outage : StoreName → Option Outage

/-- A world in which all stores work. -/
def World.of (stores : Stores) : World := ⟨stores, fun _ => none⟩

namespace World

/-- Sets the outage of one store. -/
def setOutage (w : World) (name : StoreName) (o : Outage) : World :=
  { w with outage := fun n => if n = name then some o else w.outage n }

/-- The error of a call to a store, if the store is out of order; the call counts as one of those
that fail.  `conflict` is the error of a write that loses against another writer. -/
def meetOutage (name : StoreName) (conflict : Option StoreError) :
    StateM World (Option StoreError) := fun w =>
  match w.outage name with
  | none => (none, w)
  | some o =>
    if o.isOn then
      match (o.error? name).or (if o.kind = .conflict then conflict else none) with
      | some e => (some e, w.setOutage name o.afterCall)
      | none => (none, w)
    else (none, w)

/-- A call that reads a store. -/
def ask {α : Type} (name : StoreName) (read : Stores → Except StoreError α) :
    StateM World (Except StoreError α) := do
  match ← meetOutage name none with
  | some e => return .error e
  | none => return read (← get).stores

/-- A call that changes a store. -/
def change {α : Type} (name : StoreName) (run : Stores → Stores × α) :
    StateM World (Except StoreError α) := do
  match ← meetOutage name none with
  | some e => return .error e
  | none =>
    modifyGet fun w =>
      let (stores, a) := run w.stores
      (.ok a, { w with stores })

/-- Writes a pattern under a version. -/
def writePattern (p : Pattern) (expected : Nat) : StateM World (Except StoreError Pattern) := do
  match ← meetOutage .patterns (some (.versionConflict p.key.text expected (expected + 1))) with
  | some e => return .error e
  | none =>
    modifyGet fun w =>
      match w.stores.patterns.write p expected with
      | .ok (patterns, saved) => (.ok saved, { w with stores := { w.stores with patterns } })
      | .error e => (.error e, w)

/-- Reads the pattern of a key. -/
def readPattern (tenant : TenantId) (key : PatternKey) :
    StateM World (Except StoreError (Option Pattern)) :=
  ask .patterns fun s => .ok (s.patterns.get tenant key)

end World
end Estimating
