/-
Rules: how much of each item a kind of room needs.

* `ItemKind` — labor, material, or an item that no rule knows;
* `Rule` — a tenant's rule for one rule key: an expression for each of its items;
* `Rule.entries` — the items with their expressions, labor first, each section in order;
* `Rule.fault?` — what is wrong with a rule, if anything; its expressions are not looked into.
-/
import Estimating.Owned
import Estimating.Project.Key
import Estimating.Timestamp

set_option autoImplicit false

namespace Estimating

/-! ### Kinds of items -/

/-- The kind of an item of a quote. -/
inductive ItemKind
  | labor
  | material
  | /-- An item that was added by hand. -/
    custom
deriving DecidableEq, Repr

namespace ItemKind

/-- The name of a kind. -/
def name : ItemKind → String
  | labor => "labor"
  | material => "material"
  | custom => "custom"

/-- The kind of a name. -/
def ofName? : String → Option ItemKind
  | "labor" => some labor
  | "material" => some material
  | "custom" => some custom
  | _ => none

theorem ofName?_name (k : ItemKind) : ofName? k.name = some k := by cases k <;> rfl

/-- A kind as JSON. -/
def toJson (k : ItemKind) : Json := .string k.name

/-- The kind that a JSON constant names. -/
def ofJson? (j : Json) : Option ItemKind := (Json.name? j).bind ofName?

end ItemKind

/-! ### Rules -/

/-- One item of a rule. -/
structure Entry where
  kind : ItemKind
  item : String
  /-- The expression for its quantity. -/
  expression : String
deriving DecidableEq, Repr

/-- What is wrong with a rule. -/
inductive RuleFault
  | noItem (key : RuleKey)
  | badItem (kind : ItemKind) (item : String)
  | blankExpression (kind : ItemKind) (item : String)
  | inBothSections (item : String)
deriving DecidableEq, Repr

/-- The wording of a rule fault. -/
def RuleFault.message : RuleFault → String
  | noItem key => "rule '" ++ key.text ++ "' must define at least one labor or materials item"
  | badItem kind item =>
    kind.name ++ " item ref '" ++ item ++ "' must be non-empty and must not contain '|'"
  | blankExpression kind item => kind.name ++ " item '" ++ item ++ "' has an empty expression"
  | inBothSections item => "item ref '" ++ item ++ "' appears in both labor and materials"

/-- What is wrong with an entry, if anything. -/
def Entry.fault? (e : Entry) : Option RuleFault :=
  if !isItemRef e.item then some (.badItem e.kind e.item)
  else if Text.allBlank e.expression then some (.blankExpression e.kind e.item)
  else none

/-- A tenant's rule. -/
structure Rule where
  tenant : TenantId
  key : RuleKey
  /-- Expressions for labor, by the code of its rate. -/
  labor : Table String String
  /-- Expressions for materials, by their article number. -/
  materials : Table String String
  createdAt : Timestamp
  updatedAt : Timestamp

namespace Rule

/-- Where a rule is kept. -/
def place (r : Rule) : Owned RuleKey := ⟨r.tenant, r.key⟩

/-- The items of one section. -/
def sectionEntries (kind : ItemKind) (items : Table String String) : List Entry :=
  items.toList.map fun e => ⟨kind, e.1, e.2⟩

/-- All items: labor first, each section in the order of its items. -/
def entries (r : Rule) : List Entry :=
  sectionEntries .labor r.labor ++ sectionEntries .material r.materials

/-- How many items there are. -/
def size (r : Rule) : Nat := r.labor.size + r.materials.size

/-- What is wrong with a rule, if anything.  A rule has items, each of them has a usable name and an
expression, and none is in both sections; the first of these that fails is reported. -/
def fault? (r : Rule) : Option RuleFault :=
  if r.labor.isEmpty && r.materials.isEmpty then some (.noItem r.key)
  else
    (r.entries.findSome? Entry.fault?).or
      ((r.labor.keys.find? fun item => r.materials.contains item).map .inBothSections)

/-! ### JSON -/

/-- A section as JSON. -/
def sectionToJson (items : Table String String) : Json := Json.ofTable .string items

/-- The section that a JSON object gives. -/
def sectionOfJson? : Json → Option (Table String String) := Json.table? Json.text?

/-- A rule as JSON. -/
def toJson (r : Rule) : Json :=
  .object (
    Json.member "tenant" (.string r.tenant) ++
    Json.member "key" r.key.toJson ++
    Json.member "labor" (sectionToJson r.labor) ++
    Json.member "materials" (sectionToJson r.materials) ++
    Json.member "created_at" r.createdAt.toJson ++
    Json.member "updated_at" r.updatedAt.toJson)

/-- The rule that a JSON record gives. -/
def ofJson? : Json → Option Rule := Json.record? do
  let tenant ← Json.required "tenant" Json.text?
  let key ← Json.required "key" RuleKey.ofJson?
  let labor ← Json.withDefault "labor" sectionOfJson? ∅
  let materials ← Json.withDefault "materials" sectionOfJson? ∅
  let createdAt ← Json.required "created_at" Timestamp.ofJson?
  let updatedAt ← Json.required "updated_at" Timestamp.ofJson?
  return ⟨tenant, key, labor, materials, createdAt, updatedAt⟩

end Rule
end Estimating
