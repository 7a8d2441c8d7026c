/-
Stores of rules and of quotes.

* `RuleStore` — the rules of all tenants.  A rule that replaces another one keeps the time at which
  the first was created;
* `QuoteStore` — under which rule each quote was generated;
* `RuleStore.get_put`, `RuleStore.get_delete`, `QuoteStore.get_bind` — what is read after a change.
-/
import Estimating.Project.Rule

set_option autoImplicit false

namespace Estimating

/-- The rules of all tenants. -/
abbrev RuleStore := Table (Owned RuleKey) Rule

namespace RuleStore

/-- The rule of a key. -/
def get (s : RuleStore) (tenant : TenantId) (key : RuleKey) : Option Rule :=
  s[(⟨tenant, key⟩ : Owned RuleKey)]?

/-- The rule as it is stored: created when the rule that it replaces was. -/
def succeed (s : RuleStore) (r : Rule) : Rule :=
  match s.get r.tenant r.key with
  | some old => { r with createdAt := old.createdAt }
  | none => r

/-- Stores a rule. -/
def put (s : RuleStore) (r : Rule) : RuleStore := s.insert r.place (s.succeed r)

/-- Reading after a rule has been stored: it is found under its own tenant and key only. -/
theorem get_put (s : RuleStore) (r : Rule) (tenant : TenantId) (key : RuleKey) :
    (s.put r).get tenant key =
      if r.tenant = tenant ∧ r.key = key then some (s.succeed r) else s.get tenant key := by
  simp only [get, put, Table.get_insert, Rule.place, Owned.mk.injEq]

/-- The rules of a tenant, in the order of their keys. -/
def list (s : RuleStore) (tenant : TenantId) : List Rule := Owned.list s tenant

/-- Removes a rule; also tells whether there was one. -/
def delete (s : RuleStore) (tenant : TenantId) (key : RuleKey) : RuleStore × Bool :=
  (s.erase ⟨tenant, key⟩, s.contains ⟨tenant, key⟩)

/-- Reading after a removal: only what was removed is gone. -/
theorem get_delete (s : RuleStore) (tenant tenant' : TenantId) (key key' : RuleKey) :
    (s.delete tenant key).1.get tenant' key' =
      if tenant = tenant' ∧ key = key' then none else s.get tenant' key' := by
  simp only [get, delete, Table.get_erase, Owned.mk.injEq]

end RuleStore

/-- The name of a quote. -/
abbrev QuoteId := String

/-- The first eight characters of a name, for display. -/
def QuoteId.short (id : QuoteId) : String := String.ofList (id.toList.take 8)

/-- The key of the rule that each quote was generated under. -/
abbrev QuoteStore := Table (Owned QuoteId) RuleKey

namespace QuoteStore

/-- Notes the rule of a quote. -/
def bind (s : QuoteStore) (tenant : TenantId) (quote : QuoteId) (key : RuleKey) : QuoteStore :=
  s.insert ⟨tenant, quote⟩ key

/-- The rule of a quote. -/
def get (s : QuoteStore) (tenant : TenantId) (quote : QuoteId) : Option RuleKey :=
  s[(⟨tenant, quote⟩ : Owned QuoteId)]?

/-- Reading after a quote has been bound: only that quote has another rule. -/
theorem get_bind (s : QuoteStore) (tenant tenant' : TenantId) (quote quote' : QuoteId)
    (key : RuleKey) :
    (s.bind tenant quote key).get tenant' quote' =
      if tenant = tenant' ∧ quote = quote' then some key else s.get tenant' quote' := by
  simp only [get, bind, Table.get_insert, Owned.mk.injEq]

end QuoteStore
end Estimating
