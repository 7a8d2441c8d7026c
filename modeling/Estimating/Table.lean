/-
Finite tables with an order on their keys.

Every collection that is looked up by name is a table: listing it gives the keys in order, and two
tables that answer every lookup alike are equal.

* `Table` — a finite map; `Table.ext_get` is its extensionality, and `Table.get_insert` and
  `Table.get_erase` say what a lookup finds after a change;
* `Table.ofList` — the table of a list of entries, of which the last one of a key counts;
  `Table.get_ofList_map_toList` says what the table of the changed entries of another one holds;
* `Table.keys`, `Table.values` — the keys and the values, both in the order of the keys.
-/
import Std.Data.ExtTreeMap

set_option autoImplicit false

namespace Estimating

/-- A finite map from `κ` to `α`. -/
abbrev Table (κ α : Type) [Ord κ] := Std.ExtTreeMap κ α

namespace Table

variable {κ α : Type} [Ord κ] [Std.TransOrd κ]

/-- The table of a list of entries; of several entries with one key the last counts. -/
def ofList (entries : List (κ × α)) : Table κ α := entries.foldl (fun t e => t.insert e.1 e.2) ∅

/-- The keys, in their order. -/
def keys (t : Table κ α) : List κ := t.toList.map Prod.fst

/-- The values, in the order of their keys. -/
def values (t : Table κ α) : List α := t.toList.map Prod.snd

theorem mem_keys [Std.LawfulEqOrd κ] {t : Table κ α} {k : κ} : k ∈ keys t ↔ k ∈ t := by
  rw [keys, Std.ExtTreeMap.map_fst_toList_eq_keys, Std.ExtTreeMap.mem_keys]

/-- After an insertion a lookup finds the new value at its key, and elsewhere what it found
before. -/
theorem get_insert [Std.LawfulEqOrd κ] [DecidableEq κ] (t : Table κ α) (k k' : κ) (a : α) :
    (t.insert k a)[k']? = if k = k' then some a else t[k']? := by
  rw [Std.ExtTreeMap.getElem?_insert]
  simp only [Std.compare_eq_iff_eq]

/-- After a removal a lookup finds nothing at its key, and elsewhere what it found before. -/
theorem get_erase [Std.LawfulEqOrd κ] [DecidableEq κ] (t : Table κ α) (k k' : κ) :
    (t.erase k)[k']? = if k = k' then none else t[k']? := by
  rw [Std.ExtTreeMap.getElem?_erase]
  simp only [Std.compare_eq_iff_eq]

theorem ofList_eq (entries : List (κ × α)) : ofList entries = Std.ExtTreeMap.ofList entries := by
  rw [ofList, Std.ExtTreeMap.ofList_eq_insertMany_empty, Std.ExtTreeMap.insertMany_list_eq_foldl]

/-- The entries of a table, with a function applied to their values, make a table with the function
applied to what is found in it. -/
theorem get_ofList_map_toList [Std.LawfulEqOrd κ] [DecidableEq κ] {β : Type} (t : Table κ α)
    (f : α → β) (k : κ) : (ofList (t.toList.map fun e => (e.1, f e.2)))[k]? = t[k]?.map f := by
  rw [ofList_eq]
  cases hk : t[k]? with
  | some a =>
      have hmem : (k, a) ∈ t.toList := Std.ExtTreeMap.mem_toList_iff_getElem?_eq_some.2 hk
      exact Std.ExtTreeMap.getElem?_ofList_of_mem Std.ReflCmp.compare_self
        (List.pairwise_map.2 Std.ExtTreeMap.distinct_keys_toList)
        (List.mem_map_of_mem (f := fun e => (e.1, f e.2)) hmem)
  | none =>
      refine Std.ExtTreeMap.getElem?_ofList_of_contains_eq_false ?_
      rw [← Bool.not_eq_true, List.contains_iff_mem, List.map_map]
      intro hmem
      obtain ⟨⟨k', a⟩, he, rfl⟩ := List.mem_map.1 hmem
      cases hk.symm.trans (Std.ExtTreeMap.mem_toList_iff_getElem?_eq_some.1 he)

/-- Tables that answer every lookup alike are equal. -/
theorem ext_get [Std.LawfulEqOrd κ] {s t : Table κ α} (h : ∀ k : κ, s[k]? = t[k]?) : s = t :=
  Std.ExtTreeMap.ext_getElem? h

end Table
end Estimating
