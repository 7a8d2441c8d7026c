/-
Bindings and their JSON text.

Numbers and tags are both written as strings, and a string is read as a number wherever it can be.  A
number comes back as it was, but for the sign of a zero.  A tag comes back as a tag unless its text
writes a decimal, and there are more such texts than a decimal is written as: digits with underscores
among them, a plus sign in front, a power of ten behind.  All of them have a digit, and they begin
with one, with the point or with a sign; the names of rooms and finish levels do not.

* `Decimal.Numberlike` — how a text that writes a decimal looks at least, and
  `Decimal.numberlike_of_ofText?`;
* `Json.exists_table?_ofTable` — tables are read back as their values are;
* `Binding.reread` — what a binding is read back as, and `Binding.ofJson?_toJson`;
* `Binding.Agree`, `Bindings.Agree` — the same bindings, but for the signs of zeros;
* `Requirements.plain_of_tag` — the tags of a project write no decimals;
* `Bindings.reread`, `Bindings.exists_reread` — the bindings that are read from their text;
* `Bindings.reread_agrees_iff` — **bindings survive exactly if no tag writes a decimal**;
* `Bindings.reread_loses_tag` — a tag that comes back as a number.
-/
import Estimating.Bindings
import Estimating.Proofs.Decimal.Numerals
import Estimating.Proofs.Json.Texts
import Estimating.Proofs.Project.Identifiers

set_option autoImplicit false

namespace Estimating

/-! ### Texts of decimals -/

namespace Decimal

variable {cs : List Char}

/-- What is true of every text that writes a decimal: it has a digit, and it begins with a digit, with
the point or with a sign. -/
structure Numberlike (cs : List Char) : Prop where
  digit : ∃ c ∈ cs, c.isDigit = true
  head : ∃ c ∈ cs.head?, c.isDigit = true ∨ c = '.' ∨ c = '-' ∨ c = '+'

/-- Digits are read to their end only if there is one. -/
theorem exists_digit_of_readDigits {p : Nat × Nat} : ∀ {m : Nat} {fraction : Option Nat}
    {started resumed : Bool}, readDigits m fraction started resumed cs = .ok p →
      started = true ∨ ∃ c ∈ cs, c.isDigit = true := by
  induction cs with
  | nil =>
      intro m fraction started resumed h
      rw [readDigits] at h
      split at h
      · exact .inl ‹_›
      · cases h
  | cons c cs ih =>
      intro m fraction started resumed h
      rw [readDigits] at h
      split at h
      · split at h
        · cases h
        · next hstarted => exact .inl (by simpa using hstarted)
      · split at h
        · split at h
          · refine (ih h).imp_right fun hexists => ?_
            obtain ⟨d, hd, hdigit⟩ := hexists
            exact ⟨d, List.mem_cons_of_mem _ hd, hdigit⟩
          · cases h
        · split at h
          · exact .inr ⟨c, List.mem_cons_self, ‹_›⟩
          · cases h

/-- They begin with one, or with the point. -/
theorem exists_head_of_readDigits {p : Nat × Nat} {m : Nat} {fraction : Option Nat}
    {resumed : Bool} (h : readDigits m fraction false resumed cs = .ok p) :
    ∃ c ∈ cs.head?, c.isDigit = true ∨ c = '.' := by
  cases cs with
  | nil => cases h
  | cons c cs =>
      refine ⟨c, rfl, ?_⟩
      rw [readDigits] at h
      split at h
      · cases h
      · split at h
        · next hpoint => exact .inr (eq_of_beq hpoint)
        · split at h
          · exact .inl ‹_›
          · cases h

theorem takeSign_eq (cs : List Char) : (takeSign cs).2 = cs ∨
    ∃ c, cs = c :: (takeSign cs).2 ∧ (c = '-' ∨ c = '+') := by
  unfold takeSign
  split
  · exact .inr ⟨_, rfl, .inl rfl⟩
  · exact .inr ⟨_, rfl, .inr rfl⟩
  · exact .inl rfl

theorem numberlike_of_readPlain {x : Decimal} (h : readPlain cs = .ok x) : Numberlike cs := by
  obtain ⟨p, hp⟩ : ∃ p, readDigits 0 none false false (takeSign cs).2 = .ok p := by
    simp only [readPlain] at h
    split at h
    · cases h
    · exact ⟨_, ‹_›⟩
  obtain ⟨d, hd, hdigit⟩ := (exists_digit_of_readDigits hp).resolve_left Bool.false_ne_true
  obtain ⟨c, hc, hhead⟩ := exists_head_of_readDigits hp
  rcases takeSign_eq cs with heq | ⟨sign, heq, hsign⟩
  · rw [heq] at hd hc
    exact ⟨⟨d, hd, hdigit⟩, c, hc, hhead.imp_right .inl⟩
  · rw [heq]
    exact ⟨⟨d, List.mem_cons_of_mem _ hd, hdigit⟩, sign, rfl, .inr (.inr hsign)⟩

/-- A text looks like a number if what stands in front of its exponent does. -/
theorem Numberlike.extend {ds : List Char} (h : Numberlike cs) (hfront : cs <+: ds) :
    Numberlike ds := by
  obtain ⟨rest, rfl⟩ := hfront
  obtain ⟨c, hc, hhead⟩ := h.head
  obtain ⟨d, hd, hdigit⟩ := h.digit
  refine ⟨⟨d, List.mem_append_left _ hd, hdigit⟩, c, ?_, hhead⟩
  rw [List.head?_append, hc]
  rfl

/-- **Texts that write decimals look like numbers.** -/
theorem numberlike_of_ofText? {s : String} {x : Decimal} (h : ofText? s = some x) :
    Numberlike s.toList := by
  unfold ofText? read at h
  split at h
  · next hplain => exact numberlike_of_readPlain hplain
  · split at h
    · next hscientific =>
        simp only [readScientific] at hscientific
        split at hscientific
        · next hplain _ => exact (numberlike_of_readPlain hplain).extend (List.takeWhile_prefix _)
        · next hplain _ => exact (numberlike_of_readPlain hplain).extend (List.takeWhile_prefix _)
        · cases hscientific
    · cases h

end Decimal

/-! ### Bindings that are read back -/

/-- If values of one kind are read back as `f` says, so are the values of a table. -/
theorem Json.exists_table?_ofTable {α : Type} {item? : Json → Option α} {toJson : α → Json}
    {f : α → α} (h : ∀ a, item? (toJson a) = some (f a)) (t : Table String α) :
    ∃ t' : Table String α, table? item? (ofTable toJson t) = some t' ∧
      ∀ name : String, t'[name]? = t[name]?.map f := by
  have hmembers : (t.toList.map fun e => (e.1, toJson e.2)).mapM
      (fun m => (item? m.2).map fun a => (m.1, a)) = some (t.toList.map fun e => (e.1, f e.2)) := by
    rw [List.mapM_map]
    simp only [Function.comp_def, h, Option.map_some]
    exact List.mapM_pure
  refine ⟨_, ?_, Table.get_ofList_map_toList t f⟩
  rw [ofTable, table?, hmembers, Option.map_some]

namespace Binding

/-- What the JSON string of a binding is read as. -/
def reread : Binding → Binding
  | number x => number x.settled
  | tag s =>
    match Decimal.ofText? s with
    | some x => number x
    | none => tag s

theorem ofJson?_toJson (b : Binding) : ofJson? b.toJson = some b.reread := by
  cases b with
  | number x =>
      have hx : Decimal.ofJson? (number x).toJson = some x.settled := Decimal.ofText?_text x
      rw [ofJson?, hx]
      rfl
  | tag s =>
      have hs : Decimal.ofJson? (tag s).toJson = Decimal.ofText? s := rfl
      rw [ofJson?, hs, reread]
      cases Decimal.ofText? s <;> rfl

theorem textual_toJson (b : Binding) : b.toJson.Textual := by
  cases b with
  | number x => exact .string _
  | tag s => exact .string s

/-- The same tag, or numbers with the same digits and the same scale.  Only the sign of a zero may
differ. -/
inductive Agree : Binding → Binding → Prop
  | number {x y : Decimal} (coeff : x.coeff = y.coeff) (scale : x.scale = y.scale) :
      Agree (number x) (number y)
  | tag (s : String) : Agree (tag s) (tag s)

/-- A binding is read back unless it is a tag that writes a decimal. -/
theorem agree_reread_iff {b : Binding} :
    b.Agree b.reread ↔ ∀ s, b = tag s → Decimal.ofText? s = none := by
  cases b with
  | number x => exact iff_of_true (.number (x.coeff_settled).symm (x.scale_settled).symm) nofun
  | tag s =>
      rw [reread]
      cases hs : Decimal.ofText? s with
      | none =>
          refine iff_of_true (.tag s) fun s' h => ?_
          cases h
          exact hs
      | some x =>
          refine iff_of_false nofun fun h => ?_
          cases hs.symm.trans (h s rfl)

end Binding

/-- The only tags among what requirements bind are the names of a finish and of a room, and these do
not write decimals. -/
theorem Requirements.plain_of_tag (r : Requirements) {name s : String}
    (h : r.bindings[name]? = some (Binding.tag s)) : Decimal.ofText? s = none := by
  rw [get_bindings] at h
  split at h
  · cases h
    cases r.finish <;> decide +kernel
  split at h
  · cases h
    cases r.room <;> decide +kernel
  split at h
  · cases h
  split at h
  · cases h
  split at h
  · cases h
  · cases hextra : r.extra[name]? with
    | none => simp [hextra] at h
    | some x => simp [hextra] at h

namespace Bindings

/-- What is read from the text of bindings. -/
def reread (b : Bindings) : Option Bindings := (Json.parse b.toJson.compact).bind ofJson?

theorem parse_toJson (b : Bindings) : Json.parse b.toJson.compact = some b.toJson := by
  refine Json.parse_compact (.object _ fun m hm => ?_)
  obtain ⟨e, -, rfl⟩ := List.mem_map.1 hm
  exact e.2.textual_toJson

/-- **The text of bindings is read**, every name as its own binding is. -/
theorem exists_reread (b : Bindings) : ∃ b' : Bindings, b.reread = some b' ∧
    ∀ name : String, b'[name]? = b[name]?.map Binding.reread := by
  obtain ⟨b', htable, hget⟩ := Json.exists_table?_ofTable Binding.ofJson?_toJson b
  refine ⟨b', ?_, hget⟩
  rw [reread, parse_toJson]
  exact htable

/-- The same names, and the same bindings but for the signs of zeros. -/
def Agree (b b' : Bindings) : Prop :=
  ∀ name : String, Option.Rel Binding.Agree b[name]? b'[name]?

/-- **Bindings survive exactly if no tag writes a decimal**: then the names and tags are the same, and
the numbers have the same digits and scales.  A tag that writes a decimal comes back as that number,
and it looks like a number.  So bindings that come from the requirements of a project survive. -/
theorem reread_agrees_iff (b : Bindings) : ∃ b' : Bindings, b.reread = some b' ∧
    (b.Agree b' ↔ ∀ name s : String, b[name]? = some (Binding.tag s) → Decimal.ofText? s = none) ∧
    (∀ (name s : String) (x : Decimal), b[name]? = some (Binding.tag s) → Decimal.ofText? s = some x →
      b'[name]? = some (Binding.number x) ∧ Decimal.Numberlike s.toList) ∧
    (∀ r : Requirements, r.bindings = b → b.Agree b') := by
  obtain ⟨b', hreread, hget⟩ := b.exists_reread
  have hiff : b.Agree b' ↔
      ∀ name s : String, b[name]? = some (Binding.tag s) → Decimal.ofText? s = none := by
    refine forall_congr' fun name => ?_
    rw [hget]
    cases hname : b[name]? with
    | none => exact iff_of_true .none nofun
    | some a =>
        have hrel : Option.Rel Binding.Agree (some a) (some a.reread) ↔ a.Agree a.reread :=
          ⟨fun | .some h => h, .some⟩
        rw [Option.map_some, hrel, Binding.agree_reread_iff]
        simp only [Option.some.injEq]
  refine ⟨b', hreread, hiff, fun name s x hname hs => ⟨?_, Decimal.numberlike_of_ofText? hs⟩, ?_⟩
  · rw [hget, hname, Option.map_some, Binding.reread, hs]
  · rintro r rfl
    exact hiff.2 fun _ _ => r.plain_of_tag

/-- The tag `1e3` alone. -/
def powerTag : Bindings := Table.ofList [("a", .tag "1e3")]

/-- It comes back as a thousand. -/
theorem reread_loses_tag : powerTag["a"]? = some (Binding.tag "1e3") ∧
    ∃ b' : Bindings, powerTag.reread = some b' ∧
      b'["a"]? = some (Binding.number (.whole 1000)) ∧
      ¬ powerTag.Agree b' := by
  have ha : powerTag["a"]? = some (Binding.tag "1e3") := by
    rw [powerTag, Table.ofList_eq]
    exact Std.ExtTreeMap.getElem?_ofList_of_mem Std.ReflCmp.compare_self (by decide) (by simp)
  have hthousand : Decimal.ofText? "1e3" = some (.whole 1000) := by decide +kernel
  obtain ⟨b', hreread, hget⟩ := exists_reread powerTag
  have ha' : b'["a"]? = some (Binding.number (.whole 1000)) := by
    rw [hget, ha, Option.map_some, Binding.reread, hthousand]
  refine ⟨ha, b', hreread, ha', fun hagree => ?_⟩
  have hrel := hagree "a"
  rw [ha, ha'] at hrel
  cases hrel with
  | some h => cases h

end Bindings
end Estimating
