/-
The two kinds of log answer alike.

A log that is kept as a text has one line for each entry, and reading it undoes the writing.  One
thing is lost on the way: a zero with a minus sign comes back without the sign.  The log that is
kept in memory hands back the entries as they were.

* `LogEntry.settled` — an entry with the signs of zeros removed; its fields are the same, with
  numbers taken by value and scale (`LogEntry.same_settled`), and `LogEntry.settled_eq_self_iff`
  says when nothing changes;
* `LogEntry.ofJson?_toJson`, `LogEntry.ofLine?_line` — **an entry is read back**, from its record
  and from its line;
* `pieces_append`, `textLines_textOf` — **the lines of the text are the lines of the entries**;
* `Log.foldl_append_lines` — what a log holds after given additions;
* `Log.ofQuote_foldl_append` — **both kinds list the same entries**.
-/
import Estimating.Correction.Log
import Estimating.Proofs.Correction.Forms
import Estimating.Proofs.Json.Texts
import Estimating.Proofs.Results

set_option autoImplicit false

namespace Estimating

/-! ### Entries -/

/-- The value and the scale of a number. -/
def Decimal.parts (x : Decimal) : Int × Nat := (x.coeff, x.scale)

theorem Decimal.parts_settled (x : Decimal) : x.settled.parts = x.parts := by
  rw [parts, parts, coeff_settled, scale_settled]

theorem Decimal.ofJson?_toJson (x : Decimal) : ofJson? x.toJson = some x.settled := by
  rw [toJson, ofJson?, ofText?_text]

theorem ItemKind.ofJson?_toJson (k : ItemKind) : ofJson? k.toJson = some k := by
  rw [ofJson?, toJson, Json.name?, Option.bind_some, ofName?_name]

namespace LogEntry

/-- The entry with the signs of zeros removed. -/
def settled (e : LogEntry) : LogEntry :=
  { e with
    oldQty := e.oldQty.settled
    newQty := e.newQty.settled
    oldUnitPrice := e.oldUnitPrice.map .settled
    newUnitPrice := e.newUnitPrice.map .settled }

/-- The numbers of an entry. -/
def numbers (e : LogEntry) : List Decimal :=
  e.oldQty :: e.newQty :: (e.oldUnitPrice.toList ++ e.newUnitPrice.toList)

/-- All fields of two entries are equal, where numbers are equal if value and scale are. -/
structure Same (e e' : LogEntry) : Prop where
  id : e.id = e'.id
  tenant : e.tenant = e'.tenant
  quote : e.quote = e'.quote
  item : e.item = e'.item
  kind : e.kind = e'.kind
  oldQty : e.oldQty.parts = e'.oldQty.parts
  newQty : e.newQty.parts = e'.newQty.parts
  oldUnitPrice : e.oldUnitPrice.map Decimal.parts = e'.oldUnitPrice.map Decimal.parts
  newUnitPrice : e.newUnitPrice.map Decimal.parts = e'.newUnitPrice.map Decimal.parts
  reason : e.reason = e'.reason
  createdAt : e.createdAt = e'.createdAt

theorem same_settled (e : LogEntry) : e.settled.Same e := by
  have hoption (o : Option Decimal) : (o.map .settled).map Decimal.parts = o.map Decimal.parts := by
    rw [Option.map_map]
    exact congrArg (Option.map · o) (funext Decimal.parts_settled)
  exact ⟨rfl, rfl, rfl, rfl, rfl, Decimal.parts_settled _, Decimal.parts_settled _, hoption _,
    hoption _, rfl, rfl⟩

/-- Nothing changes exactly if no number is a zero with a minus sign. -/
theorem settled_eq_self_iff {e : LogEntry} :
    e.settled = e ↔ ∀ x ∈ e.numbers, ¬ (x.isZero = true ∧ x.negative = true) := by
  have hoption (o : Option Decimal) : o.map .settled = o ↔
      ∀ x ∈ o, ¬ (x.isZero = true ∧ x.negative = true) := by
    cases o with
    | none => simp
    | some x => simpa using Decimal.settled_eq_self_iff (x := x)
  cases e
  simp only [settled, numbers, LogEntry.mk.injEq, true_and, and_true, hoption,
    Decimal.settled_eq_self_iff, List.forall_mem_cons, List.forall_mem_append, Option.mem_toList,
    Option.mem_def]

/-! ### Records -/

/-- The names of the fields of an entry. -/
def fieldNames : List String :=
  ["id", "tenant", "quote_id", "item_ref", "item_kind", "original_qty", "adjusted_qty",
    "original_unit_price", "adjusted_unit_price", "reason", "created_at"]

/-- The members of the record of an entry. -/
def members (e : LogEntry) : Json.Members :=
  Json.member "id" e.id.toJson ++
  Json.member "tenant" (.string e.tenant) ++
  Json.member "quote_id" (.string e.quote) ++
  Json.member "item_ref" (.string e.item) ++
  Json.member "item_kind" e.kind.toJson ++
  Json.member "original_qty" e.oldQty.toJson ++
  Json.member "adjusted_qty" e.newQty.toJson ++
  Json.memberIf "original_unit_price" Decimal.toJson e.oldUnitPrice ++
  Json.memberIf "adjusted_unit_price" Decimal.toJson e.newUnitPrice ++
  Json.memberIf "reason" .string e.reason ++
  Json.member "created_at" e.createdAt.toJson

theorem toJson_eq (e : LogEntry) : e.toJson = .object e.members := rfl

/-- Fields that are written have different names. -/
theorem nodup_members (e : LogEntry) : (e.members.map Prod.fst).Nodup := by
  have hsublist : (e.members.map Prod.fst).Sublist fieldNames := by
    unfold members
    cases e.oldUnitPrice <;> cases e.newUnitPrice <;> cases e.reason <;>
      simp [Json.member, Json.memberIf, fieldNames]
  exact hsublist.nodup (by decide)

/-- All values in the record of an entry are strings. -/
theorem textual_toJson (e : LogEntry) : e.toJson.Textual := by
  refine .object e.members fun m hm => ?_
  simp only [members, Json.member, List.mem_append, List.mem_singleton] at hm
  rcases hm with (((((((((rfl | rfl) | rfl) | rfl) | rfl) | rfl) | rfl) | hm) | hm) | hm) | rfl
  case inl.inl.inl.inr => exact .of_memberIf (fun _ => .string _) hm
  case inl.inl.inr => exact .of_memberIf (fun _ => .string _) hm
  case inl.inr => exact .of_memberIf (fun _ => .string _) hm
  all_goals exact .string _

open Json in
/-- **An entry is read back from its record.** -/
theorem ofJson?_toJson {e : LogEntry} (h : e.createdAt.Ordinary) :
    ofJson? e.toJson = some e.settled := by
  have hnodup := e.nodup_members
  have htext (s : String) : text? (.string s) = some s := rfl
  have hdecimal (x : Decimal) : x.toJson ≠ .null := Json.noConfusion
  -- a field that is absent has no member
  have holdUnitPrice (hnone : e.oldUnitPrice = none) :
      "original_unit_price" ∉ e.members.map Prod.fst := by
    simp [members, member, mem_names_memberIf, hnone]
  have hnewUnitPrice (hnone : e.newUnitPrice = none) :
      "adjusted_unit_price" ∉ e.members.map Prod.fst := by
    simp [members, member, mem_names_memberIf, hnone]
  have hreason (hnone : e.reason = none) : "reason" ∉ e.members.map Prod.fst := by
    simp [members, member, mem_names_memberIf, hnone]
  have hrun : ∃ r : Record LogEntry, ofJson? = record? r ∧
      r.run (.members e.members) = some (e.settled, .members e.members) := by
    refine ⟨_, rfl, ?_⟩
    refine (run_bind_of_eq_some (run_required hnodup (by simp [members, member])
      e.id.ofJson?_toJson)).trans ?_
    refine (run_bind_of_eq_some (run_required hnodup (by simp [members, member])
      (htext e.tenant))).trans ?_
    refine (run_bind_of_eq_some (run_required hnodup (by simp [members, member])
      (htext e.quote))).trans ?_
    refine (run_bind_of_eq_some (run_required hnodup (by simp [members, member])
      (htext e.item))).trans ?_
    refine (run_bind_of_eq_some (run_required hnodup (by simp [members, member])
      e.kind.ofJson?_toJson)).trans ?_
    refine (run_bind_of_eq_some (run_required hnodup (by simp [members, member])
      e.oldQty.ofJson?_toJson)).trans ?_
    refine (run_bind_of_eq_some (run_required hnodup (by simp [members, member])
      e.newQty.ofJson?_toJson)).trans ?_
    refine (run_bind_of_eq_some (run_optional e.oldUnitPrice hnodup
      (fun x hx => by simp [members, memberIf, Option.mem_def.1 hx]) holdUnitPrice hdecimal
      Decimal.ofJson?_toJson)).trans ?_
    refine (run_bind_of_eq_some (run_optional e.newUnitPrice hnodup
      (fun x hx => by simp [members, memberIf, Option.mem_def.1 hx]) hnewUnitPrice hdecimal
      Decimal.ofJson?_toJson)).trans ?_
    refine (run_bind_of_eq_some (run_optional e.reason hnodup
      (fun s hs => by simp [members, memberIf, Option.mem_def.1 hs]) hreason
      (fun _ => Json.noConfusion) htext)).trans ?_
    refine (run_bind_of_eq_some (run_required hnodup (by simp [members, member])
      (Timestamp.ofJson?_toJson h))).trans ?_
    rw [Option.map_id']
    rfl
  obtain ⟨r, hr, hrun⟩ := hrun
  rw [hr, toJson_eq, record?, Record.read, hrun]

/-! ### Lines -/

/-- **An entry is read back from its line.** -/
theorem ofLine?_line {e : LogEntry} (h : e.createdAt.Ordinary) :
    ofLine? e.line = some e.settled := by
  rw [ofLine?, line, Json.parse_compact e.textual_toJson, Option.bind_some, ofJson?_toJson h]

/-- There is no line break within a line. -/
theorem newline_not_mem_line (e : LogEntry) : '\n' ∉ e.line.toList := by
  rw [line, Json.compact, String.toList_ofList]
  exact fun h => absurd (e.textual_toJson.toNat_ge _ h) (by decide)

/-- A line is not blank. -/
theorem allBlank_line (e : LogEntry) : Text.allBlank e.line = false := by
  have hbrace : e.line.toList =
      '\x7b' :: (Json.compactMembers e.members ++ ['\x7d']) := by
    rw [line, Json.compact, String.toList_ofList, toJson_eq, Json.compactChars]
    rfl
  rw [Text.allBlank, hbrace, List.all_cons]
  rfl

end LogEntry

theorem pieces_append {cs : List Char} (h : '\n' ∉ cs) (rest : List Char) :
    pieces (cs ++ '\n' :: rest) = cs :: pieces rest := by
  induction cs with
  | nil => rfl
  | cons c cs ih =>
      rw [List.mem_cons, not_or] at h
      rw [List.cons_append, pieces, if_neg (Ne.symm h.1), ih h.2]

/-- The text of entries: their lines, each with its end. -/
def textOf (es : List LogEntry) : String :=
  String.ofList (es.flatMap fun e => e.line.toList ++ ['\n'])

theorem textOf_cons (e : LogEntry) (es : List LogEntry) :
    textOf (e :: es) = e.line ++ "\n" ++ textOf es := by
  rw [textOf, textOf, List.flatMap_cons, String.ofList_append, String.ofList_append,
    String.ofList_toList]

/-- **The lines of the text are the lines of the entries**, and nothing stands behind the last. -/
theorem textLines_textOf (es : List LogEntry) :
    textLines (textOf es) = es.map LogEntry.line ++ [""] := by
  rw [textLines, textOf, String.toList_ofList]
  induction es with
  | nil => rfl
  | cons e es ih =>
      rw [List.flatMap_cons, List.append_assoc, List.singleton_append,
        pieces_append e.newline_not_mem_line, List.map_cons, ih, String.ofList_toList]
      rfl

theorem mapM_ofLine? {es : List LogEntry} (h : ∀ e ∈ es, e.createdAt.Ordinary) :
    (es.map LogEntry.line).mapM LogEntry.ofLine? = some (es.map LogEntry.settled) := by
  induction es with
  | nil => rfl
  | cons e es ih =>
      rw [List.forall_mem_cons] at h
      rw [List.map_cons, List.mapM_cons, LogEntry.ofLine?_line h.1, ih h.2]
      rfl

/-- **The text of entries is read as the entries.** -/
theorem readLines_textOf {es : List LogEntry} (h : ∀ e ∈ es, e.createdAt.Ordinary) :
    readLines (textOf es) = some (es.map LogEntry.settled) := by
  have hall : ∀ line ∈ es.map LogEntry.line, (!Text.allBlank line) = true := by
    intro line hline
    obtain ⟨e, -, rfl⟩ := List.mem_map.1 hline
    rw [e.allBlank_line]
    rfl
  have hlines : (textLines (textOf es)).filter (fun line => !Text.allBlank line) =
      es.map LogEntry.line := by
    rw [textLines_textOf, List.filter_append, List.filter_eq_self.2 hall]
    exact List.append_nil _
  rw [readLines, hlines, mapM_ofLine? h]

/-! ### Logs -/

namespace Log

theorem foldl_append_memory (es : List LogEntry) :
    ∀ entries, es.foldl append (.memory entries) = .memory (entries ++ es) := by
  induction es with
  | nil =>
      intro entries
      rw [List.append_nil]
      rfl
  | cons e es ih =>
      intro entries
      rw [List.foldl_cons, append, ih, List.append_assoc]
      rfl

theorem foldl_append_some (es : List LogEntry) :
    ∀ text, es.foldl append (.lines (some text)) = .lines (some (text ++ textOf es)) := by
  induction es with
  | nil =>
      intro text
      rw [textOf, List.flatMap_nil, String.ofList_nil, String.append_empty]
      rfl
  | cons e es ih =>
      intro text
      rw [List.foldl_cons, append, ih, textOf_cons, Option.getD_some, String.append_assoc,
        String.append_assoc, String.append_assoc]

/-- What a log of lines holds after additions: nothing before the first one, and then the text of
all entries. -/
theorem foldl_append_lines (es : List LogEntry) :
    es.foldl append (.lines none) = .lines (if es = [] then none else some (textOf es)) := by
  cases es with
  | nil => rfl
  | cons e es =>
      rw [List.foldl_cons, append, foldl_append_some, textOf_cons, Option.getD_none,
        String.empty_append, if_neg (List.cons_ne_nil e es)]

/-- All entries of a log of lines. -/
theorem entries_foldl_append_lines {es : List LogEntry} (h : ∀ e ∈ es, e.createdAt.Ordinary) :
    (es.foldl append (.lines none)).entries = .ok (es.map LogEntry.settled) := by
  rw [foldl_append_lines]
  split
  · next hnone =>
      subst hnone
      rfl
  · rw [entries, readLines_textOf h]

/-- The entries of a quote, of those that have been added. -/
def listed (es : List LogEntry) (tenant : TenantId) (quote : QuoteId) : List LogEntry :=
  (es.filter (·.isOf tenant quote)).reverse

theorem ofQuote_foldl_append_memory (es : List LogEntry) (tenant : TenantId) (quote : QuoteId) :
    (es.foldl append (.memory [])).ofQuote tenant quote = .ok (listed es tenant quote) := by
  rw [foldl_append_memory, List.nil_append]
  rfl

theorem ofQuote_foldl_append_lines {es : List LogEntry} (h : ∀ e ∈ es, e.createdAt.Ordinary)
    (tenant : TenantId) (quote : QuoteId) :
    (es.foldl append (.lines none)).ofQuote tenant quote =
      .ok ((listed es tenant quote).map LogEntry.settled) := by
  rw [ofQuote, entries_foldl_append_lines h]
  show Except.ok ((es.map LogEntry.settled).filter _).reverse = _
  rw [List.filter_map, ← List.map_reverse]
  rfl

/-- **Both kinds of log list the same entries**: those of the tenant's quote, the newest first,
after any additions of entries with instants of the years 0 to 9999.  The log in memory hands back
the entries as they were added.  The log of lines never fails, and hands them back with all their
fields, numbers with value and scale; it hands back the same entries unless a number is a zero with
a minus sign, which comes back without the sign.  Its text has one line for each entry, and there is
no line break within a line. -/
theorem ofQuote_foldl_append {es : List LogEntry} (h : ∀ e ∈ es, e.createdAt.Ordinary)
    (tenant : TenantId) (quote : QuoteId) :
    ∃ entries, (es.foldl append (.lines none)).ofQuote tenant quote = .ok entries ∧
      (es.foldl append (.memory [])).ofQuote tenant quote = .ok (listed es tenant quote) ∧
      List.Forall₂ LogEntry.Same entries (listed es tenant quote) ∧
      (entries = listed es tenant quote ↔ ∀ e ∈ listed es tenant quote, ∀ x ∈ e.numbers,
        ¬ (x.isZero = true ∧ x.negative = true)) ∧
      (∀ text, es.foldl append (.lines none) = .lines (some text) →
        textLines text = es.map LogEntry.line ++ [""]) ∧
      ∀ e ∈ es, '\n' ∉ e.line.toList := by
  refine ⟨_, ofQuote_foldl_append_lines h tenant quote, ofQuote_foldl_append_memory es tenant quote,
    ?_, ?_, ?_, fun e _ => e.newline_not_mem_line⟩
  · rw [List.forall₂_map_left_iff, List.forall₂_same]
    exact fun e _ => e.same_settled
  · have hself := List.map_inj_left (l := listed es tenant quote) (f := LogEntry.settled) (g := id)
    rw [List.map_id] at hself
    simp only [← LogEntry.settled_eq_self_iff]
    exact hself
  · intro text htext
    rw [foldl_append_lines] at htext
    split at htext
    · cases htext
    · cases htext
      exact textLines_textOf es

/-- A correction with a reason of two lines. -/
def twoLines : LogEntry where
  id := default
  tenant := "acme"
  quote := "q1"
  item := "tile"
  kind := .labor
  oldQty := .whole 10
  newQty := .tenths 115
  oldUnitPrice := none
  newUnitPrice := some (.hundredths 5000)
  reason := some "too low:\n\tten \"or so\""
  createdAt := ⟨⟨2024, 2, 29⟩, 754, 56, 123456789⟩

theorem ordinary_twoLines : twoLines.createdAt.Ordinary :=
  ⟨by decide, by decide, by decide, by decide, by decide⟩

/-- A later correction of the same quote, which takes the first one back. -/
def takenBack : LogEntry :=
  { twoLines with
    oldQty := .tenths 115
    newQty := .whole 10
    oldUnitPrice := some (.hundredths 5000)
    newUnitPrice := none
    reason := none
    createdAt := ⟨⟨2024, 3, 1⟩, 480, 0, 0⟩ }

/-- Between the two, a correction of another quote, and one of another tenant's quote of the same
name. -/
def additions : List LogEntry :=
  [twoLines, { twoLines with quote := "q2" }, { twoLines with tenant := "zenith" }, takenBack]

/-- Both logs list the two entries of the quote as they were, the later one first. -/
theorem ofQuote_twoLines :
    (∀ e ∈ additions, e.createdAt.Ordinary) ∧
      (additions.foldl append (.lines none)).ofQuote "acme" "q1" = .ok [takenBack, twoLines] ∧
      (additions.foldl append (.memory [])).ofQuote "acme" "q1" = .ok [takenBack, twoLines] := by
  have htakenBack : takenBack.createdAt.Ordinary :=
    ⟨by decide, by decide, by decide, by decide, by decide⟩
  have hordinary : ∀ e ∈ additions, e.createdAt.Ordinary := by
    simp only [additions, List.forall_mem_cons]
    exact ⟨ordinary_twoLines, ordinary_twoLines, ordinary_twoLines, htakenBack,
      List.forall_mem_nil _⟩
  obtain ⟨entries, hlines, hmemory, -, hsame, -⟩ := ofQuote_foldl_append hordinary "acme" "q1"
  have hlisted : listed additions "acme" "q1" = [takenBack, twoLines] := by decide
  rw [hlisted] at hmemory hsame
  exact ⟨hordinary, hlines.trans (congrArg Except.ok (hsame.2 (by decide))), hmemory⟩

/-- A correction of a zero with a minus sign. -/
def belowNothing : LogEntry := { twoLines with oldQty := ⟨true, 0, 28, by decide, by decide⟩ }

/-- The log in memory lists it with the sign, and the log of lines without. -/
theorem ofQuote_belowNothing :
    ([belowNothing].foldl append (.memory [])).ofQuote "acme" "q1" = .ok [belowNothing] ∧
      ([belowNothing].foldl append (.lines none)).ofQuote "acme" "q1" =
        .ok [{ belowNothing with oldQty := ⟨false, 0, 28, by decide, by decide⟩ }] ∧
      ([belowNothing].foldl append (.lines none)).ofQuote "acme" "q1" ≠
        ([belowNothing].foldl append (.memory [])).ofQuote "acme" "q1" := by
  have hordinary : ∀ e ∈ [belowNothing], e.createdAt.Ordinary := by
    rw [List.forall_mem_singleton]
    exact ordinary_twoLines
  have hlisted : listed [belowNothing] "acme" "q1" = [belowNothing] := by decide
  have hmemory := ofQuote_foldl_append_memory [belowNothing] "acme" "q1"
  have hlines := ofQuote_foldl_append_lines hordinary "acme" "q1"
  rw [hlisted] at hmemory hlines
  refine ⟨hmemory, hlines.trans (congrArg Except.ok (by decide)), ?_⟩
  rw [hlines, hmemory]
  exact fun h => absurd (Except.ok.inj h) (by decide)

end Log
end Estimating
