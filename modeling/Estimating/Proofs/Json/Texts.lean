/-
JSON texts made of strings are read back.

Many records hold strings only, since decimals, instants and identifiers are written as strings.
The text of such a value is cut into the tokens that it was put together from, and the automaton
takes these to the value.  Whatever characters the strings have, the text has no line break and no
other control character in it.

* `Json.readString_escape`, `Json.ofCodeUnits?_map_toNat` — a string between quotes is read back;
* `Json.Writes` — characters that are cut into given tokens, whatever stands behind them;
* `Json.Textual` — a value made of strings, arrays and objects;
* `Json.Textual.exists_tokens` — the tokens of such a value, and where they lead to;
* `Json.parse_compact` — **the text of such a value is read as the value**;
* `Json.Textual.toNat_ge` — **no control character is in it**;
* `Json.run_required`, `Json.run_optional` — a field of an object is read from the member of its
  name.
-/
import Estimating.Json.Reader
import Estimating.Json.Record
import Estimating.Json.Writer
import Mathlib.Data.List.Nodup

set_option autoImplicit false

namespace Estimating.Json

/-! ### Strings -/

/-- An escape for a control character tells its code. -/
theorem hexValue4?_of_lt {n : Nat} (h : n < 0x20) :
    hexValue4? '0' '0' (Nat.digitChar (n / 16)) (Nat.digitChar (n % 16)) = some n := by
  have hall : ∀ i : Fin 0x20, hexValue4? '0' '0' (Nat.digitChar (i.val / 16))
      (Nat.digitChar (i.val % 16)) = some i.val := by decide
  exact hall ⟨n, h⟩

/-- A character that is neither a quote nor a backslash nor a control character stands for
itself. -/
theorem readString_cons {c : Char} (hquote : c ≠ '"') (hslash : c ≠ '\\') (hcode : 0x20 ≤ c.toNat)
    (rest : List Char) : readString (c :: rest) = push c.toNat (readString rest) := by
  rw [readString.eq_def]
  split
  · next h => exact absurd (List.cons.inj h).1 hquote
  · next h => exact absurd (List.cons.inj h).1 hslash
  · next h => exact absurd (List.cons.inj h).1 hslash
  · next h =>
      cases h
      rw [if_neg (by simp only [hslash, or_false, Nat.not_lt]; exact hcode)]
  · next h => cases h

/-- What is written for a character is read as the character. -/
theorem readString_escapeChar (c : Char) (rest : List Char) :
    readString (escapeChar c ++ rest) = push c.toNat (readString rest) := by
  unfold escapeChar
  split
  case h_8 hquote hslash _ _ _ _ _ =>
    split
    · next hcode =>
        simp only [List.cons_append, List.nil_append]
        rw [readString, hexValue4?_of_lt hcode]
    · next hcode => exact readString_cons hquote hslash (Nat.not_lt.1 hcode) rest
  all_goals rfl

theorem readString_escape (cs rest : List Char) :
    readString (escape cs ++ '"' :: rest) = some (cs.map Char.toNat, rest) := by
  induction cs with
  | nil => rfl
  | cons c cs ih =>
      have happend : escape (c :: cs) ++ '"' :: rest =
          escapeChar c ++ (escape cs ++ '"' :: rest) := by
        rw [escape, List.flatMap_cons, List.append_assoc]
        rfl
      rw [happend, readString_escapeChar, ih]
      rfl

/-- A character is no half of a surrogate pair. -/
theorem not_surrogate (c : Char) :
    isHighSurrogate c.toNat = false ∧ isLowSurrogate c.toNat = false := by
  have hvalid : c.toNat < 0xd800 ∨ 0xdfff < c.toNat ∧ c.toNat < 0x110000 := c.valid
  simp only [isHighSurrogate, isLowSurrogate, Bool.and_eq_false_iff, decide_eq_false_iff_not]
  omega

theorem ofCodeUnits?_map_toNat (cs : List Char) : ofCodeUnits? (cs.map Char.toNat) = some cs := by
  induction cs with
  | nil => rfl
  | cons c cs ih =>
      have hc := not_surrogate c
      cases cs with
      | nil =>
          show (if _ then none else some [Char.ofNat c.toNat]) = _
          rw [if_neg (by simp [hc]), Char.ofNat_toNat]
      | cons c' cs =>
          show ofCodeUnits? (c.toNat :: c'.toNat :: cs.map Char.toNat) = _
          rw [ofCodeUnits?, if_neg (by simp [hc]), if_neg (by simp [hc])]
          show (ofCodeUnits? ((c' :: cs).map Char.toNat)).map _ = _
          rw [ih, Char.ofNat_toNat]
          rfl

/-! ### Tokens -/

/-- The characters are cut into these tokens, whatever stands behind them. -/
def Writes (cs : List Char) (ts : List Token) : Prop :=
  ∀ rest, tokens (cs ++ rest) = (tokens rest).map (ts ++ ·)

theorem Writes.append {cs cs' : List Char} {ts ts' : List Token} (h : Writes cs ts)
    (h' : Writes cs' ts') : Writes (cs ++ cs') (ts ++ ts') := by
  intro rest
  rw [List.append_assoc, h, h', Option.map_map]
  congr 1
  funext more
  exact (List.append_assoc ts ts' more).symm

theorem writes_sign {c : Char} {t : Token} (hspace : isSpace c = false) (h : sign? c = some t) :
    Writes [c] [t] := by
  intro rest
  rw [List.singleton_append, tokens, if_neg (by simp [hspace]), h]
  rfl

theorem writes_quote (s : String) : Writes (quote s) [.text (some s)] := by
  intro rest
  have hbody : quote s ++ rest = '"' :: (escape s.toList ++ '"' :: rest) := by
    rw [quote, List.append_assoc]
    rfl
  rw [hbody, tokens, if_neg (by decide)]
  show (if '"' = '"' then _ else _) = _
  rw [if_pos rfl]
  split
  · next codes rest' h =>
      rw [readString_escape] at h
      cases h
      rw [ofCodeUnits?_map_toNat, Option.map_some, String.ofList_toList]
      rfl
  · next h =>
      rw [readString_escape] at h
      cases h

/-! ### Values made of strings -/

/-- A value made of strings, arrays and objects. -/
inductive Textual : Json → Prop
  | string (s : String) : Textual (.string s)
  | array (items : List Json) (h : ∀ j ∈ items, Textual j) : Textual (.array items)
  | object (members : List (String × Json)) (h : ∀ m ∈ members, Textual m.2) :
      Textual (.object members)

/-- The tokens take the automaton from the beginning of a value to its end. -/
def Token.Lead (ts : List Token) (j : Json) : Prop :=
  ∀ outer, ts.foldlM Progress.step (.value outer) = some (.complete j outer)

/-- The first item of an array is read like any other. -/
theorem foldlM_firstItem {ts : List Token} {j : Json} {outer outer' : List Open}
    (h : ts.foldlM Progress.step (.value (.array [] :: outer)) = some (.complete j outer')) :
    ts.foldlM Progress.step (.firstItem outer) = some (.complete j outer') := by
  cases ts with
  | nil => cases h
  | cons t ts =>
      rw [List.foldlM_cons] at h ⊢
      cases t with
      | rightBracket => cases h
      | _ => exact h

/-- So is the first member of an object. -/
theorem foldlM_firstName {ts : List Token} {j : Json} {outer outer' : List Open}
    (h : ts.foldlM Progress.step (.name [] outer) = some (.complete j outer')) :
    ts.foldlM Progress.step (.firstName outer) = some (.complete j outer') := by
  cases ts with
  | nil => cases h
  | cons t ts =>
      rw [List.foldlM_cons] at h ⊢
      cases t with
      | text s => exact h
      | _ => cases h

theorem compactItems_cons (j : Json) {items : List Json} (h : items ≠ []) :
    compactItems (j :: items) = compactChars j ++ ',' :: compactItems items := by
  rw [compactItems]
  exact h

theorem compactMembers_cons (name : String) (j : Json) {members : List (String × Json)}
    (h : members ≠ []) : compactMembers ((name, j) :: members) =
      quote name ++ ':' :: compactChars j ++ ',' :: compactMembers members := by
  rw [compactMembers]
  exact h

/-- Items up to the end of their array, behind the items that have been read. -/
theorem exists_tokens_items {items : List Json} (hne : items ≠ [])
    (h : ∀ j ∈ items, ∃ ts, Writes (compactChars j) ts ∧ Token.Lead ts j) :
    ∃ ts, Writes (compactItems items ++ [']']) ts ∧ ∀ done outer,
      ts.foldlM Progress.step (.value (.array done :: outer)) =
        some (.complete (.array (done.reverse ++ items)) outer) := by
  induction items with
  | nil => exact absurd rfl hne
  | cons j items ih =>
      obtain ⟨ts, hwrites, hlead⟩ := h j List.mem_cons_self
      by_cases hlast : items = []
      · subst hlast
        refine ⟨ts ++ [.rightBracket], hwrites.append (writes_sign rfl rfl), fun done outer => ?_⟩
        rw [List.foldlM_append, hlead]
        show some (Progress.complete (.array (j :: done).reverse) outer) = _
        rw [List.reverse_cons]
      · obtain ⟨ts', hwrites', hlead'⟩ := ih hlast fun j hj => h j (List.mem_cons_of_mem _ hj)
        refine ⟨ts ++ ([.comma] ++ ts'), ?_, fun done outer => ?_⟩
        · rw [compactItems_cons j hlast, List.append_assoc]
          exact hwrites.append ((writes_sign rfl rfl).append hwrites')
        · rw [List.foldlM_append, hlead]
          show List.foldlM Progress.step (.value (.array (j :: done) :: outer)) ts' = _
          rw [hlead', List.reverse_cons, List.append_assoc]
          rfl

/-- Members with names that are texts. -/
def named (members : List (String × Json)) : NamedValues := members.map fun m => (some m.1, m.2)

theorem ofNamedValues_reverse_named (members : List (String × Json)) :
    ofNamedValues (named members).reverse = .object members := by
  have hnames : ((named members).mapM fun m => m.1.map fun name => (name, m.2)) = some members := by
    induction members with
    | nil => rfl
    | cons m members ih =>
        rw [named] at ih ⊢
        rw [List.map_cons, List.mapM_cons, ih]
        rfl
  rw [ofNamedValues, List.reverse_reverse, hnames]

/-- Members up to the end of their object, behind the members that have been read. -/
theorem exists_tokens_members {members : List (String × Json)} (hne : members ≠ [])
    (h : ∀ m ∈ members, ∃ ts, Writes (compactChars m.2) ts ∧ Token.Lead ts m.2) :
    ∃ ts, Writes (compactMembers members ++ ['\x7d']) ts ∧ ∀ done outer,
      ts.foldlM Progress.step (.name (named done).reverse outer) =
        some (.complete (.object (done ++ members)) outer) := by
  induction members with
  | nil => exact absurd rfl hne
  | cons m members ih =>
      obtain ⟨name, j⟩ := m
      obtain ⟨ts, hwrites, hlead⟩ := h (name, j) List.mem_cons_self
      have hdone (done : List (String × Json)) :
          (some name, j) :: (named done).reverse = (named (done ++ [(name, j)])).reverse := by
        rw [named, named, List.map_append, List.reverse_append]
        rfl
      -- the name and the value, up to the end of the value
      let front : List Token := [.text (some name), .colon] ++ ts
      have hfront : Writes (quote name ++ ':' :: compactChars j) front :=
        (writes_quote name).append ((writes_sign rfl rfl).append hwrites)
      have hread (done : List (String × Json)) (outer : List Open) :
          front.foldlM Progress.step (.name (named done).reverse outer) =
            some (.complete j (.object (named done).reverse (some name) :: outer)) := hlead _
      by_cases hlast : members = []
      · subst hlast
        refine ⟨front ++ [.rightBrace], hfront.append (writes_sign rfl rfl), fun done outer => ?_⟩
        rw [List.foldlM_append, hread]
        show some (Progress.complete (ofNamedValues ((some name, j) :: (named done).reverse))
          outer) = _
        rw [hdone, ofNamedValues_reverse_named]
      · obtain ⟨ts', hwrites', hlead'⟩ := ih hlast fun m hm => h m (List.mem_cons_of_mem _ hm)
        refine ⟨front ++ ([.comma] ++ ts'), ?_, fun done outer => ?_⟩
        · rw [compactMembers_cons name j hlast, List.append_assoc]
          exact hfront.append ((writes_sign rfl rfl).append hwrites')
        · rw [List.foldlM_append, hread]
          show List.foldlM Progress.step (.name ((some name, j) :: (named done).reverse) outer)
            ts' = _
          rw [hdone, hlead', List.append_assoc]
          rfl

/-- **The tokens of a value made of strings**, and where they lead to. -/
theorem Textual.exists_tokens {j : Json} (h : Textual j) :
    ∃ ts, Writes (compactChars j) ts ∧ Token.Lead ts j := by
  induction h with
  | string s => exact ⟨_, writes_quote s, fun outer => rfl⟩
  | array items _ ih =>
      have hopen : Writes ['['] [.leftBracket] := writes_sign rfl rfl
      have hclose : Writes [']'] [.rightBracket] := writes_sign rfl rfl
      rw [compactChars]
      by_cases hnone : items = []
      · subst hnone
        rw [compactItems]
        exact ⟨_, hopen.append hclose, fun outer => rfl⟩
      · obtain ⟨ts, hwrites, hlead⟩ := exists_tokens_items hnone ih
        exact ⟨_, hopen.append hwrites, fun outer => foldlM_firstItem (hlead [] outer)⟩
  | object members _ ih =>
      have hopen : Writes ['\x7b'] [.leftBrace] := writes_sign rfl rfl
      have hclose : Writes ['\x7d'] [.rightBrace] := writes_sign rfl rfl
      rw [compactChars]
      by_cases hnone : members = []
      · subst hnone
        rw [compactMembers]
        exact ⟨_, hopen.append hclose, fun outer => rfl⟩
      · obtain ⟨ts, hwrites, hlead⟩ := exists_tokens_members hnone ih
        exact ⟨_, hopen.append hwrites, fun outer => foldlM_firstName (hlead [] outer)⟩

/-- **The text of a value made of strings is read as the value.** -/
theorem parse_compact {j : Json} (h : Textual j) : parse j.compact = some j := by
  obtain ⟨ts, hwrites, hlead⟩ := h.exists_tokens
  have htokens : tokens j.compact.toList = some ts := by
    have hend := hwrites []
    rw [List.append_nil, tokens] at hend
    rw [compact, String.toList_ofList, hend, Option.map_some, List.append_nil]
  rw [parse, htokens]
  show (ts.foldlM Progress.step (.value [])).bind _ = _
  rw [hlead []]
  rfl

/-! ### Control characters -/

theorem toNat_digitChar_ge {d : Nat} (h : d < 16) : 0x20 ≤ (Nat.digitChar d).toNat := by
  have hall : ∀ i : Fin 16, 0x20 ≤ (Nat.digitChar i.val).toNat := by decide
  exact hall ⟨d, h⟩

theorem toNat_ge_of_mem_escapeChar {c c' : Char} (h : c' ∈ escapeChar c) : 0x20 ≤ c'.toNat := by
  unfold escapeChar at h
  split at h
  case h_8 =>
    split at h
    · next hcode =>
        simp only [List.mem_cons, List.not_mem_nil, or_false] at h
        rcases h with rfl | rfl | rfl | rfl | rfl | rfl
        case inr.inr.inr.inr.inl => exact toNat_digitChar_ge (by omega)
        case inr.inr.inr.inr.inr => exact toNat_digitChar_ge (by omega)
        all_goals decide
    · next hcode =>
        rw [List.mem_singleton.1 h]
        exact Nat.not_lt.1 hcode
  -- the other escapes have two characters
  all_goals
    simp only [List.mem_cons, List.not_mem_nil, or_false] at h
    rcases h with rfl | rfl <;> decide

theorem toNat_ge_of_mem_quote (s : String) : ∀ c ∈ quote s, 0x20 ≤ c.toNat := by
  have hbody : ∀ c ∈ escape s.toList, 0x20 ≤ c.toNat := by
    intro c hc
    obtain ⟨d, -, hd⟩ := List.mem_flatMap.1 hc
    exact toNat_ge_of_mem_escapeChar hd
  rw [quote, List.forall_mem_append, List.forall_mem_cons, List.forall_mem_singleton]
  exact ⟨⟨by decide, hbody⟩, by decide⟩

theorem toNat_ge_of_mem_compactItems {items : List Json}
    (h : ∀ j ∈ items, ∀ c ∈ compactChars j, 0x20 ≤ c.toNat) :
    ∀ c ∈ compactItems items, 0x20 ≤ c.toNat := by
  induction items with
  | nil => nofun
  | cons j items ih =>
      rw [List.forall_mem_cons] at h
      by_cases hlast : items = []
      · subst hlast
        exact h.1
      · rw [compactItems_cons j hlast, List.forall_mem_append, List.forall_mem_cons]
        exact ⟨h.1, by decide, ih h.2⟩

theorem toNat_ge_of_mem_compactMembers {members : List (String × Json)}
    (h : ∀ m ∈ members, ∀ c ∈ compactChars m.2, 0x20 ≤ c.toNat) :
    ∀ c ∈ compactMembers members, 0x20 ≤ c.toNat := by
  induction members with
  | nil => nofun
  | cons m members ih =>
      obtain ⟨name, j⟩ := m
      rw [List.forall_mem_cons] at h
      have hfront : ∀ c ∈ quote name ++ ':' :: compactChars j, 0x20 ≤ c.toNat := by
        rw [List.forall_mem_append, List.forall_mem_cons]
        exact ⟨toNat_ge_of_mem_quote name, by decide, h.1⟩
      by_cases hlast : members = []
      · subst hlast
        exact hfront
      · rw [compactMembers_cons name j hlast, List.forall_mem_append, List.forall_mem_cons]
        exact ⟨hfront, by decide, ih h.2⟩

/-- **No control character is in the text of a value made of strings.** -/
theorem Textual.toNat_ge {j : Json} (h : Textual j) : ∀ c ∈ compactChars j, 0x20 ≤ c.toNat := by
  induction h with
  | string s => exact toNat_ge_of_mem_quote s
  | array items _ ih =>
      rw [compactChars, List.forall_mem_append, List.forall_mem_cons, List.forall_mem_singleton]
      exact ⟨⟨by decide, toNat_ge_of_mem_compactItems ih⟩, by decide⟩
  | object members _ ih =>
      rw [compactChars, List.forall_mem_append, List.forall_mem_cons, List.forall_mem_singleton]
      exact ⟨⟨by decide, toNat_ge_of_mem_compactMembers ih⟩, by decide⟩

/-! ### Fields of objects -/

section Fields

variable {α β : Type} {members : List (String × Json)} {name : String} {j : Json}

/-- A member has the name of its field, and there is none if the field is absent. -/
theorem mem_names_memberIf {name' : String} {toJson : α → Json} {o : Option α} :
    name ∈ (memberIf name' toJson o).map Prod.fst ↔ o ≠ none ∧ name = name' := by
  cases o <;> simp [memberIf]

theorem Textual.of_memberIf {toJson : α → Json} {o : Option α} {m : String × Json}
    (htoJson : ∀ a, (toJson a).Textual) (h : m ∈ memberIf name toJson o) : m.2.Textual := by
  cases o with
  | none => cases h
  | some a =>
      rw [List.mem_singleton.1 h]
      exact htoJson a

theorem filter_name_of_not_mem (h : name ∉ members.map Prod.fst) :
    members.filter (·.1 == name) = [] := by
  rw [List.filter_eq_nil_iff]
  intro m hm heq
  exact h (List.mem_map.2 ⟨m, hm, eq_of_beq heq⟩)

/-- Of several members with different names one has the name of a member. -/
theorem filter_name_of_mem (hnodup : (members.map Prod.fst).Nodup) (h : (name, j) ∈ members) :
    members.filter (·.1 == name) = [(name, j)] := by
  induction members with
  | nil => cases h
  | cons m members ih =>
      rw [List.map_cons, List.nodup_cons] at hnodup
      rw [List.filter_cons]
      rcases List.mem_cons.1 h with rfl | h
      · rw [if_pos (beq_self_eq_true name), filter_name_of_not_mem hnodup.1]
      · have hne : ¬ (m.1 == name) = true :=
          fun heq => hnodup.1 (List.mem_map.2 ⟨(name, j), h, (eq_of_beq heq).symm⟩)
        rw [if_neg hne, ih hnodup.2 h]

theorem run_take_of_not_mem (h : name ∉ members.map Prod.fst) :
    (take name).run (.members members) = some (none, .members members) := by
  unfold take StateT.run
  simp only [filter_name_of_not_mem h]

theorem run_take_of_mem (hnodup : (members.map Prod.fst).Nodup) (h : (name, j) ∈ members) :
    (take name).run (.members members) = some (some j, .members members) := by
  unfold take StateT.run
  simp only [filter_name_of_mem hnodup h]

theorem run_bind_of_eq_some {r : Record α} {f : α → Record β} {a : α} {source : Source}
    (h : r.run source = some (a, source)) : (r >>= f).run source = (f a).run source := by
  rw [StateT.run_bind, h]
  rfl

/-- A field that has to be there is read from the member of its name. -/
theorem run_required {value? : Json → Option α} {a : α} (hnodup : (members.map Prod.fst).Nodup)
    (h : (name, j) ∈ members) (hvalue : value? j = some a) :
    (required name value?).run (.members members) = some (a, .members members) := by
  rw [required, run_bind_of_eq_some (run_take_of_mem hnodup h)]
  show (value? j).bind _ = _
  rw [hvalue]
  rfl

/-- A field that may be absent is read from the member of its name, if there is one. -/
theorem run_optional {value? : Json → Option β} {toJson : α → Json} {f : α → β} (o : Option α)
    (hnodup : (members.map Prod.fst).Nodup) (hin : ∀ a ∈ o, (name, toJson a) ∈ members)
    (hout : o = none → name ∉ members.map Prod.fst) (hnull : ∀ a, toJson a ≠ .null)
    (hvalue : ∀ a, value? (toJson a) = some (f a)) :
    (optional name value?).run (.members members) = some (o.map f, .members members) := by
  cases o with
  | none =>
      rw [optional, run_bind_of_eq_some (run_take_of_not_mem (hout rfl))]
      rfl
  | some a =>
      have hnullable : nullable value? (toJson a) = some (some (f a)) := by
        unfold nullable
        split
        · next h => exact absurd h (hnull a)
        · rw [hvalue]
          rfl
      rw [optional, run_bind_of_eq_some (run_take_of_mem hnodup (hin a rfl))]
      show (nullable value? (toJson a)).bind _ = _
      rw [hnullable]
      rfl

end Fields

end Estimating.Json
