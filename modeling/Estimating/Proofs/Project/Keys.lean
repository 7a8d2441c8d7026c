/-
Keys and their written forms.

A key is written with bars between its parts, and none of its parts has a bar in it: the names of
rooms and finishes are known, and an item with a bar is refused.  So the bars of a written key are
where its parts end, whatever else its item consists of, and a text is read as a key if and only if
it is the written form of that key.

* `splitBar_append`, `splitBar_of_not_mem`, `eq_of_splitBar` — where a text is cut;
* `RuleKey.read_eq_ok_iff`, `PatternKey.read_eq_ok_iff` — **a text is read as the key that it is the
  written form of**, and as no other one;
* `ne_text` — no text is the written form of keys of both kinds;
* `keys_read_exactly` — the forms of both kinds of keys.
-/
import Estimating.Project.Key
import Mathlib.Data.List.TakeWhile

set_option autoImplicit false

namespace Estimating

/-! ### Bars -/

theorem ne_bar_of_not_mem {cs : List Char} (h : '|' ∉ cs) : ∀ c ∈ cs, (c != '|') = true := by
  intro c hc
  rw [bne_iff_ne]
  rintro rfl
  exact h hc

/-- A text is cut at its first bar. -/
theorem splitBar_append {before : List Char} (h : '|' ∉ before) (after : List Char) :
    splitBar (before ++ '|' :: after) = (before, some after) := by
  have hbefore := ne_bar_of_not_mem h
  rw [splitBar, List.dropWhile_append_of_pos hbefore, List.takeWhile_append_of_pos hbefore]
  simp

/-- A text without a bar is not cut. -/
theorem splitBar_of_not_mem {cs : List Char} (h : '|' ∉ cs) : splitBar cs = (cs, none) := by
  rw [splitBar, List.dropWhile_eq_nil_iff.2 (ne_bar_of_not_mem h)]

/-- What a text was cut into. -/
theorem eq_of_splitBar {cs before after : List Char} (h : splitBar cs = (before, some after)) :
    cs = before ++ '|' :: after ∧ '|' ∉ before := by
  by_cases hmem : '|' ∈ cs
  · obtain ⟨before', after', rfl, hnot⟩ := List.eq_append_cons_of_mem hmem
    rw [splitBar_append hnot] at h
    cases h
    exact ⟨rfl, hnot⟩
  · rw [splitBar_of_not_mem hmem] at h
    cases h

/-! ### Rooms and finishes -/

theorem Room.read_eq_ok_iff {s : String} {r : Room} : read s = .ok r ↔ s = r.name := by
  constructor
  · intro h
    unfold read at h
    split at h <;> cases h <;> rfl
  · rintro rfl
    exact r.read_name

theorem Finish.read_eq_ok_iff {s : String} {f : Finish} : read s = .ok f ↔ s = f.name := by
  constructor
  · intro h
    unfold read at h
    split at h <;> cases h <;> rfl
  · rintro rfl
    exact f.read_name

theorem Room.bar_not_mem (r : Room) : '|' ∉ r.name.toList := by cases r <;> decide

theorem Finish.bar_not_mem (f : Finish) : '|' ∉ f.name.toList := by cases f <;> decide

/-! ### Rule keys -/

namespace RuleKey

theorem toList_text (k : RuleKey) :
    k.text.toList = k.room.name.toList ++ '|' :: k.finish.name.toList := by
  simp [text]

theorem read_text (k : RuleKey) : read k.text = .ok k := by
  simp [read, toList_text, splitBar_append k.room.bar_not_mem, k.finish.bar_not_mem,
    Room.read_name, Finish.read_name]

/-- **A text is read as the rule key that it is the written form of.** -/
theorem read_eq_ok_iff {s : String} {k : RuleKey} : read s = .ok k ↔ s = k.text := by
  constructor
  · intro h
    unfold read at h
    split at h
    · next room finish hsplit =>
        split at h
        · cases h
        split at h
        · cases h
        · next r hroom =>
            split at h
            · cases h
            · next f hfinish =>
                cases h
                have hroom := Room.read_eq_ok_iff.1 hroom
                have hfinish := Finish.read_eq_ok_iff.1 hfinish
                rw [← String.toList_inj, toList_text, (eq_of_splitBar hsplit).1, ← hroom, ← hfinish,
                  String.toList_ofList, String.toList_ofList]
    · cases h
  · rintro rfl
    exact k.read_text

end RuleKey

/-! ### Pattern keys -/

/-- What can name an item. -/
theorem isItemRef_iff {item : String} : isItemRef item = true ↔
    '|' ∉ item.toList ∧ ∃ c ∈ item.toList, Text.isBlank c = false := by
  simp [isItemRef, Text.allBlank, and_comm]

namespace PatternKey

theorem toList_text (k : PatternKey) :
    k.text.toList =
      k.ruleKey.room.name.toList ++
        '|' :: (k.ruleKey.finish.name.toList ++ '|' :: k.item.toList) := by
  simp [text, join, RuleKey.toList_text]

theorem read_text (k : PatternKey) : read k.text = .ok k := by
  have hrule : RuleKey.read (String.ofList
      (k.ruleKey.room.name.toList ++ '|' :: k.ruleKey.finish.name.toList)) = .ok k.ruleKey := by
    rw [← k.ruleKey.toList_text, String.ofList_toList, RuleKey.read_text]
  simp only [read, toList_text, splitBar_append k.ruleKey.room.bar_not_mem,
    splitBar_append k.ruleKey.finish.bar_not_mem, hrule, String.ofList_toList, k.make_eq]

/-- **A text is read as the pattern key that it is the written form of.** -/
theorem read_eq_ok_iff {s : String} {k : PatternKey} : read s = .ok k ↔ s = k.text := by
  constructor
  · intro h
    unfold read at h
    split at h
    · cases h
    · next room rest hsplit =>
        split at h
        · cases h
        · next finish item hrest =>
            split at h
            · cases h
            · next ruleKey hrule =>
                obtain ⟨rfl, hitem⟩ := make_eq_ok h
                have hrule := congrArg String.toList (RuleKey.read_eq_ok_iff.1 hrule)
                rw [String.toList_ofList] at hrule
                rw [← String.toList_inj, (eq_of_splitBar hsplit).1, (eq_of_splitBar hrest).1, text,
                  join, String.toList_append, String.toList_append, ← hrule, hitem,
                  String.toList_ofList]
                simp
  · rintro rfl
    exact k.read_text

end PatternKey

/-- No text is the written form of a rule key and of a pattern key. -/
theorem ne_text (k : RuleKey) (k' : PatternKey) : k.text ≠ k'.text := by
  intro h
  have hsplit := splitBar_append k.room.bar_not_mem k.finish.name.toList
  rw [← k.toList_text, h, k'.toList_text, splitBar_append k'.ruleKey.room.bar_not_mem] at hsplit
  -- a bar follows the finish of a pattern key
  simp only [Prod.mk.injEq, Option.some.injEq] at hsplit
  refine k.finish.bar_not_mem ?_
  rw [← hsplit.2]
  simp

/-- **Keys are read from their written forms, and from nothing else.**  A text is a pattern key if
and only if it is a room, a finish and an item with a bar between them, where the item has no bar
and is not just white space; and it is the written form of that key.  Every key that is made of a
rule key and an item is read back from its written form, so distinct keys have distinct ones.  The
same holds of rule keys, which are a room and a finish with a bar between them.  No text is a key of
both kinds. -/
theorem keys_read_exactly :
    ((∀ s, (∃ k, PatternKey.read s = .ok k) ↔ ∃ (room : Room) (finish : Finish) (item : String),
        s = room.name ++ "|" ++ finish.name ++ "|" ++ item ∧
          '|' ∉ item.toList ∧ ∃ c ∈ item.toList, Text.isBlank c = false) ∧
      (∀ s k, PatternKey.read s = .ok k → k.text = s) ∧
      (∀ ruleKey item k, PatternKey.make ruleKey item = .ok k → PatternKey.read k.text = .ok k) ∧
      ∀ k k' : PatternKey, k.text = k'.text → k = k') ∧
    ((∀ s, (∃ k, RuleKey.read s = .ok k) ↔ ∃ (room : Room) (finish : Finish),
        s = room.name ++ "|" ++ finish.name) ∧
      (∀ s k, RuleKey.read s = .ok k → k.text = s) ∧
      (∀ k : RuleKey, RuleKey.read k.text = .ok k) ∧
      ∀ k k' : RuleKey, k.text = k'.text → k = k') ∧
    ∀ s k k', RuleKey.read s = .ok k → PatternKey.read s ≠ .ok k' := by
  refine ⟨⟨?_, ?_, fun _ _ k _ => k.read_text, ?_⟩, ⟨?_, ?_, RuleKey.read_text, ?_⟩, ?_⟩
  · intro s
    constructor
    · rintro ⟨k, hk⟩
      exact ⟨k.ruleKey.room, k.ruleKey.finish, k.item, PatternKey.read_eq_ok_iff.1 hk,
        isItemRef_iff.1 k.isItemRef_item⟩
    · rintro ⟨room, finish, item, rfl, hitem⟩
      exact ⟨⟨⟨room, finish⟩, item, isItemRef_iff.2 hitem⟩, PatternKey.read_eq_ok_iff.2 rfl⟩
  · exact fun s k h => (PatternKey.read_eq_ok_iff.1 h).symm
  · exact fun k k' h =>
      Except.ok.inj (k.read_text.symm.trans ((congrArg PatternKey.read h).trans k'.read_text))
  · intro s
    constructor
    · rintro ⟨k, hk⟩
      exact ⟨k.room, k.finish, RuleKey.read_eq_ok_iff.1 hk⟩
    · rintro ⟨room, finish, rfl⟩
      exact ⟨⟨room, finish⟩, RuleKey.read_eq_ok_iff.2 rfl⟩
  · exact fun s k h => (RuleKey.read_eq_ok_iff.1 h).symm
  · exact fun k k' h =>
      Except.ok.inj (k.read_text.symm.trans ((congrArg RuleKey.read h).trans k'.read_text))
  · intro s k k' h h'
    exact ne_text k k' ((RuleKey.read_eq_ok_iff.1 h).symm.trans (PatternKey.read_eq_ok_iff.1 h'))

/-- An item keeps the white space at its ends, and a rule key is no pattern key. -/
theorem keys_read_exactly_spaced :
    ∃ k, PatternKey.make ⟨.kitchen, .basic⟩ " tile " = .ok k ∧
      PatternKey.read "kitchen|basic| tile " = .ok k ∧ k.text = "kitchen|basic| tile " ∧
      PatternKey.read k.text = .ok k ∧
      RuleKey.read "kitchen|basic" = .ok ⟨.kitchen, .basic⟩ ∧
      ∀ k', PatternKey.read "kitchen|basic" ≠ .ok k' := by
  obtain ⟨⟨-, htext, hread, -⟩, ⟨-, -, hreadRule, -⟩, hboth⟩ := keys_read_exactly
  let k : PatternKey := ⟨⟨.kitchen, .basic⟩, " tile ", by decide +kernel⟩
  have hmake : PatternKey.make ⟨.kitchen, .basic⟩ " tile " = .ok k := k.make_eq
  have hk : PatternKey.read "kitchen|basic| tile " = .ok k := hread _ _ k hmake
  have hrule : RuleKey.read "kitchen|basic" = .ok ⟨.kitchen, .basic⟩ :=
    hreadRule ⟨.kitchen, .basic⟩
  exact ⟨k, hmake, hk, htext _ k hk, hread _ _ k hmake, hrule, fun k' => hboth _ _ k' hrule⟩

end Estimating
