/-
The lexemes of a text, and the white space between them.

A text is cut from left to right into lexemes, each as long as it can be: single signs, runs of
digits and points, and names.  White space may stand between them, and nothing else.  There is one
way to cut a text.

* `Expression.IsLexeme`, `Expression.Longest` — a lexeme, and one that nothing behind it belongs to;
* `Expression.continues` — the characters that a lexeme goes on with are told by its first one, so
  `Expression.longest_cons_iff` says where the longest lexeme ends;
* `Expression.Layout` — a text cut into lexemes and white space: its characters, its lexemes, and
  their offsets;
* `Expression.Layout.Separate` — each lexeme is the longest where it stands;
* `Expression.Layout.eq_of_chars_eq`, `Expression.exists_layout` — **a text is cut in one way, and
  every text of allowed characters is**;
* `Expression.Layout.flatten_texts`, `Expression.Layout.prefix_drop_offsets` — no character of a
  lexeme is lost, and each lexeme stands at its offset.
-/
import Estimating.Proofs.Expression.Literals

set_option autoImplicit false

namespace Estimating.Expression

open Text (isAsciiBlank)

/-! ### Lexemes -/

/-- A sign that is a lexeme by itself. -/
def isSign (c : Char) : Bool :=
  c == '(' || c == ')' || c == ',' || c == '+' || c == '-' || c == '*' || c == '/'

/-- A name: it does not begin with a digit. -/
def IsName : List Char → Prop
  | [] => False
  | c :: more => isNameStart c = true ∧ ∀ d ∈ more, isNameChar d = true

/-- A lexeme. -/
inductive IsLexeme : List Char → Prop
  | sign {c : Char} (h : isSign c = true) : IsLexeme [c]
  | number {text : List Char} (h : IsNumber text) : IsLexeme text
  | name {text : List Char} (h : IsName text) : IsLexeme text

/-- A lexeme that stands before `rest` and cannot be made longer. -/
def Longest (text rest : List Char) : Prop :=
  IsLexeme text ∧ ∀ more, more <+: rest → IsLexeme (text ++ more) → more = []

/-- The first characters of lexemes. -/
def startsLexeme (c : Char) : Bool := isSign c || isNumberChar c || isNameStart c

/-- The characters that a lexeme goes on with, by its first one. -/
def continues (c : Char) : Char → Bool :=
  if isNumberChar c then isNumberChar else if isNameStart c then isNameChar else fun _ => false

/-! ### Character classes -/

/-- An allowed character is white space or begins a lexeme. -/
theorem isAllowed_eq (c : Char) : isAllowed c = (isAsciiBlank c || startsLexeme c) := by
  simp only [isAllowed, startsLexeme, isSign, isNumberChar, isNameStart, Char.isAlphanum]
  ac_rfl

theorem isNumberChar_of_isSign {c : Char} (h : isSign c = true) : isNumberChar c = false := by
  simp only [isSign, Bool.or_eq_true, beq_iff_eq] at h
  rcases h with (((((rfl | rfl) | rfl) | rfl) | rfl) | rfl) | rfl <;> rfl

theorem isNameStart_of_isSign {c : Char} (h : isSign c = true) : isNameStart c = false := by
  simp only [isSign, Bool.or_eq_true, beq_iff_eq] at h
  rcases h with (((((rfl | rfl) | rfl) | rfl) | rfl) | rfl) | rfl <;> rfl

/-- No letter is a digit. -/
theorem isDigit_of_isAlpha {c : Char} (h : c.isAlpha = true) : c.isDigit = false := by
  by_contra hdigit
  have hrange := Bool.and_eq_true_iff.1 (Bool.eq_true_of_not_eq_false hdigit)
  have hle : c.toNat ≤ 57 := UInt32.le_iff_toNat_le.1 (of_decide_eq_true hrange.2)
  rcases Bool.or_eq_true_iff.1 h with hupper | hlower
  · have hge : 65 ≤ c.toNat := UInt32.le_iff_toNat_le.1 (of_decide_eq_true hupper).1
    omega
  · have hge : 97 ≤ c.toNat :=
      UInt32.le_iff_toNat_le.1 (of_decide_eq_true (Bool.and_eq_true_iff.1 hlower).1)
    omega

/-- No name begins as a number does. -/
theorem isNumberChar_of_isNameStart {c : Char} (h : isNameStart c = true) :
    isNumberChar c = false := by
  by_contra hnumber
  rw [isNameStart, Bool.or_eq_true, beq_iff_eq] at h
  rcases isNumberChar_iff.1 (Bool.eq_true_of_not_eq_false hnumber) with hdigit | rfl
  · rcases h with halpha | rfl
    · cases hdigit.symm.trans (isDigit_of_isAlpha halpha)
    · cases hdigit
  · rcases h with halpha | hunderscore
    · cases halpha
    · cases hunderscore

/-- White space begins no lexeme. -/
theorem startsLexeme_of_isAsciiBlank {c : Char} (h : isAsciiBlank c = true) :
    startsLexeme c = false := by
  simp only [isAsciiBlank, Bool.or_eq_true, beq_iff_eq] at h
  rcases h with (((rfl | rfl) | rfl) | rfl) | rfl <;> rfl

theorem isAsciiBlank_of_startsLexeme {c : Char} (h : startsLexeme c = true) :
    isAsciiBlank c = false := by
  by_contra hblank
  rw [startsLexeme_of_isAsciiBlank (Bool.eq_true_of_not_eq_false hblank)] at h
  cases h

theorem isAsciiBlank_of_continues {c d : Char} (h : continues c d = true) :
    isAsciiBlank d = false := by
  by_contra hblank
  have hnot : isNumberChar d = false ∧ isNameChar d = false := by
    have hblank := Bool.eq_true_of_not_eq_false hblank
    simp only [isAsciiBlank, Bool.or_eq_true, beq_iff_eq] at hblank
    rcases hblank with (((rfl | rfl) | rfl) | rfl) | rfl <;> exact ⟨rfl, rfl⟩
  unfold continues at h
  split at h
  · exact absurd h (by rw [hnot.1]; decide)
  · split at h
    · exact absurd h (by rw [hnot.2]; decide)
    · cases h

theorem isAllowed_of_continues {c d : Char} (h : continues c d = true) : isAllowed d = true := by
  unfold continues at h
  split at h
  · rw [isAllowed_eq, startsLexeme, h, Bool.or_true, Bool.true_or, Bool.or_true]
  · split at h
    · simp only [isNameChar, Bool.or_eq_true] at h
      rcases h with h | h
      · simp [isAllowed, h]
      · simp [isAllowed, h]
    · cases h

/-! ### The longest lexeme -/

theorem continues_number {c : Char} (h : isNumberChar c = true) : continues c = isNumberChar :=
  if_pos h

theorem continues_name {c : Char} (h : isNameStart c = true) : continues c = isNameChar := by
  rw [continues, isNumberChar_of_isNameStart h, if_neg Bool.false_ne_true, if_pos h]

theorem continues_sign {c : Char} (h : isSign c = true) : continues c = fun _ => false := by
  rw [continues, isNumberChar_of_isSign h, isNameStart_of_isSign h, if_neg Bool.false_ne_true,
    if_neg Bool.false_ne_true]

/-- A text is a lexeme if its first character begins one and the others go on with it. -/
theorem isLexeme_cons_iff {c : Char} {more : List Char} : IsLexeme (c :: more) ↔
    startsLexeme c = true ∧ ∀ d ∈ more, continues c d = true := by
  simp only [startsLexeme, Bool.or_eq_true]
  constructor
  · intro h
    cases h with
    | sign h => exact ⟨.inl (.inl h), nofun⟩
    | number h =>
        have hc := h.2 c List.mem_cons_self
        refine ⟨.inl (.inr hc), fun d hd => ?_⟩
        rw [continues_number hc]
        exact h.2 d (List.mem_cons_of_mem _ hd)
    | name h =>
        refine ⟨.inr h.1, fun d hd => ?_⟩
        rw [continues_name h.1]
        exact h.2 d hd
  · rintro ⟨(hsign | hnumber) | hname, hmore⟩
    · rw [continues_sign hsign] at hmore
      obtain rfl : more = [] := List.eq_nil_iff_forall_not_mem.2 fun d hd => nomatch hmore d hd
      exact .sign hsign
    · rw [continues_number hnumber] at hmore
      refine .number ⟨List.cons_ne_nil _ _, fun d hd => ?_⟩
      rcases List.mem_cons.1 hd with rfl | hd
      · exact hnumber
      · exact hmore d hd
    · rw [continues_name hname] at hmore
      exact .name ⟨hname, hmore⟩

theorem IsLexeme.exists_cons {text : List Char} (h : IsLexeme text) :
    ∃ c more, text = c :: more := by
  cases h with
  | sign _ => exact ⟨_, _, rfl⟩
  | number h => exact List.exists_cons_of_ne_nil h.1
  | name h =>
      cases text with
      | nil => exact h.elim
      | cons c more => exact ⟨c, more, rfl⟩

/-- What is taken while a condition holds is the front part of a list if the condition holds there
and not for what comes next. -/
theorem takeWhile_eq_left_iff {α : Type} {p : α → Bool} {xs ys : List α} :
    (xs ++ ys).takeWhile p = xs ↔
      (∀ x ∈ xs, p x = true) ∧ ∀ y, ys.head? = some y → p y = false := by
  induction xs with
  | nil =>
      cases ys with
      | nil => simp
      | cons y ys =>
          cases hy : p y with
          | false => simp [hy]
          | true => simp [hy]
  | cons x xs ih =>
      cases hx : p x with
      | false => simp [hx]
      | true => simp [hx, ih]

/-- The longest lexeme ends where a character does not go on with it. -/
theorem longest_cons_iff {c : Char} {more rest : List Char} : Longest (c :: more) rest ↔
    startsLexeme c = true ∧ (more ++ rest).takeWhile (continues c) = more := by
  rw [Longest, isLexeme_cons_iff, takeWhile_eq_left_iff, and_assoc]
  refine and_congr_right fun hc => and_congr_right fun hmore => ?_
  constructor
  · intro h y hy
    by_contra hcontinues
    obtain ⟨ys, rfl⟩ := List.head?_eq_some_iff.1 hy
    -- with the next character the lexeme would be longer
    have hlonger : IsLexeme (c :: (more ++ [y])) := by
      refine isLexeme_cons_iff.2 ⟨hc, fun d hd => ?_⟩
      rcases List.mem_append.1 hd with hd | hd
      · exact hmore d hd
      · obtain rfl := List.mem_singleton.1 hd
        exact Bool.eq_true_of_not_eq_false hcontinues
    cases h [y] (List.prefix_append [y] ys) hlonger
  · intro h longer hprefix hlexeme
    cases longer with
    | nil => rfl
    | cons d longer =>
        obtain ⟨ys, rfl⟩ := hprefix
        have hd := (isLexeme_cons_iff.1 hlexeme).2 d (by simp)
        cases (h d rfl).symm.trans hd

theorem Longest.exists_cons {text rest : List Char} (h : Longest text rest) :
    ∃ c more, text = c :: more ∧ startsLexeme c = true ∧
      (more ++ rest).takeWhile (continues c) = more := by
  obtain ⟨c, more, rfl⟩ := h.1.exists_cons
  exact ⟨c, more, rfl, longest_cons_iff.1 h⟩

instance (text rest : List Char) : Decidable (Longest text rest) :=
  match text with
  | [] => isFalse fun h => by
      obtain ⟨c, more, hnil, -⟩ := h.exists_cons
      cases hnil
  | _ :: _ => decidable_of_iff _ longest_cons_iff.symm

/-- No character of a lexeme is white space. -/
theorem Longest.isAsciiBlank_of_mem {text rest : List Char} (h : Longest text rest) :
    ∀ c ∈ text, isAsciiBlank c = false := by
  obtain ⟨c, more, rfl, hc, hmore⟩ := h.exists_cons
  intro d hd
  rcases List.mem_cons.1 hd with rfl | hd
  · exact isAsciiBlank_of_startsLexeme hc
  · exact isAsciiBlank_of_continues ((takeWhile_eq_left_iff.1 hmore).1 d hd)

/-- A text begins with one longest lexeme. -/
theorem Longest.eq_of_append_eq {text text' rest rest' : List Char} (h : Longest text rest)
    (h' : Longest text' rest') (heq : text ++ rest = text' ++ rest') :
    text = text' ∧ rest = rest' := by
  obtain ⟨c, more, rfl, -, hmore⟩ := h.exists_cons
  obtain ⟨c', more', rfl, -, hmore'⟩ := h'.exists_cons
  obtain ⟨rfl, htail⟩ := List.cons.inj heq
  obtain rfl : more = more' := hmore.symm.trans ((congrArg _ htail).trans hmore')
  exact ⟨rfl, List.append_cancel_left htail⟩

/-! ### Layouts -/

/-- A text as lexemes, with white space in front of each of them and behind the last. -/
inductive Layout
  | blank (gap : List Char)
  | lexeme (gap text : List Char) (more : Layout)

namespace Layout

/-- The text. -/
def chars : Layout → List Char
  | blank gap => gap
  | lexeme gap text more => gap ++ (text ++ more.chars)

/-- The lexemes. -/
def texts : Layout → List (List Char)
  | blank _ => []
  | lexeme _ text more => text :: more.texts

/-- The offsets of the lexemes in a text that begins at offset `position`. -/
def offsets (position : Nat) : Layout → List Nat
  | blank _ => []
  | lexeme gap text more =>
    (position + gap.length) :: more.offsets (position + gap.length + text.length)

/-- White space stands where it should, and each lexeme is the longest where it stands. -/
def Separate : Layout → Prop
  | blank gap => ∀ c ∈ gap, isAsciiBlank c = true
  | lexeme gap text more =>
    (∀ c ∈ gap, isAsciiBlank c = true) ∧ Longest text more.chars ∧ more.Separate

instance decidableSeparate : (l : Layout) → Decidable l.Separate
  | blank _ => decidable_of_iff _ List.all_eq_true
  | lexeme _ text more =>
    have := decidableSeparate more
    decidable_of_iff (_ ∧ Longest text more.chars ∧ more.Separate)
      (and_congr_left' List.all_eq_true)

/-- The text with one more blank in front. -/
def indent (c : Char) : Layout → Layout
  | blank gap => blank (c :: gap)
  | lexeme gap text more => lexeme (c :: gap) text more

theorem chars_indent (c : Char) (l : Layout) : (l.indent c).chars = c :: l.chars := by
  cases l <;> rfl

theorem Separate.indent {c : Char} {l : Layout} (h : l.Separate) (hc : isAsciiBlank c = true) :
    (l.indent c).Separate := by
  cases l with
  | blank gap => exact List.forall_mem_cons.2 ⟨hc, h⟩
  | lexeme gap text more => exact ⟨List.forall_mem_cons.2 ⟨hc, h.1⟩, h.2⟩

/-- White space in front of a lexeme ends where the lexeme begins. -/
theorem takeWhile_gap {gap text rest : List Char} (hgap : ∀ c ∈ gap, isAsciiBlank c = true)
    (htext : Longest text rest) :
    (gap ++ (text ++ rest)).takeWhile isAsciiBlank = gap := by
  obtain ⟨c, more, rfl, hc, -⟩ := htext.exists_cons
  refine takeWhile_eq_left_iff.2 ⟨hgap, fun d hd => ?_⟩
  obtain rfl := Option.some.inj hd
  exact isAsciiBlank_of_startsLexeme hc

/-- A text with a lexeme does not consist of white space. -/
theorem Separate.exists_mem {gap text : List Char} {more : Layout}
    (h : (lexeme gap text more).Separate) :
    ∃ c ∈ (lexeme gap text more).chars, isAsciiBlank c = false := by
  obtain ⟨c, more', rfl, hc, -⟩ := h.2.1.exists_cons
  exact ⟨c, by simp [chars], isAsciiBlank_of_startsLexeme hc⟩

/-- **A text is cut in one way** into white space and longest lexemes. -/
theorem eq_of_chars_eq {l : Layout} : ∀ {l' : Layout}, l.Separate → l'.Separate →
    l.chars = l'.chars → l = l' := by
  induction l with
  | blank gap =>
      intro l' h h' hchars
      cases l' with
      | blank gap' => exact congrArg blank hchars
      | lexeme gap' text' more' =>
          obtain ⟨c, hc, hnot⟩ := h'.exists_mem
          rw [← hchars] at hc
          cases hnot.symm.trans (h c hc)
  | lexeme gap text more ih =>
      intro l' h h' hchars
      cases l' with
      | blank gap' =>
          obtain ⟨c, hc, hnot⟩ := h.exists_mem
          rw [hchars] at hc
          cases hnot.symm.trans (h' c hc)
      | lexeme gap' text' more' =>
          obtain ⟨hgap, htext, hmore⟩ := h
          obtain ⟨hgap', htext', hmore'⟩ := h'
          have hchars : gap ++ (text ++ more.chars) = gap' ++ (text' ++ more'.chars) := hchars
          obtain rfl : gap = gap' :=
            (takeWhile_gap hgap htext).symm.trans ((congrArg _ hchars).trans
              (takeWhile_gap hgap' htext'))
          obtain ⟨rfl, hrest⟩ := htext.eq_of_append_eq htext' (List.append_cancel_left hchars)
          rw [ih hmore hmore' hrest]

/-- No character of a lexeme is lost, and none is there twice. -/
theorem flatten_texts {l : Layout} (h : l.Separate) :
    l.texts.flatten = l.chars.filter fun c => !isAsciiBlank c := by
  induction l with
  | blank gap =>
      refine (List.filter_eq_nil_iff.2 fun c hc => ?_).symm
      rw [h c hc]
      decide
  | lexeme gap text more ih =>
      obtain ⟨hgap, htext, hmore⟩ := h
      have hnone : gap.filter (fun c => !isAsciiBlank c) = [] := by
        refine List.filter_eq_nil_iff.2 fun c hc => ?_
        rw [hgap c hc]
        decide
      have hall : text.filter (fun c => !isAsciiBlank c) = text := by
        refine List.filter_eq_self.2 fun c hc => ?_
        rw [htext.isAsciiBlank_of_mem c hc]
        rfl
      rw [texts, chars, List.flatten_cons, ih hmore, List.filter_append, List.filter_append, hnone,
        hall, List.nil_append]

theorem Separate.isLexeme {l : Layout} (h : l.Separate) : ∀ text ∈ l.texts, IsLexeme text := by
  induction l with
  | blank gap => exact nofun
  | lexeme gap text more ih => exact List.forall_mem_cons.2 ⟨h.2.1.1, ih h.2.2⟩

/-- Only allowed characters can be cut. -/
theorem Separate.isAllowed {l : Layout} (h : l.Separate) :
    ∀ c ∈ l.chars, Expression.isAllowed c = true := by
  have hblank {gap : List Char} (hgap : ∀ c ∈ gap, isAsciiBlank c = true) :
      ∀ c ∈ gap, Expression.isAllowed c = true := by
    intro c hc
    rw [isAllowed_eq, hgap c hc, Bool.true_or]
  induction l with
  | blank gap => exact hblank h
  | lexeme gap text more ih =>
      obtain ⟨hgap, htext, hmore⟩ := h
      obtain ⟨c, tail, rfl, hc, htail⟩ := htext.exists_cons
      have htail := (takeWhile_eq_left_iff.1 htail).1
      rw [chars]
      refine List.forall_mem_append.2 ⟨hblank hgap, List.forall_mem_append.2 ⟨?_, ih hmore⟩⟩
      refine List.forall_mem_cons.2 ⟨?_, fun d hd => isAllowed_of_continues (htail d hd)⟩
      rw [isAllowed_eq, hc, Bool.or_true]

/-- Each lexeme stands at its offset. -/
theorem prefix_drop_offsets (l : Layout) : ∀ before : List Char,
    List.Forall₂ (fun text offset => text <+: (before ++ l.chars).drop offset) l.texts
      (l.offsets before.length) := by
  induction l with
  | blank gap => exact fun _ => .nil
  | lexeme gap text more ih =>
      intro before
      refine .cons ?_ ?_
      · rw [chars, ← List.append_assoc, ← List.length_append, List.drop_left]
        exact List.prefix_append _ _
      · have h := ih (before ++ gap ++ text)
        rw [List.length_append, List.length_append] at h
        rw [chars, ← List.append_assoc, ← List.append_assoc]
        exact h

theorem length_offsets (l : Layout) : ∀ position, (l.offsets position).length = l.texts.length := by
  induction l with
  | blank gap => exact fun _ => rfl
  | lexeme gap text more ih => exact fun _ => congrArg (· + 1) (ih _)

end Layout

/-- **Every text of allowed characters is cut** into white space and longest lexemes. -/
theorem exists_layout {cs : List Char} (h : ∀ c ∈ cs, isAllowed c = true) :
    ∃ l : Layout, l.Separate ∧ l.chars = cs := by
  induction hn : cs.length using Nat.strongRecOn generalizing cs with
  | ind n ih =>
      cases cs with
      | nil => exact ⟨.blank [], nofun, rfl⟩
      | cons c rest =>
          have hrest : ∀ d ∈ rest, isAllowed d = true := fun d hd => h d (List.mem_cons_of_mem _ hd)
          have hc := h c List.mem_cons_self
          rw [isAllowed_eq, Bool.or_eq_true] at hc
          rcases hc with hblank | hstarts
          · obtain ⟨l, hl, hchars⟩ := ih rest.length (by simp [← hn]) hrest rfl
            exact ⟨l.indent c, hl.indent hblank, by rw [l.chars_indent, hchars]⟩
          · have hshorter : (rest.dropWhile (continues c)).length < n := by
              have := (List.dropWhile_suffix (continues c) (l := rest)).length_le
              simp only [List.length_cons] at hn
              omega
            obtain ⟨l, hl, hchars⟩ := ih _ hshorter
              (fun d hd => hrest d ((List.dropWhile_suffix _).subset hd)) rfl
            refine ⟨.lexeme [] (c :: rest.takeWhile (continues c)) l, ⟨nofun, ?_, hl⟩, ?_⟩
            · rw [hchars, longest_cons_iff, List.takeWhile_append_dropWhile]
              exact ⟨hstarts, rfl⟩
            · rw [Layout.chars, hchars, List.nil_append, List.cons_append,
                List.takeWhile_append_dropWhile]

end Estimating.Expression
