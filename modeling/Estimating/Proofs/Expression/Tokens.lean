/-
The tokens of a text are its lexemes.

A text has tokens if it is short enough, has allowed characters only and not just white space, and
if its lexemes are few enough and each of them means something.  What a lexeme means is told by its
own characters and the next lexeme, so white space has no effect but on the offsets.

* `Expression.Means` — what a lexeme writes, given the next one;
* `Expression.Writes`, `Expression.Readable` — the words of a list of lexemes, and when there are
  any (`Expression.exists_writes_iff`);
* `Expression.firstWord_eq_ok` — the lexer reads the longest lexeme and what it means;
* `Expression.tokensFrom_lexeme`, `Expression.tokensFrom_chars` — the tokens of a text that begins
  with a lexeme, and of one cut into lexemes;
* `Expression.sourceFault?_eq_none` — when a text is read at all;
* `Expression.tokenize_iff_layout` — **the texts that have tokens, and their tokens**.
-/
import Estimating.Proofs.Expression.Lexemes
import Mathlib.Data.List.Forall2
import Mathlib.Data.List.TakeWhile

set_option autoImplicit false

namespace Estimating.Expression

open Text (isAsciiBlank)

variable {limits : Limits}

/-! ### What lexemes mean -/

/-- What a lexeme writes, given the next one.  A name is that of a function where a parenthesis
follows, and a variable elsewhere. -/
inductive Means (limits : Limits) : List Char → Option (List Char) → Word → Prop
  | leftParen {next : Option (List Char)} : Means limits ['('] next .leftParen
  | rightParen {next : Option (List Char)} : Means limits [')'] next .rightParen
  | comma {next : Option (List Char)} : Means limits [','] next .comma
  | operator {next : Option (List Char)} (op : Operator) :
      Means limits [op.symbol] next (.operator op)
  | number {text : List Char} {next : Option (List Char)} {x : Decimal} (h : IsNumber text)
      (hdigit : ∃ c ∈ text, c.isDigit = true) (hpoints : text.count '.' ≤ 1)
      (hx : Decimal.readPlain (fullNumeral text) = .ok x) (hlt : x < limits.maxLiteral) :
      Means limits text next (.number x)
  | call (f : Function) : Means limits f.name.toList (some ['(']) (.function f)
  | name {text : List Char} {next : Option (List Char)} (h : IsName text)
      (hnext : next ≠ some ['(']) : Means limits text next (.variable (String.ofList text))

/-- The words that lexemes write. -/
inductive Writes (limits : Limits) : List (List Char) → List Word → Prop
  | nil : Writes limits [] []
  | cons {text : List Char} {texts : List (List Char)} {word : Word} {words : List Word}
      (hword : Means limits text texts.head? word) (hwords : Writes limits texts words) :
      Writes limits (text :: texts) (word :: words)

/-- Each number has a digit, one point at most, and a value below the limit; and each name before a
parenthesis is that of a function. -/
def Readable (limits : Limits) : List (List Char) → Prop
  | [] => True
  | text :: texts =>
    (IsNumber text → (∃ c ∈ text, c.isDigit = true) ∧ text.count '.' ≤ 1 ∧
      ∃ x, Decimal.readPlain text = .ok x ∧ x < limits.maxLiteral) ∧
    (IsName text → texts.head? = some ['('] → ∃ f : Function, text = f.name.toList) ∧
    Readable limits texts

theorem isName_name (f : Function) : IsName f.name.toList := by
  cases f <;> exact ⟨by decide, List.all_eq_true.1 (by decide)⟩

theorem IsName.not_isNumber {text : List Char} (h : IsName text) : ¬ IsNumber text := by
  intro hnumber
  cases text with
  | nil => exact h
  | cons c more =>
      have hc := hnumber.2 c List.mem_cons_self
      rw [isNumberChar_of_isNameStart h.1] at hc
      cases hc

/-- What a number means. -/
theorem Means.of_isNumber {text : List Char} {next : Option (List Char)} {word : Word}
    (h : Means limits text next word) (hnumber : IsNumber text) :
    ∃ x, readLiteral limits.maxLiteral text = .ok x := by
  have hsign {c : Char} (hc : isNumberChar c = false) (h : IsNumber [c]) : False := by
    have h := h.2 c List.mem_cons_self
    rw [hc] at h
    cases h
  cases h with
  | leftParen => exact (hsign rfl hnumber).elim
  | rightParen => exact (hsign rfl hnumber).elim
  | comma => exact (hsign rfl hnumber).elim
  | operator op => exact (hsign (by cases op <;> rfl) hnumber).elim
  | number h hdigit hpoints hx hlt => exact ⟨_, (readLiteral_eq_ok h).2 ⟨hdigit, hpoints, hx, hlt⟩⟩
  | call f => exact absurd hnumber (isName_name f).not_isNumber
  | name h => exact absurd hnumber h.not_isNumber

/-- What a name before a parenthesis means. -/
theorem Means.of_isName {text : List Char} {word : Word} (h : Means limits text (some ['(']) word)
    (hname : IsName text) : ∃ f : Function, text = f.name.toList := by
  cases h with
  | leftParen => exact absurd hname.1 (by decide)
  | rightParen => exact absurd hname.1 (by decide)
  | comma => exact absurd hname.1 (by decide)
  | operator op => exact absurd hname.1 (by cases op <;> decide)
  | number h => exact absurd h hname.not_isNumber
  | call f => exact ⟨f, rfl⟩
  | name h hnext => exact absurd rfl hnext

/-- A lexeme means something. -/
theorem exists_means_iff {text : List Char} (h : IsLexeme text) {next : Option (List Char)} :
    (∃ word, Means limits text next word) ↔
      (IsNumber text → (∃ c ∈ text, c.isDigit = true) ∧ text.count '.' ≤ 1 ∧
        ∃ x, Decimal.readPlain text = .ok x ∧ x < limits.maxLiteral) ∧
      (IsName text → next = some ['('] → ∃ f : Function, text = f.name.toList) := by
  constructor
  · rintro ⟨word, hword⟩
    refine ⟨fun hnumber => (exists_readLiteral hnumber).1 (hword.of_isNumber hnumber), ?_⟩
    rintro hname rfl
    exact hword.of_isName hname
  · rintro ⟨hliteral, hcall⟩
    cases h with
    | @sign c h =>
        simp only [isSign, Bool.or_eq_true, beq_iff_eq] at h
        rcases h with (((((rfl | rfl) | rfl) | rfl) | rfl) | rfl) | rfl
        · exact ⟨_, .leftParen⟩
        · exact ⟨_, .rightParen⟩
        · exact ⟨_, .comma⟩
        · exact ⟨_, .operator .add⟩
        · exact ⟨_, .operator .sub⟩
        · exact ⟨_, .operator .mul⟩
        · exact ⟨_, .operator .div⟩
    | number h =>
        obtain ⟨x, hx⟩ := (exists_readLiteral h).2 (hliteral h)
        obtain ⟨hdigit, hpoints, hread, hlt⟩ := (readLiteral_eq_ok h).1 hx
        exact ⟨_, .number h hdigit hpoints hread hlt⟩
    | name h =>
        by_cases hnext : next = some ['(']
        · obtain ⟨f, rfl⟩ := hcall h hnext
          subst hnext
          exact ⟨_, .call f⟩
        · exact ⟨_, .name h hnext⟩

/-- Lexemes write words if they are readable. -/
theorem exists_writes_iff {texts : List (List Char)} (h : ∀ text ∈ texts, IsLexeme text) :
    (∃ words, Writes limits texts words) ↔ Readable limits texts := by
  induction texts with
  | nil => exact ⟨fun _ => trivial, fun _ => ⟨[], .nil⟩⟩
  | cons text texts ih =>
      have hhead : (∃ word, Means limits text texts.head? word) ↔ _ :=
        exists_means_iff (h text List.mem_cons_self)
      have htail := ih fun t ht => h t (List.mem_cons_of_mem _ ht)
      rw [Readable, ← and_assoc, ← hhead, ← htail]
      constructor
      · rintro ⟨words, hwrites⟩
        cases hwrites with
        | cons hword hwords => exact ⟨⟨_, hword⟩, _, hwords⟩
      · rintro ⟨⟨word, hword⟩, words, hwords⟩
        exact ⟨word :: words, .cons hword hwords⟩

/-! ### The word at the head of a text -/

theorem firstWord_number {c : Char} (hc : isNumberChar c = true) (rest : List Char) :
    firstWord limits c rest =
      (readLiteral limits.maxLiteral (c :: rest.takeWhile isNumberChar)).map fun x =>
        (.number x, (rest.takeWhile isNumberChar).length) := by
  have hne {d : Char} (hd : isNumberChar d = false) : c ≠ d := by
    rintro rfl
    cases hc.symm.trans hd
  rw [firstWord, if_neg (hne rfl), if_neg (hne rfl), if_neg (hne rfl), if_pos hc]

theorem firstWord_name {c : Char} (hc : isNameStart c = true) (rest : List Char) :
    firstWord limits c rest =
      (readName (String.ofList (c :: rest.takeWhile isNameChar))
        (opensCall (rest.drop (rest.takeWhile isNameChar).length))).map fun word =>
          (word, (rest.takeWhile isNameChar).length) := by
  have hne {d : Char} (hd : isNameStart d = false) : c ≠ d := by
    rintro rfl
    cases hc.symm.trans hd
  rw [firstWord, if_neg (hne rfl), if_neg (hne rfl), if_neg (hne rfl),
    if_neg (by rw [isNumberChar_of_isNameStart hc]; decide), if_pos hc]

theorem Function.name_of_ofName? {name : String} {f : Function} (h : ofName? name = some f) :
    name = f.name := by
  unfold ofName? at h
  split at h <;> cases h <;> rfl

/-- What the name of a function and that of a variable mean. -/
theorem readName_eq_ok {text : List Char} {isCall : Bool} {word : Word} :
    readName (String.ofList text) isCall = .ok word ↔
      isCall = true ∧ (∃ f : Function, text = f.name.toList ∧ word = .function f) ∨
      isCall = false ∧ word = .variable (String.ofList text) := by
  cases isCall with
  | false => simp [readName, eq_comm]
  | true =>
      rw [readName, if_pos rfl]
      constructor
      · intro h
        split at h
        · next f hf =>
            cases h
            refine .inl ⟨rfl, f, ?_, rfl⟩
            rw [← Function.name_of_ofName? hf, String.toList_ofList]
        · cases h
      · rintro (⟨-, f, rfl, rfl⟩ | ⟨hfalse, -⟩)
        · rw [String.ofList_toList, Function.ofName?_name]
        · cases hfalse

section

variable {c : Char} {more rest : List Char} {next : Option (List Char)} {word : Word}

/-- The lexer reads what the longest lexeme means. -/
theorem firstWord_of_means (h : Longest (c :: more) rest)
    (hnext : opensCall rest = true ↔ next = some ['('])
    (hmeans : Means limits (c :: more) next word) :
    firstWord limits c (more ++ rest) = .ok (word, more.length) := by
  obtain ⟨-, hmore⟩ := longest_cons_iff.1 h
  generalize htext : c :: more = text at hmeans
  cases hmeans with
  | leftParen =>
      cases htext
      rfl
  | rightParen =>
      cases htext
      rfl
  | comma =>
      cases htext
      rfl
  | operator op =>
      cases htext
      cases op <;> rfl
  | number h hdigit hpoints hx hlt =>
      subst htext
      have hc := h.2 c List.mem_cons_self
      rw [continues_number hc] at hmore
      rw [firstWord_number hc, hmore, (readLiteral_eq_ok h).2 ⟨hdigit, hpoints, hx, hlt⟩]
      rfl
  | call f =>
      have hc : isNameStart c = true := by
        have hname := isName_name f
        rw [← htext] at hname
        exact hname.1
      rw [continues_name hc] at hmore
      rw [firstWord_name hc, hmore, List.drop_left,
        readName_eq_ok.2 (.inl ⟨hnext.2 rfl, f, htext, rfl⟩)]
      rfl
  | name h hother =>
      subst htext
      rw [continues_name h.1] at hmore
      have hvariable : opensCall rest = false := by
        rw [← Bool.not_eq_true, hnext]
        exact hother
      rw [firstWord_name h.1, hmore, List.drop_left, readName_eq_ok.2 (.inr ⟨hvariable, rfl⟩)]
      rfl

/-- **The lexer reads the longest lexeme, and what it means.** -/
theorem firstWord_eq_ok (h : Longest (c :: more) rest)
    (hnext : opensCall rest = true ↔ next = some ['(']) {n : Nat} :
    firstWord limits c (more ++ rest) = .ok (word, n) ↔
      n = more.length ∧ Means limits (c :: more) next word := by
  constructor
  · intro hword
    obtain ⟨hc, hmore⟩ := longest_cons_iff.1 h
    have hcontinues := (takeWhile_eq_left_iff.1 hmore).1
    simp only [startsLexeme, Bool.or_eq_true] at hc
    rcases hc with (hsign | hnumber) | hname
    · rw [continues_sign hsign] at hcontinues
      obtain rfl : more = [] := List.eq_nil_iff_forall_not_mem.2 fun d hd =>
        Bool.false_ne_true (hcontinues d hd)
      simp only [isSign, Bool.or_eq_true, beq_iff_eq] at hsign
      rcases hsign with (((((rfl | rfl) | rfl) | rfl) | rfl) | rfl) | rfl <;> cases hword
      · exact ⟨rfl, .leftParen⟩
      · exact ⟨rfl, .rightParen⟩
      · exact ⟨rfl, .comma⟩
      · exact ⟨rfl, .operator .add⟩
      · exact ⟨rfl, .operator .sub⟩
      · exact ⟨rfl, .operator .mul⟩
      · exact ⟨rfl, .operator .div⟩
    · rw [continues_number hnumber] at hmore hcontinues
      have htext : IsNumber (c :: more) :=
        ⟨List.cons_ne_nil _ _, List.forall_mem_cons.2 ⟨hnumber, hcontinues⟩⟩
      rw [firstWord_number hnumber, hmore] at hword
      obtain ⟨x, hx, hpair⟩ := Except.map_eq_ok.1 hword
      cases hpair
      obtain ⟨hdigit, hpoints, hread, hlt⟩ := (readLiteral_eq_ok htext).1 hx
      exact ⟨rfl, .number htext hdigit hpoints hread hlt⟩
    · rw [continues_name hname] at hmore hcontinues
      rw [firstWord_name hname, hmore, List.drop_left] at hword
      obtain ⟨_, hread, hpair⟩ := Except.map_eq_ok.1 hword
      cases hpair
      refine ⟨rfl, ?_⟩
      obtain ⟨hcall, f, htext, rfl⟩ | ⟨hcall, rfl⟩ := readName_eq_ok.1 hread
      · rw [hnext.1 hcall, htext]
        exact .call f
      · refine .name ⟨hname, hcontinues⟩ fun hparen => ?_
        rw [hnext.2 hparen] at hcall
        cases hcall
  · rintro ⟨rfl, hmeans⟩
    exact firstWord_of_means h hnext hmeans

theorem Means.isLexeme {text : List Char} (h : Means limits text next word) : IsLexeme text := by
  cases h with
  | leftParen => exact .sign rfl
  | rightParen => exact .sign rfl
  | comma => exact .sign rfl
  | operator op => exact .sign (by cases op <;> rfl)
  | number h => exact .number h
  | call f => exact .name (isName_name f)
  | name h => exact .name h

/-- No lexeme but the parenthesis itself has a parenthesis in it. -/
theorem continues_paren (c : Char) : continues c '(' = false := by
  unfold continues
  split
  · rfl
  · split <;> rfl

/-- **A lexeme has one meaning** before another one. -/
theorem Means.unique {text : List Char} {word' : Word} (h : Means limits text next word)
    (h' : Means limits text next word') : word = word' := by
  -- any text that goes on like this will do
  obtain ⟨rest, hrest, hnext⟩ : ∃ rest : List Char, (∀ y, rest.head? = some y → y = '(') ∧
      (opensCall rest = true ↔ next = some ['(']) := by
    by_cases hparen : next = some ['(']
    · exact ⟨['('], fun y hy => (Option.some.inj hy).symm, fun _ => hparen, fun _ => rfl⟩
    · exact ⟨[], nofun, nofun, fun h => absurd h hparen⟩
  obtain ⟨c, more, rfl⟩ := h.isLexeme.exists_cons
  obtain ⟨hc, hmore⟩ := isLexeme_cons_iff.1 h.isLexeme
  have hlongest : Longest (c :: more) rest := by
    refine longest_cons_iff.2 ⟨hc, takeWhile_eq_left_iff.2 ⟨hmore, fun y hy => ?_⟩⟩
    rw [hrest y hy]
    exact continues_paren c
  have hword := (firstWord_of_means hlongest hnext h).symm.trans
    (firstWord_of_means hlongest hnext h')
  exact (Prod.mk.inj (Except.ok.inj hword)).1

end

/-- Lexemes write their words in one way. -/
theorem Writes.unique {texts : List (List Char)} {words words' : List Word}
    (h : Writes limits texts words) (h' : Writes limits texts words') : words = words' := by
  induction h generalizing words' with
  | nil =>
      cases h'
      rfl
  | cons hword _ ih =>
      cases h' with
      | cons hword' hwords' => rw [hword.unique hword', ih hwords']

theorem Writes.length_eq {texts : List (List Char)} {words : List Word}
    (h : Writes limits texts words) : words.length = texts.length := by
  induction h with
  | nil => rfl
  | cons _ _ ih => exact congrArg (· + 1) ih

/-! ### The tokens of a layout -/

/-- A parenthesis comes next if it is the next lexeme. -/
theorem opensCall_chars {l : Layout} (h : l.Separate) :
    opensCall l.chars = true ↔ l.texts.head? = some ['('] := by
  cases l with
  | blank gap =>
      have hnone : gap.dropWhile isAsciiBlank = [] := List.dropWhile_eq_nil_iff.2 h
      rw [opensCall, Layout.chars, hnone]
      exact iff_of_false Bool.false_ne_true (by simp [Layout.texts])
  | lexeme gap text more =>
      obtain ⟨hgap, htext, -⟩ := h
      have hdrop : (gap ++ (text ++ more.chars)).dropWhile isAsciiBlank = text ++ more.chars := by
        have hsplit := List.takeWhile_append_dropWhile (p := isAsciiBlank)
          (l := gap ++ (text ++ more.chars))
        rw [Layout.takeWhile_gap hgap htext] at hsplit
        exact List.append_cancel_left hsplit
      obtain ⟨c, tail, rfl, hc, htail⟩ := htext.exists_cons
      rw [opensCall, Layout.chars, hdrop]
      have hparen : c = '(' ↔ c :: tail = ['('] := by
        constructor
        · rintro rfl
          rw [continues_sign rfl] at htail
          have hnil := (takeWhile_eq_left_iff.1 htail).1
          rw [List.eq_nil_iff_forall_not_mem.2 fun d hd => Bool.false_ne_true (hnil d hd)]
        · intro h
          exact (List.cons.inj h).1
      simpa [Layout.texts] using hparen

/-- White space in front of a text moves its tokens. -/
theorem tokensFrom_gap {gap : List Char} (hgap : ∀ c ∈ gap, isAsciiBlank c = true)
    (count : Nat) (cs : List Char) : ∀ position, tokensFrom limits position count (gap ++ cs) =
      tokensFrom limits (position + gap.length) count cs := by
  induction gap with
  | nil => exact fun _ => rfl
  | cons c gap ih =>
      intro position
      rw [List.cons_append, tokensFrom, if_pos (hgap c List.mem_cons_self),
        ih (fun d hd => hgap d (List.mem_cons_of_mem _ hd)), List.length_cons]
      congr 1
      omega

/-- A text that begins with a lexeme has tokens if there is room for one more, the lexeme means
something, and the rest has tokens. -/
theorem tokensFrom_lexeme {c : Char} {tail : List Char} {more : Layout}
    (htext : Longest (c :: tail) more.chars) (hmore : more.Separate) {position count : Nat}
    {ts : List Token} : tokensFrom limits position count (c :: tail ++ more.chars) = .ok ts ↔
      count + 1 ≤ limits.maxTokens ∧ ∃ word us, ts = ⟨word, position⟩ :: us ∧
        Means limits (c :: tail) more.texts.head? word ∧
        tokensFrom limits (position + (c :: tail).length) (count + 1) more.chars = .ok us := by
  have hnext := opensCall_chars hmore
  have hblank : ¬ isAsciiBlank c = true := by
    rw [isAsciiBlank_of_startsLexeme (longest_cons_iff.1 htext).1]
    decide
  rw [List.cons_append, tokensFrom, if_neg hblank]
  cases hword : firstWord limits c (tail ++ more.chars) with
  | error fault =>
      refine ⟨fun hts => (by cases hts), ?_⟩
      rintro ⟨-, word, us, -, hmeans, -⟩
      cases hword.symm.trans (firstWord_of_means htext hnext hmeans)
  | ok result =>
      obtain ⟨word, n⟩ := result
      obtain ⟨rfl, hmeans⟩ := (firstWord_eq_ok htext hnext).1 hword
      have hoffset : position + (c :: tail).length = position + 1 + tail.length := by
        rw [List.length_cons]
        omega
      rw [hoffset]
      simp only [List.drop_left]
      by_cases hmany : count + 1 > limits.maxTokens
      · rw [if_pos hmany]
        refine ⟨fun hts => (by cases hts), fun h => ?_⟩
        exact absurd h.1 (Nat.not_le.2 hmany)
      · rw [if_neg hmany, Except.map_eq_ok]
        constructor
        · rintro ⟨us, hus, rfl⟩
          exact ⟨Nat.not_lt.1 hmany, word, us, rfl, hmeans, hus⟩
        · rintro ⟨-, word', us, rfl, hmeans', hus⟩
          exact ⟨us, hus, by rw [hmeans.unique hmeans']⟩

/-- **The tokens of a text cut into lexemes** are what these write, at their offsets. -/
theorem tokensFrom_chars {l : Layout} (h : l.Separate) :
    ∀ (position : Nat) {count : Nat} {ts : List Token}, count ≤ limits.maxTokens →
      (tokensFrom limits position count l.chars = .ok ts ↔
        count + l.texts.length ≤ limits.maxTokens ∧ Writes limits l.texts (ts.map Token.word) ∧
          ts.map Token.position = l.offsets position) := by
  induction l with
  | blank gap =>
      intro position count ts hcount
      have hgap : tokensFrom limits position count (gap ++ []) = _ :=
        tokensFrom_gap h count [] position
      rw [List.append_nil, tokensFrom] at hgap
      rw [Layout.chars, hgap]
      constructor
      · intro hts
        cases hts
        exact ⟨hcount, .nil, rfl⟩
      · rintro ⟨-, -, hpositions⟩
        rw [List.map_eq_nil_iff.1 hpositions]
  | lexeme gap text more ih =>
      intro position count ts hcount
      obtain ⟨hgap, htext, hmore⟩ := h
      obtain ⟨c, tail, rfl, -⟩ := htext.exists_cons
      have hsize : ((c :: tail) :: more.texts).length = more.texts.length + 1 := List.length_cons
      rw [Layout.chars, tokensFrom_gap hgap, tokensFrom_lexeme htext hmore, Layout.texts, hsize]
      constructor
      · rintro ⟨hroom, word, us, rfl, hmeans, hus⟩
        obtain ⟨hlength, hwords, hpositions⟩ := (ih hmore _ hroom).1 hus
        exact ⟨by omega, .cons hmeans hwords, congrArg (_ :: ·) hpositions⟩
      · rintro ⟨hlength, hwrites, hpositions⟩
        cases ts with
        | nil => cases hwrites
        | cons t us =>
            cases hwrites with
            | cons hmeans hwords =>
                obtain ⟨hposition, hpositions⟩ := List.cons.inj hpositions
                have hroom : count + 1 ≤ limits.maxTokens := by omega
                refine ⟨hroom, t.word, us, by rw [← hposition], hmeans, ?_⟩
                exact (ih hmore _ hroom).2 ⟨by omega, hwords, hpositions⟩

/-! ### Texts -/

/-- A text is read if it is short enough, has allowed characters only, and not just white space. -/
theorem sourceFault?_eq_none {cs : List Char} : sourceFault? limits cs = none ↔
    cs.length ≤ limits.maxLength ∧ (∀ c ∈ cs, isAllowed c = true) ∧
      ∃ c ∈ cs, isAsciiBlank c = false := by
  unfold sourceFault?
  by_cases hlength : cs.length > limits.maxLength
  · rw [if_pos hlength]
    exact ⟨nofun, fun h => absurd hlength (Nat.not_lt.2 h.1)⟩
  · rw [if_neg hlength]
    have hlength := Nat.not_lt.1 hlength
    cases hdrop : cs.dropWhile isAllowed with
    | cons c rest =>
        refine ⟨nofun, fun h => ?_⟩
        rw [List.dropWhile_eq_nil_iff.2 h.2.1] at hdrop
        cases hdrop
    | nil =>
        have hallowed := List.dropWhile_eq_nil_iff.1 hdrop
        simp only
        by_cases hblank : cs.all isAsciiBlank = true
        · rw [if_pos hblank]
          refine ⟨nofun, ?_⟩
          rintro ⟨-, -, c, hc, hnot⟩
          rw [List.all_eq_true.1 hblank c hc] at hnot
          cases hnot
        · rw [if_neg hblank]
          refine ⟨fun _ => ⟨hlength, hallowed, ?_⟩, fun _ => rfl⟩
          simpa using hblank

/-- A text has the tokens of its layout. -/
theorem tokenize_eq_ok_iff {source : String} {l : Layout} (h : l.Separate)
    (hsource : l.chars = source.toList) {ts : List Token} :
    tokenize source limits = .ok ts ↔
      (source.toList.length ≤ limits.maxLength ∧ (∀ c ∈ source.toList, isAllowed c = true) ∧
        ∃ c ∈ source.toList, isAsciiBlank c = false) ∧
      l.texts.length ≤ limits.maxTokens ∧ Writes limits l.texts (ts.map Token.word) ∧
        ts.map Token.position = l.offsets 0 := by
  have htokens : tokensFrom limits 0 0 l.chars = .ok ts ↔ _ :=
    tokensFrom_chars h 0 (Nat.zero_le _)
  rw [hsource, Nat.zero_add] at htokens
  rw [← htokens, ← sourceFault?_eq_none, tokenize]
  cases sourceFault? limits source.toList with
  | none => simp
  | some e => exact ⟨nofun, fun h => nomatch h.1⟩

/-- A text with tokens has a layout. -/
theorem exists_layout_of_tokenize {source : String} {ts : List Token}
    (h : tokenize source limits = .ok ts) : ∃ l : Layout, l.Separate ∧ l.chars = source.toList := by
  unfold tokenize at h
  split at h
  · cases h
  · next hnone => exact exists_layout (sourceFault?_eq_none.1 hnone).2.1

/-- A text has tokens if it is read, and its lexemes are few enough and readable. -/
theorem exists_tokenize_iff {source : String} {l : Layout} (h : l.Separate)
    (hsource : l.chars = source.toList) :
    (∃ ts, tokenize source limits = .ok ts) ↔
      (source.toList.length ≤ limits.maxLength ∧ (∀ c ∈ source.toList, isAllowed c = true) ∧
        ∃ c ∈ source.toList, isAsciiBlank c = false) ∧
      l.texts.length ≤ limits.maxTokens ∧ Readable limits l.texts := by
  simp only [tokenize_eq_ok_iff h hsource, exists_and_left, ← exists_writes_iff h.isLexeme]
  refine and_congr_right fun _ => and_congr_right fun _ => ?_
  constructor
  · rintro ⟨ts, hwrites, -⟩
    exact ⟨_, hwrites⟩
  · rintro ⟨words, hwrites⟩
    have hlength : words.length = (l.offsets 0).length :=
      hwrites.length_eq.trans (l.length_offsets 0).symm
    refine ⟨(words.zip (l.offsets 0)).map fun t => ⟨t.1, t.2⟩, ?_, ?_⟩
    · rw [List.map_map]
      exact (List.map_fst_zip (Nat.le_of_eq hlength)).symm ▸ hwrites
    · rw [List.map_map]
      exact List.map_snd_zip (Nat.le_of_eq hlength.symm)

/-- The first character that is not allowed is told, unless the text is too long. -/
theorem tokenize_forbidden {source : String} {before after : List Char} {c : Char}
    (hlength : source.toList.length ≤ limits.maxLength)
    (hsource : source.toList = before ++ c :: after) (hbefore : ∀ d ∈ before, isAllowed d = true)
    (hc : isAllowed c = false) :
    tokenize source limits = .error (.grammar before.length (.forbidden c)) := by
  have htake : source.toList.takeWhile isAllowed = before := by
    rw [hsource]
    refine takeWhile_eq_left_iff.2 ⟨hbefore, fun d hd => ?_⟩
    obtain rfl := Option.some.inj hd
    exact hc
  have hdrop : source.toList.dropWhile isAllowed = c :: after := by
    have hsplit := List.takeWhile_append_dropWhile (p := isAllowed) (l := source.toList)
    rw [htake] at hsplit
    exact List.append_cancel_left (hsplit.trans hsource)
  rw [tokenize, sourceFault?, if_neg (Nat.not_lt.2 hlength), hdrop]
  simp only
  rw [htake]

/-- Of a text with characters that are not allowed the first one is told. -/
theorem exists_tokenize_forbidden {source : String}
    (hlength : source.toList.length ≤ limits.maxLength)
    (hforbidden : ∃ c ∈ source.toList, isAllowed c = false) :
    ∃ before c after, source.toList = before ++ c :: after ∧ (∀ d ∈ before, isAllowed d = true) ∧
      isAllowed c = false ∧
      tokenize source limits = .error (.grammar before.length (.forbidden c)) := by
  have hsplit := List.takeWhile_append_dropWhile (p := isAllowed) (l := source.toList)
  cases hdrop : source.toList.dropWhile isAllowed with
  | nil =>
      obtain ⟨c, hc, hnot⟩ := hforbidden
      cases (List.dropWhile_eq_nil_iff.1 hdrop c hc).symm.trans hnot
  | cons c after =>
      rw [hdrop] at hsplit
      obtain ⟨hbefore, hboundary⟩ := takeWhile_eq_left_iff.1 (congrArg _ hsplit)
      have hc := hboundary c rfl
      exact ⟨_, c, after, hsplit.symm, hbefore, hc,
        tokenize_forbidden hlength hsplit.symm hbefore hc⟩

/-- **The texts that have tokens, and their tokens.**  A text of allowed characters is cut into
longest lexemes in one way.  It has tokens if and only if it is short enough, has allowed characters
only and not just white space, and has not too many lexemes, all of them readable.  The tokens are
what the lexemes write, each at the offset of its first character; all characters but white space
are in a lexeme.  So the words do not depend on the white space.  The first character that is not
allowed is told where the text is not too long. -/
theorem tokenize_iff_layout (limits : Limits) :
    (∀ cs, (∀ c ∈ cs, isAllowed c = true) → ∃! l : Layout, l.Separate ∧ l.chars = cs) ∧
    (∀ source, (∃ ts, tokenize source limits = .ok ts) ↔
      (source.toList.length ≤ limits.maxLength ∧ (∀ c ∈ source.toList, isAllowed c = true) ∧
        ∃ c ∈ source.toList, isAsciiBlank c = false) ∧
      ∃ l : Layout, l.Separate ∧ l.chars = source.toList ∧ l.texts.length ≤ limits.maxTokens ∧
        Readable limits l.texts) ∧
    (∀ source ts, tokenize source limits = .ok ts →
      ∀ l : Layout, l.Separate → l.chars = source.toList →
        Writes limits l.texts (ts.map Token.word) ∧ ts.map Token.position = l.offsets 0 ∧
        List.Forall₂ (fun text t => text <+: source.toList.drop t.position) l.texts ts ∧
        l.texts.flatten = source.toList.filter fun c => !isAsciiBlank c) ∧
    (∀ texts words words', Writes limits texts words → Writes limits texts words' →
      words = words') ∧
    (∀ source source' ts, tokenize source limits = .ok ts →
      ∀ l l' : Layout, l.Separate → l.chars = source.toList → l'.Separate →
        l'.chars = source'.toList → l'.texts = l.texts →
        source'.toList.length ≤ limits.maxLength →
        ∃ ts', tokenize source' limits = .ok ts' ∧ ts'.map Token.word = ts.map Token.word) ∧
    ∀ source, source.toList.length ≤ limits.maxLength →
      (∃ c ∈ source.toList, isAllowed c = false) →
      ∃ before c after, source.toList = before ++ c :: after ∧
        (∀ d ∈ before, isAllowed d = true) ∧ isAllowed c = false ∧
        tokenize source limits = .error (.grammar before.length (.forbidden c)) := by
  refine ⟨?_, ?_, ?_, fun _ _ _ => Writes.unique, ?_, fun _ => exists_tokenize_forbidden⟩
  · intro cs hcs
    obtain ⟨l, hl, hchars⟩ := exists_layout hcs
    exact ⟨l, ⟨hl, hchars⟩, fun l' hl' =>
      Layout.eq_of_chars_eq hl'.1 hl (hl'.2.trans hchars.symm)⟩
  · intro source
    constructor
    · rintro ⟨ts, hts⟩
      obtain ⟨l, hl, hchars⟩ := exists_layout_of_tokenize hts
      obtain ⟨htext, hmany, hreadable⟩ := (exists_tokenize_iff hl hchars).1 ⟨ts, hts⟩
      exact ⟨htext, l, hl, hchars, hmany, hreadable⟩
    · rintro ⟨htext, l, hl, hchars, hmany, hreadable⟩
      exact (exists_tokenize_iff hl hchars).2 ⟨htext, hmany, hreadable⟩
  · intro source ts hts l hl hchars
    obtain ⟨-, -, hwrites, hpositions⟩ := (tokenize_eq_ok_iff hl hchars).1 hts
    have hprefix := l.prefix_drop_offsets []
    rw [List.nil_append, hchars, List.length_nil, ← hpositions,
      List.forall₂_map_right_iff] at hprefix
    exact ⟨hwrites, hpositions, hprefix, hchars ▸ Layout.flatten_texts hl⟩
  · intro source source' ts hts l l' hl hchars hl' hchars' htexts hlength
    obtain ⟨⟨-, -, c, hc, hnot⟩, hmany, hwrites, -⟩ := (tokenize_eq_ok_iff hl hchars).1 hts
    rw [← htexts] at hmany hwrites
    have hmem : c ∈ source'.toList := by
      have hkept := Layout.flatten_texts hl'
      rw [htexts, Layout.flatten_texts hl, hchars, hchars'] at hkept
      have hc : c ∈ source.toList.filter fun c => !isAsciiBlank c :=
        List.mem_filter.2 ⟨hc, by rw [hnot]; rfl⟩
      rw [hkept] at hc
      exact (List.mem_filter.1 hc).1
    have hallowed : ∀ d ∈ source'.toList, isAllowed d = true := hchars' ▸ hl'.isAllowed
    obtain ⟨ts', hts'⟩ := (exists_tokenize_iff hl' hchars').2
      ⟨⟨hlength, hallowed, c, hmem, hnot⟩, hmany, (exists_writes_iff hl'.isLexeme).1 ⟨_, hwrites⟩⟩
    obtain ⟨-, -, hwrites', -⟩ := (tokenize_eq_ok_iff hl' hchars').1 hts'
    exact ⟨ts', hts', hwrites'.unique hwrites⟩

/-- A call, with the white space in front of its lexemes. -/
def spacedCall (gaps : List (List Char)) : Layout :=
  (gaps.zip [['m', 'a', 'x'], ['('], ['.', '5'], [','], ['x'], [')']]).foldr
    (fun piece more => .lexeme piece.1 piece.2 more) (.blank [' '])

/-- The same call is written with less white space and with more, and one character is not
allowed. -/
theorem tokenize_iff_layout_call :
    ∃ ts ts', tokenize "max (.5,x) " .standard = .ok ts ∧
      ts.map Token.position = [0, 4, 5, 7, 8, 9] ∧
      tokenize " max( .5, x ) " .standard = .ok ts' ∧ ts'.map Token.word = ts.map Token.word ∧
      ∃ before c after, "max#1".toList = before ++ c :: after ∧ isAllowed c = false ∧
        tokenize "max#1" .standard = .error (.grammar before.length (.forbidden c)) := by
  obtain ⟨-, -, htokens, -, hspaced, hforbidden⟩ := tokenize_iff_layout .standard
  have hsome : (tokenize "max (.5,x) " .standard).toOption.isSome := by decide +kernel
  cases hts : tokenize "max (.5,x) " .standard with
  | error e =>
      rw [hts] at hsome
      cases hsome
  | ok ts =>
      have hdense : (spacedCall [[], [' '], [], [], [], []]).Separate := by decide +kernel
      have hwide : (spacedCall [[' '], [], [' '], [], [' '], [' ']]).Separate := by decide +kernel
      obtain ⟨-, hpositions, -⟩ := htokens _ ts hts _ hdense (by decide +kernel)
      obtain ⟨ts', hts', hwords⟩ := hspaced _ " max( .5, x ) " ts hts _ _ hdense
        (by decide +kernel) hwide (by decide +kernel) (by decide +kernel) (by decide +kernel)
      obtain ⟨before, c, after, hsource, -, hc, hfault⟩ := hforbidden "max#1" (by decide +kernel)
        ⟨'#', by decide +kernel, by decide⟩
      refine ⟨ts, ts', rfl, hpositions.trans (by decide +kernel), hts', hwords, before, c, after,
        hsource, hc, hfault⟩

end Estimating.Expression
