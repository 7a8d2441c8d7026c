/-
The grammar of expressions, and its derivations.

    expr   := term (('+' | '-') term)*
    term   := factor (('*' | '/') factor)*
    factor := number | variable | '(' expr ')' | function '(' expr (',' expr)* ')'

where a call has as many arguments as its function takes.  A derivation is kept with the offsets of
its tokens, so it holds exactly what the list of tokens holds.

* `Expression.Level`, `Expression.Phrase` — the nonterminals, repetitions and argument lists
  included;
* `Expression.Derivation`, `Expression.Derivation.yield`, `Expression.Derivation.tree` — a
  derivation, its tokens from left to right, and the tree that it stands for: operators of one level
  apply from left to right, those of a term before those of an expression;
* `Expression.Derivation.unambiguous` — **a list of tokens has one derivation at most**;
* `Expression.Derivation.polish_tree` — the listing of the tree, written out production by
  production, and `Expression.Derivation.listing_perm` — the tokens that are in it;
* `Expression.CallsOpen` — every function stands before a parenthesis, as in every list that the
  lexer makes (`Expression.callsOpen_of_tokenize`).
-/
import Estimating.Expression.Lexer
import Estimating.Expression.ReversePolish
import Estimating.Proofs.Expression.Tree
import Estimating.Proofs.Results

set_option autoImplicit false

namespace Estimating.Expression

/-- A word that is listed in reverse Polish order; parentheses and commas only group others. -/
def Word.isListed : Word → Bool
  | number _ | .variable _ | operator _ | function _ => true
  | leftParen | rightParen | comma => false

/-! ### Nonterminals -/

/-- The three levels of the grammar. -/
inductive Level
  | expr
  | term
  | factor
deriving DecidableEq

namespace Level

/-- The operators that join the parts of a phrase of the level. -/
def operators : Level → List Operator
  | expr => [.add, .sub]
  | term => [.mul, .div]
  | factor => []

/-- The level of the parts. -/
def part : Level → Level
  | expr => term
  | term => factor
  | factor => factor

/-- The least precedence of an operator that stands in a phrase of the level, outside of
parentheses. -/
def rank : Level → Nat
  | expr => 1
  | term => 2
  | factor => 3

theorem rank_part {l : Level} (h : l ≠ factor) : l.part.rank = l.rank + 1 := by
  cases l with
  | expr => rfl
  | term => rfl
  | factor => exact absurd rfl h

theorem precedence_of_mem {l : Level} {op : Operator} (h : op ∈ l.operators) :
    op.precedence = l.rank := by
  cases l <;> cases op <;> simp_all [operators, rank, Operator.precedence]

theorem mem_of_precedence {l : Level} {op : Operator} (h : op.precedence = l.rank) :
    op ∈ l.operators := by
  cases l <;> cases op <;> simp_all [operators, rank, Operator.precedence]

end Level

/-- A nonterminal: a level, the further parts of a phrase, or a list of arguments. -/
inductive Phrase
  | level (l : Level)
  | more (l : Level)
  | args (count : Nat)

/-- An expression. -/
abbrev Phrase.expr : Phrase := .level .expr

/-- What a phrase stands for; further parts wait for the tree of those before them. -/
abbrev Phrase.Meaning : Phrase → Type
  | level _ => Tree
  | more _ => Tree → Tree
  | args n => Fin n → Tree

/-! ### Derivations -/

/-- A derivation of a phrase. -/
inductive Derivation : Phrase → Type
  | /-- A first part and the further ones. -/
    chain (l : Level) (h : l ≠ .factor) (first : Derivation (.level l.part))
      (others : Derivation (.more l)) : Derivation (.level l)
  | /-- No further part. -/
    done (l : Level) : Derivation (.more l)
  | /-- A further part after an operator of the level. -/
    next (l : Level) (op : Operator) (h : op ∈ l.operators) (position : Nat)
      (part : Derivation (.level l.part)) (others : Derivation (.more l)) : Derivation (.more l)
  | number (value : Decimal) (position : Nat) : Derivation (.level .factor)
  | name (text : String) (position : Nat) : Derivation (.level .factor)
  | group (opening closing : Nat) (inner : Derivation .expr) : Derivation (.level .factor)
  | call (f : Function) (position opening closing : Nat) (inner : Derivation (.args f.arity)) :
      Derivation (.level .factor)
  | lastArg (arg : Derivation .expr) : Derivation (.args 1)
  | nextArg (n : Nat) (comma : Nat) (arg : Derivation .expr) (others : Derivation (.args n)) :
      Derivation (.args (n + 1))

namespace Derivation

/-- The tokens of a phrase. -/
def yield : {σ : Phrase} → Derivation σ → List Token
  | _, chain _ _ first others => first.yield ++ others.yield
  | _, done _ => []
  | _, next _ op _ p part others => ⟨.operator op, p⟩ :: (part.yield ++ others.yield)
  | _, number x p => [⟨.number x, p⟩]
  | _, name text p => [⟨.variable text, p⟩]
  | _, group o c inner => ⟨.leftParen, o⟩ :: (inner.yield ++ [⟨.rightParen, c⟩])
  | _, call f p o c inner =>
    ⟨.function f, p⟩ :: ⟨.leftParen, o⟩ :: (inner.yield ++ [⟨.rightParen, c⟩])
  | _, lastArg arg => arg.yield
  | _, nextArg _ p arg others => arg.yield ++ ⟨.comma, p⟩ :: others.yield

/-- What a phrase stands for. -/
def meaning : {σ : Phrase} → Derivation σ → σ.Meaning
  | _, chain _ _ first others => others.meaning first.meaning
  | _, done _ => fun before => before
  | _, next _ op _ p part others => fun before => others.meaning (.binary op p before part.meaning)
  | _, number x p => Tree.literal x p
  | _, name text p => Tree.name text p
  | _, group _ _ inner => inner.meaning
  | _, call f p _ _ inner => Tree.call f p inner.meaning
  | _, lastArg arg => fun _ => arg.meaning
  | _, nextArg _ _ arg others => Tree.prepend arg.meaning others.meaning

/-- The tree of an expression. -/
abbrev tree (d : Derivation .expr) : Tree := d.meaning

/-! ### The listing of a tree, production by production -/

/-- The tokens of a phrase in reverse Polish order; further parts follow those before them. -/
def listing : {σ : Phrase} → Derivation σ → List Token
  | _, chain _ _ first others => first.listing ++ others.listing
  | _, done _ => []
  | _, next _ op _ p part others => part.listing ++ ⟨.operator op, p⟩ :: others.listing
  | _, number x p => [⟨.number x, p⟩]
  | _, name text p => [⟨.variable text, p⟩]
  | _, group _ _ inner => inner.listing
  | _, call f p _ _ inner => inner.listing ++ [⟨.function f, p⟩]
  | _, lastArg arg => arg.listing
  | _, nextArg _ _ arg others => arg.listing ++ others.listing

/-- A list of tokens lists what a phrase stands for. -/
def Lists : (σ : Phrase) → σ.Meaning → List Token → Prop
  | .level _, t, ts => t.polish = ts
  | .more _, extend, ts => ∀ before, (extend before).polish = before.polish ++ ts
  | .args _, args, ts => Tree.polishAll args = ts

theorem lists_listing {σ : Phrase} (d : Derivation σ) : Lists σ d.meaning d.listing := by
  induction d with
  | chain l h first others ihf iho =>
      have hf : first.meaning.polish = first.listing := ihf
      have ho := iho first.meaning
      rw [hf] at ho
      exact ho
  | done l =>
      intro before
      exact (List.append_nil _).symm
  | next l op h p part others ihp iho =>
      intro before
      have hp : part.meaning.polish = part.listing := ihp
      have ho := iho (.binary op p before part.meaning)
      rw [Tree.polish_binary, hp, List.append_assoc, List.append_assoc] at ho
      rw [listing, List.append_cons, List.append_assoc]
      exact ho
  | number x p => rfl
  | name text p => rfl
  | group o c inner ih => exact ih
  | call f p o c inner ih =>
      have h : Tree.polishAll inner.meaning = inner.listing := ih
      have hc := Tree.polish_call f p inner.meaning
      rw [h] at hc
      exact hc
  | lastArg arg ih =>
      have h : arg.meaning.polish = arg.listing := ih
      have hl := Tree.polishAll_succ fun _ : Fin 1 => arg.meaning
      rw [h, Tree.polishAll_zero, List.append_nil] at hl
      exact hl
  | nextArg n comma arg others iha iho =>
      have ha : arg.meaning.polish = arg.listing := iha
      have ho : Tree.polishAll others.meaning = others.listing := iho
      have hn := Tree.polishAll_prepend arg.meaning others.meaning
      rw [ha, ho] at hn
      exact hn

/-- The listing of the tree of an expression. -/
theorem polish_tree (d : Derivation .expr) : d.tree.polish = d.listing := lists_listing d

/-- **A phrase lists its own tokens**, each once, but for parentheses and commas. -/
theorem listing_perm {σ : Phrase} (d : Derivation σ) :
    d.listing.Perm (d.yield.filter fun t => t.word.isListed) := by
  induction d with
  | chain l h first others ihf iho =>
      rw [listing, yield, List.filter_append]
      exact ihf.append iho
  | done l => exact .nil
  | next l op h p part others ihp iho =>
      rw [listing, yield, List.filter_cons_of_pos rfl, List.filter_append]
      exact List.perm_middle.trans ((ihp.append iho).cons _)
  | number x p => exact .refl _
  | name text p => exact .refl _
  | group o c inner ih =>
      simpa [listing, yield, Word.isListed] using ih
  | call f p o c inner ih =>
      have hend : List.Perm (inner.listing ++ [⟨.function f, p⟩])
          (⟨.function f, p⟩ :: inner.listing) := List.perm_append_singleton _ _
      simpa [listing, yield, Word.isListed] using hend.trans (ih.cons _)
  | lastArg arg ih => exact ih
  | nextArg n comma arg others iha iho =>
      rw [listing, yield, List.filter_append, List.filter_cons_of_neg Bool.false_ne_true]
      exact iha.append iho

end Derivation

/-! ### Where a phrase ends -/

/-- No operator of the given precedence or a tighter one stands at the head of a list. -/
def Blocked (precedence : Nat) (ts : List Token) : Prop :=
  ∀ t ∈ ts.head?, Arrangement.bindsFirst precedence t = false

theorem Blocked.nil (n : Nat) : Blocked n [] := nofun

theorem Blocked.cons {n : Nat} {t : Token} (h : Arrangement.bindsFirst n t = false)
    (ts : List Token) : Blocked n (t :: ts) := by
  intro t' ht'
  cases ht'
  exact h

theorem Blocked.head {n : Nat} {t : Token} {ts : List Token} (h : Blocked n (t :: ts)) :
    Arrangement.bindsFirst n t = false := h t rfl

/-- What binds tighter than one level binds tighter than those below. -/
theorem Blocked.mono {n m : Nat} {ts : List Token} (h : Blocked n ts) (hnm : n ≤ m) :
    Blocked m ts := by
  intro t ht
  have hn := h t ht
  unfold Arrangement.bindsFirst at hn ⊢
  split
  · next op hop =>
      simp only [hop, decide_eq_false_iff_not, Nat.not_le] at hn ⊢
      omega
  · rfl

theorem bindsFirst_operator (n p : Nat) (op : Operator) :
    Arrangement.bindsFirst n ⟨.operator op, p⟩ = decide (n ≤ op.precedence) := rfl

/-- An operator of a level goes on with its phrases. -/
theorem not_blocked_operator {l : Level} {op : Operator} (hop : op ∈ l.operators) (p : Nat)
    (ts : List Token) : ¬ Blocked l.rank (⟨.operator op, p⟩ :: ts) := by
  intro h
  have hbinds := h.head
  rw [bindsFirst_operator, Level.precedence_of_mem hop] at hbinds
  simp at hbinds

/-- It does not go on with their parts. -/
theorem blocked_operator {l : Level} {op : Operator} (hop : op ∈ l.operators) (p : Nat)
    (ts : List Token) : Blocked l.part.rank (⟨.operator op, p⟩ :: ts) := by
  have hl : l ≠ .factor := by rintro rfl; cases hop
  have hrank := Level.rank_part hl
  refine Blocked.cons ?_ ts
  rw [bindsFirst_operator, Level.precedence_of_mem hop]
  simp only [decide_eq_false_iff_not, Nat.not_le]
  omega

/-- Nothing goes on with a factor. -/
theorem blocked_factor (ts : List Token) : Blocked Level.factor.rank ts := by
  intro t _
  unfold Arrangement.bindsFirst
  split
  · next op _ => cases op <;> rfl
  · rfl

namespace Derivation

/-- The further parts of a phrase, and what ends the phrase, do not go on with its last part. -/
theorem blocked_more {l : Level} (hl : l ≠ .factor) (d : Derivation (.more l)) {rest : List Token}
    (h : Blocked l.rank rest) : Blocked l.part.rank (d.yield ++ rest) := by
  have hrank := Level.rank_part hl
  cases d with
  | done => exact h.mono (by omega)
  | next _ op hop p part others => exact blocked_operator hop p _

/-- What may follow a phrase where it ends. -/
def Ends : Phrase → List Token → Prop
  | .level l, rest => Blocked l.rank rest
  | .more l, rest => Blocked l.rank rest
  | .args _, rest => ∃ p ts, rest = ⟨.rightParen, p⟩ :: ts

/-- A derivation is the only one of its tokens, whatever follows where the phrase ends. -/
theorem yield_append_inj {σ : Phrase} (d : Derivation σ) : ∀ {d' : Derivation σ}
    {rest rest' : List Token}, Ends σ rest → Ends σ rest' →
    d.yield ++ rest = d'.yield ++ rest' → d = d' ∧ rest = rest' := by
  induction d with
  | chain l hl first others ihf iho =>
      intro d' rest rest' hr hr' h
      cases d' with
      | chain _ _ first' others' =>
          simp only [yield, List.append_assoc] at h
          obtain ⟨rfl, hmore⟩ := ihf (blocked_more hl others hr) (blocked_more hl others' hr') h
          obtain ⟨rfl, rfl⟩ := iho hr hr' hmore
          exact ⟨rfl, rfl⟩
      | _ => exact absurd rfl hl
  | done l =>
      intro d' rest rest' hr hr' h
      cases d' with
      | done => exact ⟨rfl, h⟩
      | next _ op hop p part' others' =>
          -- the operator would stand where the phrase ends
          simp only [yield, List.nil_append, List.cons_append] at h
          subst h
          exact absurd hr (not_blocked_operator hop p _)
  | next l op hop p part others ihp iho =>
      intro d' rest rest' hr hr' h
      cases d' with
      | done =>
          simp only [yield, List.nil_append, List.cons_append] at h
          subst h
          exact absurd hr' (not_blocked_operator hop p _)
      | next _ op' _ p' part' others' =>
          simp only [yield, List.cons_append, List.append_assoc, List.cons.injEq, Token.mk.injEq,
            Word.operator.injEq] at h
          obtain ⟨⟨rfl, rfl⟩, hpart⟩ := h
          have hl : l ≠ .factor := by rintro rfl; cases hop
          obtain ⟨rfl, hmore⟩ := ihp (blocked_more hl others hr) (blocked_more hl others' hr') hpart
          obtain ⟨rfl, rfl⟩ := iho hr hr' hmore
          exact ⟨rfl, rfl⟩
  | number x p =>
      intro d' rest rest' _ _ h
      cases d' <;> simp only [yield, List.cons_append, List.nil_append, List.append_assoc,
        List.cons.injEq, Token.mk.injEq, Word.number.injEq, reduceCtorEq, false_and] at h
      · exact absurd rfl ‹_›
      · obtain ⟨⟨rfl, rfl⟩, rfl⟩ := h
        exact ⟨rfl, rfl⟩
  | name text p =>
      intro d' rest rest' _ _ h
      cases d' <;> simp only [yield, List.cons_append, List.nil_append, List.append_assoc,
        List.cons.injEq, Token.mk.injEq, Word.variable.injEq, reduceCtorEq, false_and] at h
      · exact absurd rfl ‹_›
      · obtain ⟨⟨rfl, rfl⟩, rfl⟩ := h
        exact ⟨rfl, rfl⟩
  | group o c inner ih =>
      intro d' rest rest' _ _ h
      cases d' <;> simp only [yield, List.cons_append, List.nil_append, List.append_assoc,
        List.cons.injEq, Token.mk.injEq, reduceCtorEq, false_and, true_and] at h
      · exact absurd rfl ‹_›
      · obtain ⟨rfl, hinner⟩ := h
        obtain ⟨rfl, hclose⟩ := ih (Blocked.cons rfl _) (Blocked.cons rfl _) hinner
        simp only [List.cons.injEq, Token.mk.injEq, true_and] at hclose
        obtain ⟨rfl, rfl⟩ := hclose
        exact ⟨rfl, rfl⟩
  | call f p o c inner ih =>
      intro d' rest rest' _ _ h
      cases d' <;> simp only [yield, List.cons_append, List.nil_append, List.append_assoc,
        List.cons.injEq, Token.mk.injEq, Word.function.injEq, reduceCtorEq, false_and,
        true_and] at h
      · exact absurd rfl ‹_›
      · obtain ⟨⟨rfl, rfl⟩, rfl, hinner⟩ := h
        obtain ⟨rfl, hclose⟩ := ih ⟨_, _, rfl⟩ ⟨_, _, rfl⟩ hinner
        simp only [List.cons.injEq, Token.mk.injEq, true_and] at hclose
        obtain ⟨rfl, rfl⟩ := hclose
        exact ⟨rfl, rfl⟩
  | lastArg arg ih =>
      intro d' rest rest' hr hr' h
      obtain ⟨c, ts, rfl⟩ := hr
      obtain ⟨c', ts', rfl⟩ := hr'
      cases d' with
      | lastArg arg' =>
          obtain ⟨rfl, hrest⟩ := ih (Blocked.cons rfl _) (Blocked.cons rfl _) h
          exact ⟨rfl, hrest⟩
      | nextArg _ _ _ others' => cases others'
  | nextArg n comma arg others iha iho =>
      intro d' rest rest' hr hr' h
      cases d' with
      | lastArg arg' => cases others
      | nextArg _ comma' arg' others' =>
          simp only [yield, List.append_assoc, List.cons_append] at h
          obtain ⟨rfl, hcomma⟩ := iha (Blocked.cons rfl _) (Blocked.cons rfl _) h
          simp only [List.cons.injEq, Token.mk.injEq, true_and] at hcomma
          obtain ⟨rfl, hothers⟩ := hcomma
          obtain ⟨rfl, rfl⟩ := iho hr hr' hothers
          exact ⟨rfl, rfl⟩

/-- **The grammar is unambiguous**: a list of tokens has one derivation at most. -/
theorem unambiguous {d d' : Derivation .expr} (h : d.yield = d'.yield) : d = d' := by
  have h' : d.yield ++ [] = d'.yield ++ [] := congrArg (· ++ []) h
  exact (yield_append_inj d (Blocked.nil _) (Blocked.nil _) h').1

end Derivation

/-! ### Lists of the lexer -/

/-- Every function stands right before an opening parenthesis. -/
def CallsOpen (ts : List Token) : Prop :=
  ∀ i t f, ts[i]? = some t → t.word = .function f → ∃ o, ts[i + 1]? = some o ∧ o.word = .leftParen

namespace CallsOpen

theorem nil : CallsOpen [] := by
  intro i t f h
  simp at h

/-- The first token, if it is a function, and the rest. -/
theorem cons {t : Token} {ts : List Token}
    (head : ∀ f, t.word = .function f → ∃ o us, ts = o :: us ∧ o.word = .leftParen)
    (tail : CallsOpen ts) : CallsOpen (t :: ts) := by
  intro i t' f h hf
  cases i with
  | zero =>
      simp only [List.getElem?_cons_zero, Option.some.injEq] at h
      subst h
      obtain ⟨o, us, rfl, ho⟩ := head f hf
      exact ⟨o, rfl, ho⟩
  | succ i => exact tail i t' f (by simpa using h) hf

theorem tail {t : Token} {ts : List Token} (h : CallsOpen (t :: ts)) : CallsOpen ts :=
  fun i t' f ht' hf => h (i + 1) t' f (by simpa using ht') hf

theorem head {t : Token} {ts : List Token} (h : CallsOpen (t :: ts)) {f : Function}
    (hf : t.word = .function f) : ∃ p us, ts = ⟨.leftParen, p⟩ :: us := by
  obtain ⟨o, ho, hw⟩ := h 0 t f rfl hf
  cases ts with
  | nil => simp at ho
  | cons o' us =>
      simp only [List.getElem?_cons_succ, List.getElem?_cons_zero, Option.some.injEq] at ho
      subst ho
      exact ⟨o'.position, us, by rw [← hw]⟩

theorem append_right {us : List Token} : ∀ {ts : List Token}, CallsOpen (ts ++ us) → CallsOpen us
  | [], h => h
  | _ :: _, h => append_right h.tail

end CallsOpen

/-- A name is taken for a function only where it is called. -/
theorem isCall_of_readName {text : String} {isCall : Bool} {f : Function}
    (h : readName text isCall = .ok (.function f)) : isCall = true := by
  unfold readName at h
  split at h
  · assumption
  · cases h

/-- The lexer finds a function only where a parenthesis follows. -/
theorem opensCall_of_firstWord {limits : Limits} {c : Char} {rest : List Char} {f : Function}
    {n : Nat} (h : firstWord limits c rest = .ok (.function f, n)) :
    opensCall (rest.drop n) = true := by
  unfold firstWord at h
  split at h
  · cases h
  split at h
  · cases h
  split at h
  · cases h
  split at h
  · obtain ⟨x, -, hx⟩ := Except.map_eq_ok.1 h
    cases hx
  split at h
  · obtain ⟨word, hword, hn⟩ := Except.map_eq_ok.1 h
    cases hn
    exact isCall_of_readName hword
  · split at h <;> cases h

/-- Where the next character that is no white space opens a parenthesis, so does the next token. -/
theorem tokensFrom_of_opensCall {limits : Limits} : ∀ {cs : List Char} {position count : Nat}
    {ts : List Token}, opensCall cs = true → tokensFrom limits position count cs = .ok ts →
    ∃ o us, ts = o :: us ∧ o.word = .leftParen := by
  intro cs
  induction cs with
  | nil => intro _ _ _ h; simp [opensCall] at h
  | cons c cs ih =>
      intro position count ts h hts
      rw [tokensFrom] at hts
      by_cases hc : Text.isAsciiBlank c = true
      · rw [if_pos hc] at hts
        exact ih (by simpa [opensCall, hc] using h) hts
      · have hparen : c = '(' := by simpa [opensCall, hc] using h
        subst hparen
        rw [if_neg hc] at hts
        simp only [firstWord, if_true] at hts
        split at hts
        · cases hts
        · obtain ⟨us, -, hus⟩ := Except.map_eq_ok.1 hts
          exact ⟨_, us, hus.symm, rfl⟩

theorem callsOpen_of_tokensFrom {limits : Limits} {position count : Nat} {cs : List Char} :
    ∀ {ts : List Token}, tokensFrom limits position count cs = .ok ts → CallsOpen ts := by
  fun_induction tokensFrom limits position count cs with
  | case1 position count =>
      intro ts h
      cases h
      exact CallsOpen.nil
  | case2 position count c rest hc ih => exact ih
  | case3 position count c rest hc fault hw => intro ts h; cases h
  | case4 position count c rest hc word n hw hmany => intro ts h; cases h
  | case5 position count c rest hc word n hw next hmany =>
      rename_i ih
      intro ts h
      obtain ⟨us, hus, rfl⟩ := Except.map_eq_ok.1 h
      refine CallsOpen.cons ?_ (ih hus)
      rintro f rfl
      exact tokensFrom_of_opensCall (opensCall_of_firstWord hw) hus

/-- In a list that the lexer makes every function stands before a parenthesis. -/
theorem callsOpen_of_tokenize {source : String} {limits : Limits} {ts : List Token}
    (h : tokenize source limits = .ok ts) : CallsOpen ts := by
  unfold tokenize at h
  split at h
  · cases h
  · exact callsOpen_of_tokensFrom h

end Estimating.Expression
