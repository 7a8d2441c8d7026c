/-
The places that errors tell.

A token carries the offset of its lexeme.  Putting tokens in order keeps them as they are, and an
error of evaluation tells the place of the token at which it arises.  So the name in an error stands
in the text where the error says, as a lexeme of its own, and so does the operator that has no
result.  The place of a grammar fault may also be the end of the text.

* `Expression.HasLexeme` — a lexeme of a text stands at an offset;
* `Expression.Error.Placed` — what an error tells of its place is so in a text;
* `Expression.tokenize_placed`, `Expression.hasLexeme_of_tokenize` — the places of errors and of
  tokens;
* `Expression.Error.Blames` — an error tells the place of a token in a list;
* `Expression.Arrangement.DrawnFrom` — a state between two tokens keeps nothing but tokens of a
  list, with its closure under `Expression.Arrangement.step`;
* `Expression.blames_of_reversePolish`, `Expression.blames_of_evaluate` — the errors of the two
  passes over a list of tokens;
* `Expression.evalText_placed` — **an error is where it says**.
-/
import Estimating.Proofs.Expression.Evaluation
import Estimating.Proofs.Expression.Tokens

set_option autoImplicit false

namespace Estimating.Expression

variable {limits : Limits} {bindings : Bindings} {source : String}

/-! ### Lexemes and their offsets -/

/-- A text is cut into white space and longest lexemes, and `text` is the one at offset
`position`. -/
def HasLexeme (source : String) (text : List Char) (position : Nat) : Prop :=
  ∃ l : Layout, l.Separate ∧ l.chars = source.toList ∧ (text, position) ∈ l.texts.zip (l.offsets 0)

/-- A lexeme stands at its offset, as long as it can be. -/
theorem Layout.Separate.exists_append {l : Layout} (h : l.Separate) {text : List Char}
    {position : Nat} : ∀ {start : Nat}, (text, position) ∈ l.texts.zip (l.offsets start) →
    ∃ before after, l.chars = before ++ (text ++ after) ∧ start + before.length = position ∧
      Longest text after := by
  induction l with
  | blank gap => exact nofun
  | lexeme gap first more ih =>
      intro start hmem
      obtain ⟨-, hfirst, hmore⟩ := h
      rcases List.mem_cons.1 hmem with hmem | hmem
      · cases hmem
        exact ⟨gap, more.chars, rfl, rfl, hfirst⟩
      · obtain ⟨before, after, hchars, hlength, htext⟩ := ih hmore hmem
        refine ⟨gap ++ (first ++ before), after, ?_, ?_, htext⟩
        · rw [chars, hchars, List.append_assoc, List.append_assoc]
        · rw [List.length_append, List.length_append, ← hlength]
          omega

namespace HasLexeme

variable {text : List Char} {position : Nat}

theorem exists_append (h : HasLexeme source text position) :
    ∃ before after, source.toList = before ++ (text ++ after) ∧ before.length = position ∧
      Longest text after := by
  obtain ⟨l, hl, hchars, hmem⟩ := h
  obtain ⟨before, after, hsplit, hlength, htext⟩ := hl.exists_append hmem
  exact ⟨before, after, hchars.symm.trans hsplit, (Nat.zero_add _).symm.trans hlength, htext⟩

theorem lt_length (h : HasLexeme source text position) : position < source.toList.length := by
  obtain ⟨before, after, hsource, rfl, htext⟩ := h.exists_append
  obtain ⟨c, more, rfl, -⟩ := htext.exists_cons
  simp [hsource]

theorem getElem?_eq {c : Char} (h : HasLexeme source [c] position) :
    source.toList[position]? = some c := by
  obtain ⟨before, after, hsource, rfl, -⟩ := h.exists_append
  simp [hsource]

end HasLexeme

/-! ### Places in a text -/

/-- What an error tells of its place is so: the name is a lexeme there, the operator stands there,
and no place lies outside of the text. -/
def Error.Placed (source : String) : Error → Prop
  | grammar position _ => position ≤ source.toList.length
  | unbound name position | tag name position =>
    IsName name.toList ∧ HasLexeme source name.toList position
  | range .. => True
  | arithmetic position fault => source.toList[position]? = some fault.operator.symbol

/-- A word ends within the text. -/
theorem le_length_of_firstWord {c : Char} {rest : List Char} {word : Word} {n : Nat}
    (h : firstWord limits c rest = .ok (word, n)) : n ≤ rest.length := by
  have hrun (p : Char → Bool) : (rest.takeWhile p).length ≤ rest.length :=
    (List.takeWhile_prefix p).length_le
  by_cases hnumber : isNumberChar c = true
  · rw [firstWord_number hnumber] at h
    obtain ⟨x, -, hpair⟩ := Except.map_eq_ok.1 h
    cases hpair
    exact hrun _
  by_cases hname : isNameStart c = true
  · rw [firstWord_name hname] at h
    obtain ⟨w, -, hpair⟩ := Except.map_eq_ok.1 h
    cases hpair
    exact hrun _
  -- any other word is a single sign
  · rw [firstWord, if_neg hnumber, if_neg hname] at h
    split_ifs at h
    case neg => split at h <;> cases h; exact Nat.zero_le _
    all_goals cases h; exact Nat.zero_le _

/-- Cutting a text fails within it. -/
theorem tokensFrom_error {cs : List Char} {position count : Nat} {e : Error}
    (h : tokensFrom limits position count cs = .error e) :
    ∃ p fault, e = .grammar p fault ∧ p ≤ position + cs.length := by
  fun_induction tokensFrom limits position count cs with
  | case1 position count => cases h
  | case2 position count c rest hblank ih =>
      obtain ⟨p, fault, he, hp⟩ := ih h
      exact ⟨p, fault, he, by rw [List.length_cons]; omega⟩
  | case3 position count c rest hblank fault hword =>
      cases h
      exact ⟨position, fault, rfl, Nat.le_add_right _ _⟩
  | case4 position count c rest hblank word n hword next hmany =>
      cases h
      have hn := le_length_of_firstWord hword
      exact ⟨next, _, rfl, by rw [List.length_cons]; omega⟩
  | case5 position count c rest hblank word n hword next hroom ih =>
      obtain ⟨p, fault, he, hp⟩ := ih (Except.map_eq_error.1 h)
      have hn := le_length_of_firstWord hword
      rw [List.length_drop] at hp
      exact ⟨p, fault, he, by rw [List.length_cons]; omega⟩

/-- **A text without tokens is at fault within it**, or at its end. -/
theorem tokenize_placed {e : Error} (h : tokenize source limits = .error e) : e.Placed source := by
  unfold tokenize at h
  split at h
  · next e' hfault =>
      cases h
      unfold sourceFault? at hfault
      split at hfault
      · next hlong =>
          cases hfault
          exact Nat.le_of_lt hlong
      · split at hfault
        · cases hfault
          exact (List.takeWhile_prefix _).length_le
        · split at hfault
          · cases hfault
            exact Nat.zero_le _
          · cases hfault
  · obtain ⟨p, fault, rfl, hp⟩ := tokensFrom_error h
    rw [Nat.zero_add] at hp
    exact hp

/-! ### Tokens and their lexemes -/

theorem Means.of_variable {text : List Char} {next : Option (List Char)} {name : String}
    (h : Means limits text next (.variable name)) : IsName name.toList ∧ text = name.toList := by
  cases h with
  | name h hnext =>
      rw [String.toList_ofList]
      exact ⟨h, rfl⟩

theorem Means.of_operator {text : List Char} {next : Option (List Char)} {op : Operator}
    (h : Means limits text next (.operator op)) : text = [op.symbol] := by
  cases h with
  | operator op => rfl

/-- Every token has a lexeme that means its word. -/
theorem Writes.exists_means {ts : List Token} : ∀ {texts : List (List Char)},
    Writes limits texts (ts.map Token.word) → ∀ t ∈ ts, ∃ text next,
      (text, t.position) ∈ texts.zip (ts.map Token.position) ∧ Means limits text next t.word := by
  induction ts with
  | nil => exact fun _ => nofun
  | cons u us ih =>
      intro texts h
      cases h with
      | @cons text texts _ _ hword hwords =>
          refine List.forall_mem_cons.2 ⟨⟨text, _, List.mem_cons_self, hword⟩, fun t ht => ?_⟩
          obtain ⟨text', next, hmem, hmeans⟩ := ih hwords t ht
          exact ⟨text', next, List.mem_cons_of_mem _ hmem, hmeans⟩

/-- **A token stands where its lexeme does.** -/
theorem hasLexeme_of_tokenize {ts : List Token} (h : tokenize source limits = .ok ts) :
    ∀ t ∈ ts, ∃ text next,
      HasLexeme source text t.position ∧ Means limits text next t.word := by
  intro t ht
  obtain ⟨l, hl, hchars⟩ := exists_layout_of_tokenize h
  obtain ⟨-, -, hwrites, hpositions⟩ := (tokenize_eq_ok_iff hl hchars).1 h
  obtain ⟨text, next, hmem, hmeans⟩ := hwrites.exists_means t ht
  exact ⟨text, next, ⟨l, hl, hchars, hpositions ▸ hmem⟩, hmeans⟩

/-! ### Errors at tokens -/

/-- The error tells the place of one of the tokens: of a variable with its name, of its operator, or
in a grammar fault of any token.  A grammar fault may also be told one past a token, or at the
beginning. -/
def Error.Blames (ts : List Token) : Error → Prop
  | grammar position _ => position = 0 ∨ ∃ t ∈ ts, position ≤ t.position + 1
  | unbound name position | tag name position => ⟨.variable name, position⟩ ∈ ts
  | range .. => True
  | arithmetic position fault => ⟨.operator fault.operator, position⟩ ∈ ts

theorem Error.Blames.mono {ts us : List Token} {e : Error} (h : e.Blames ts) (hsub : ts ⊆ us) :
    e.Blames us := by
  cases e with
  | grammar position fault => exact h.imp_right fun ⟨t, ht, hle⟩ => ⟨t, hsub ht, hle⟩
  | unbound name position => exact hsub h
  | tag name position => exact hsub h
  | range value limit => trivial
  | arithmetic position fault => exact hsub h

/-- An error at a token of a text is placed in the text. -/
theorem Error.Blames.placed {ts : List Token} {e : Error} (h : e.Blames ts)
    (hts : tokenize source limits = .ok ts) : e.Placed source := by
  have hlexeme := hasLexeme_of_tokenize hts
  have hname {name : String} {position : Nat} (h : ⟨.variable name, position⟩ ∈ ts) :
      IsName name.toList ∧ HasLexeme source name.toList position := by
    obtain ⟨text, next, htext, hmeans⟩ := hlexeme _ h
    obtain ⟨hisName, rfl⟩ := hmeans.of_variable
    exact ⟨hisName, htext⟩
  cases e with
  | grammar position fault =>
      rcases h with rfl | ⟨t, ht, hle⟩
      · exact Nat.zero_le _
      · obtain ⟨text, next, htext, -⟩ := hlexeme t ht
        exact Nat.le_trans hle htext.lt_length
  | unbound name position => exact hname h
  | tag name position => exact hname h
  | range value limit => trivial
  | arithmetic position fault =>
      obtain ⟨text, next, htext, hmeans⟩ := hlexeme _ h
      obtain rfl := hmeans.of_operator
      exact htext.getElem?_eq

/-! ### Putting tokens in order -/

namespace Arrangement

/-- All that a state keeps comes from the tokens `ts`. -/
structure DrawnFrom (ts : List Token) (s : Arrangement) : Prop where
  output : s.output ⊆ ts
  stack : s.stack ⊆ ts
  frames : ∀ fr ∈ s.frames, ∃ t ∈ ts, t.position = fr.position
  ending : s.ending = 0 ∨ ∃ t ∈ ts, s.ending = t.position + 1

namespace DrawnFrom

variable {ts : List Token} {s s' : Arrangement} {t : Token}

theorem start (ts : List Token) : DrawnFrom ts .start :=
  ⟨List.nil_subset _, List.nil_subset _, nofun, .inl rfl⟩

/-- What waits may be put out. -/
theorem put {w below : List Token} (h : DrawnFrom ts s) (hs : s.stack = w ++ below) :
    DrawnFrom ts { s with output := w.reverse ++ s.output, stack := below } := by
  have hstack := h.stack
  rw [hs, List.append_subset] at hstack
  refine { h with output := ?_, stack := hstack.2 }
  exact List.append_subset.2 ⟨List.reverse_subset.2 hstack.1, h.output⟩

theorem flushToParen {p : Nat} {fault : GrammarFault} (h : DrawnFrom ts s)
    (hs : s.flushToParen p fault = .ok s') : DrawnFrom ts s' := by
  obtain ⟨w, below, hstack, rfl⟩ := flushToParen_eq_ok hs
  exact h.put hstack

theorem operand (h : DrawnFrom ts s) (ht : t ∈ ts) (hs : s.operand t = .ok s') :
    DrawnFrom ts s' := by
  obtain ⟨_, -, hs⟩ := Except.bind_eq_ok.1 hs
  cases hs
  exact { h with output := List.cons_subset.2 ⟨ht, h.output⟩ }

theorem function {f : Function} (h : DrawnFrom ts s) (ht : t ∈ ts)
    (hs : s.function f t = .ok s') : DrawnFrom ts s' := by
  obtain ⟨_, -, hs⟩ := Except.bind_eq_ok.1 hs
  cases hs
  exact { h with stack := List.cons_subset.2 ⟨ht, h.stack⟩ }

theorem openParen (h : DrawnFrom ts s) (ht : t ∈ ts) (hs : s.openParen t = .ok s') :
    DrawnFrom ts s' := by
  obtain ⟨_, -, hs⟩ := Except.bind_eq_ok.1 hs
  cases hs
  exact { h with
    stack := List.cons_subset.2 ⟨ht, h.stack⟩
    frames := List.forall_mem_cons.2 ⟨⟨t, ht, rfl⟩, h.frames⟩ }

theorem comma (h : DrawnFrom ts s) (hs : s.comma t = .ok s') : DrawnFrom ts s' := by
  obtain ⟨_, -, hs⟩ := Except.bind_eq_ok.1 hs
  obtain ⟨s₁, hflush, hs⟩ := Except.bind_eq_ok.1 hs
  have h₁ := h.flushToParen hflush
  split at hs
  · next f n p outer hframes =>
      cases hs
      have hall := h₁.frames
      rw [hframes] at hall
      obtain ⟨hinner, houter⟩ := List.forall_mem_cons.1 hall
      exact { h₁ with frames := List.forall_mem_cons.2 ⟨hinner, houter⟩ }
  · cases hs

theorem closeParen (h : DrawnFrom ts s) (hs : s.closeParen t = .ok s') : DrawnFrom ts s' := by
  obtain ⟨_, -, hs⟩ := Except.bind_eq_ok.1 hs
  obtain ⟨s₁, hflush, hs⟩ := Except.bind_eq_ok.1 hs
  have h₁ := h.flushToParen hflush
  have htail : s₁.stack.tail ⊆ ts := fun u hu => h₁.stack (List.mem_of_mem_tail hu)
  have hall := h₁.frames
  split at hs
  · cases hs
  · next hframes =>
      cases hs
      rw [hframes] at hall
      exact { h₁ with stack := htail, frames := (List.forall_mem_cons.1 hall).2 }
  · next hframes =>
      split at hs
      · cases hs
        rw [hframes] at hall
        exact { h₁ with
          output := List.append_subset.2 ⟨fun u hu => htail (List.mem_of_mem_take hu), h₁.output⟩
          stack := fun u hu => htail (List.mem_of_mem_tail hu)
          frames := (List.forall_mem_cons.1 hall).2 }
      · cases hs

theorem operator {op : Operator} (h : DrawnFrom ts s) (ht : t ∈ ts)
    (hs : s.operator op t = .ok s') : DrawnFrom ts s' := by
  obtain ⟨_, -, hs⟩ := Except.bind_eq_ok.1 hs
  cases hs
  have hput := h.put (List.prefix_iff_eq_append.1
    (List.takeWhile_prefix (bindsFirst op.precedence))).symm
  exact { hput with stack := List.cons_subset.2 ⟨ht, hput.stack⟩ }

/-- **A token adds only itself.** -/
theorem step (h : DrawnFrom ts s) (ht : t ∈ ts) (hs : s.step t = .ok s') : DrawnFrom ts s' := by
  have h : DrawnFrom ts { s with ending := t.position + 1 } :=
    { h with ending := .inr ⟨t, ht, rfl⟩ }
  simp only [Arrangement.step] at hs
  split at hs
  · exact h.operand ht hs
  · exact h.operand ht hs
  · exact h.function ht hs
  · exact h.openParen ht hs
  · exact h.comma hs
  · exact h.closeParen hs
  · exact h.operator ht hs

theorem run {us : List Token} : ∀ {s : Arrangement}, DrawnFrom ts s → us ⊆ ts →
    us.foldlM Arrangement.step s = .ok s' → DrawnFrom ts s' := by
  induction us with
  | nil =>
      intro s h _ hrun
      cases hrun
      exact h
  | cons u us ih =>
      intro s h hus hrun
      obtain ⟨hu, hus⟩ := List.cons_subset.1 hus
      rw [List.foldlM_cons] at hrun
      obtain ⟨s₁, hstep, hrun⟩ := Except.bind_eq_ok.1 hrun
      exact ih (h.step hu hstep) hus hrun

end DrawnFrom
end Arrangement

/-- Tokens are put in order as they are. -/
theorem subset_of_reversePolish {ts out : List Token} (h : reversePolish ts = .ok out) :
    out ⊆ ts := by
  obtain ⟨s, hrun, hfinish⟩ := Except.bind_eq_ok.1 h
  have hdrawn := (Arrangement.DrawnFrom.start ts).run (List.Subset.refl _) hrun
  unfold Arrangement.finish at hfinish
  split at hfinish
  · cases hfinish
  · split at hfinish
    · cases hfinish
    · cases hfinish
      exact List.append_subset.2 ⟨List.reverse_subset.2 hdrawn.output, hdrawn.stack⟩

/-- **A list of tokens is refused at one of them**, or at the end. -/
theorem blames_of_reversePolish {ts : List Token} {e : Error} (h : reversePolish ts = .error e) :
    e.Blames ts := by
  have hstart := Arrangement.DrawnFrom.start ts
  rcases Except.bind_eq_error.1 h with h | ⟨s, hrun, h⟩
  · obtain ⟨before, t, after, s, rfl, hrun, hstep⟩ := Except.foldlM_eq_error.1 h
    have hdrawn := hstart.run (List.subset_append_left _ _) hrun
    obtain ⟨p, fault, rfl, rfl | ⟨fr, hfr, rfl⟩⟩ := Arrangement.step_error hstep
    · exact .inr ⟨t, List.mem_append_right _ List.mem_cons_self, Nat.le_succ _⟩
    · obtain ⟨u, hu, hposition⟩ := hdrawn.frames fr hfr
      exact .inr ⟨u, hu, by rw [hposition]; exact Nat.le_succ _⟩
  · have hdrawn := hstart.run (List.Subset.refl _) hrun
    obtain ⟨p, fault, rfl, rfl | ⟨t, ht, rfl⟩⟩ := Arrangement.finish_error h
    · exact hdrawn.ending.imp_right fun ⟨t, ht, hending⟩ => ⟨t, ht, Nat.le_of_eq hending⟩
    · exact .inr ⟨t, hdrawn.stack ht, Nat.le_succ _⟩

/-! ### Evaluation -/

/-- A token fails at its own place. -/
theorem evalStep_blames {stack : List Decimal} {t : Token} {e : Error}
    (h : evalStep bindings stack t = .error e) : e.Blames [t] := by
  have hown {fault : GrammarFault} : (Error.grammar t.position fault).Blames [t] :=
    .inr ⟨t, List.mem_singleton_self _, Nat.le_succ _⟩
  obtain ⟨word, position⟩ := t
  unfold evalStep at h
  split at h
  · cases h
  · next name hword =>
      cases hword
      rcases lookup_error (Except.map_eq_error.1 h) with rfl | rfl
      · exact List.mem_singleton_self _
      · exact List.mem_singleton_self _
  · next op rhs lhs below hword =>
      cases hword
      obtain ⟨fault, rfl, rfl⟩ := Operator.apply_error (Except.map_eq_error.1 h)
      exact List.mem_singleton_self _
  · cases h
    exact hown
  · split at h
    · cases h
    · cases h
      exact hown
  · cases h
    exact hown

/-- **Evaluation fails at one of the tokens**, or for what is left at the end. -/
theorem blames_of_evaluate {ts : List Token} {e : Error}
    (h : evaluate ts bindings limits = .error e) : e.Blames ts := by
  rcases Except.bind_eq_error.1 h with h | ⟨stack, -, h⟩
  · obtain ⟨before, t, after, stack, rfl, -, hstep⟩ := Except.foldlM_eq_error.1 h
    refine (evalStep_blames hstep).mono ?_
    exact List.cons_subset.2 ⟨List.mem_append_right _ List.mem_cons_self, List.nil_subset _⟩
  · rcases Except.bind_eq_error.1 h with h | ⟨x, -, h⟩
    · unfold singleValue at h
      split at h <;> cases h <;> exact .inl rfl
    · rw [checkResult_error h]
      trivial

/-! ### Texts -/

/-- **An error is where it says.**  If a name has no value, it is a name and stands as a lexeme of
the text at the offset that is told.  If an operation has no result, its operator is the character
at the offset, and for a division by zero that is the sign of division.  A grammar fault is told
within the text or at its end. -/
theorem evalText_placed (source : String) (bindings : Bindings) (limits : Limits) :
    (∀ name position, evalText source bindings limits = .error (.unbound name position) ∨
        evalText source bindings limits = .error (.tag name position) →
      IsName name.toList ∧ HasLexeme source name.toList position) ∧
    (∀ position fault, evalText source bindings limits = .error (.arithmetic position fault) →
      source.toList[position]? = some fault.operator.symbol) ∧
    ∀ position fault, evalText source bindings limits = .error (.grammar position fault) →
      position ≤ source.toList.length := by
  have hplaced {e : Error} (h : evalText source bindings limits = .error e) : e.Placed source := by
    rcases Except.bind_eq_error.1 h with h | ⟨compiled, hcompile, h⟩
    · rcases Except.bind_eq_error.1 h with h | ⟨ts, hts, h⟩
      · exact tokenize_placed h
      · rcases Except.bind_eq_error.1 h with h | ⟨out, -, h⟩
        · exact (blames_of_reversePolish h).placed hts
        · cases h
    · obtain ⟨ts, hts, hcompile⟩ := Except.bind_eq_ok.1 hcompile
      obtain ⟨out, hout, hcompile⟩ := Except.bind_eq_ok.1 hcompile
      cases hcompile
      have hblames := blames_of_evaluate h
      exact (hblames.mono (subset_of_reversePolish hout)).placed hts
  refine ⟨?_, fun _ _ h => hplaced h, fun _ _ h => hplaced h⟩
  rintro name position (h | h)
  · exact hplaced h
  · exact hplaced h

/-- A room with a tag, and a number of tiles. -/
def tiledRoom : Bindings := Table.ofList [("room", .tag "bath"), ("tiles", .number .one)]

/-- A name for nothing. -/
def zeroNamed : Bindings := Table.ofList [("x", .number .zero)]

/-- A name without a value, one that stands for a tag, a division by zero, and an operand that is
missing at the end. -/
theorem evalText_placed_faults :
    (evalText " 2*(width + 1)" ∅ .standard = .error (.unbound "width" 4) ∧
      HasLexeme " 2*(width + 1)" "width".toList 4) ∧
    (evalText "tiles - room" tiledRoom .standard = .error (.tag "room" 8) ∧
      HasLexeme "tiles - room" "room".toList 8) ∧
    (evalText "max(1, 3/x)" zeroNamed .standard = .error (.arithmetic 8 .divisionByZero) ∧
      "max(1, 3/x)".toList[8]? = some '/') ∧
    evalText "1 +" ∅ .standard = .error (.grammar 3 .unexpectedEnd) ∧ 3 ≤ "1 +".toList.length := by
  have hunbound : evalText " 2*(width + 1)" ∅ .standard = .error (.unbound "width" 4) := by
    decide +kernel
  have htag : evalText "tiles - room" tiledRoom .standard = .error (.tag "room" 8) := by
    decide +kernel
  have hzero : evalText "max(1, 3/x)" zeroNamed .standard =
      .error (.arithmetic 8 .divisionByZero) := by decide +kernel
  have hend : evalText "1 +" ∅ .standard = .error (.grammar 3 .unexpectedEnd) := by decide +kernel
  obtain ⟨-, hunboundPlace⟩ := (evalText_placed _ _ _).1 _ _ (.inl hunbound)
  obtain ⟨-, htagPlace⟩ := (evalText_placed _ _ _).1 _ _ (.inr htag)
  exact ⟨⟨hunbound, hunboundPlace⟩, ⟨htag, htagPlace⟩,
    ⟨hzero, (evalText_placed _ _ _).2.1 _ _ hzero⟩, hend, (evalText_placed _ _ _).2.2 _ _ hend⟩

end Estimating.Expression
