/-
Written forms of identifiers and instants are read back.

Both are written with digits of fixed numbers, so a reader that takes as many digits as there may be
stops where they end.

* `EntryId.unhyphenate?_hyphenate` — groups of digits are found again;
* `EntryId.read?_text` — **the written form of an identifier is read as the identifier**;
* `Timestamp.Ordinary` — an instant of the years 0 to 9999;
* `Timestamp.takeNumber?_append` — digits are taken up to the first character that is none;
* `Timestamp.takeFraction?_fractionChars` — the fraction of a second, whatever its precision;
* `Timestamp.read?_chars` — **the written form of an instant is read as the instant**.
-/
import Estimating.EntryId
import Estimating.Proofs.Decimal.Numerals
import Estimating.Timestamp

set_option autoImplicit false

namespace Estimating

/-! ### Identifiers -/

namespace EntryId

theorem length_hexDigits (k n : Nat) : (hexDigits k n).length = k := by
  induction k generalizing n with
  | zero => rfl
  | succ k ih => simp [hexDigits, ih]

theorem hexValue?_digitChar {d : Nat} (h : d < 16) : Json.hexValue? (Nat.digitChar d) = some d := by
  have hall : ∀ i : Fin 16, Json.hexValue? (Nat.digitChar i.val) = some i.val := by decide
  exact hall ⟨d, h⟩

/-- The value of the last digits of a number, behind those of `m`. -/
theorem foldlM_hexDigits (k n m : Nat) :
    (hexDigits k n).foldlM (fun n c => (Json.hexValue? c).map (16 * n + ·)) m =
      some (m * 16 ^ k + n % 16 ^ k) := by
  induction k generalizing n with
  | zero => simp [hexDigits, Nat.mod_one]
  | succ k ih =>
      have hlast : Json.hexValue? (Nat.digitChar (n % 16)) = some (n % 16) :=
        hexValue?_digitChar (Nat.mod_lt n (by decide))
      rw [hexDigits, List.foldlM_append, ih, Nat.pow_succ, Nat.mul_comm (16 ^ k) 16, Nat.mod_mul]
      simp only [Option.bind_eq_bind, Option.bind_some, List.foldlM_cons, hlast, Option.map_some,
        List.foldlM_nil, Option.pure_def, Option.some.injEq]
      ring

theorem ofDigits?_hexDigits (x : EntryId) : ofDigits? (hexDigits 32 x.value) = some x := by
  have hvalue : 0 * 16 ^ 32 + x.value % 16 ^ 32 = x.value := by
    rw [Nat.zero_mul, Nat.zero_add]
    exact Nat.mod_eq_of_lt x.value_lt
  rw [ofDigits?, if_pos (length_hexDigits 32 x.value), foldlM_hexDigits, hvalue]
  exact dif_pos x.value_lt

theorem length_hyphenate {groups : List Nat} (hne : groups ≠ []) (cs : List Char) :
    (hyphenate groups cs).length + 1 = cs.length + groups.length := by
  induction groups generalizing cs with
  | nil => exact absurd rfl hne
  | cons k rest ih =>
      cases rest with
      | nil => rfl
      | cons k' rest =>
          have hrest := ih nofun (cs.drop k)
          show (cs.take k ++ '-' :: hyphenate (k' :: rest) (cs.drop k)).length + 1 = _
          rw [List.length_append, List.length_cons, List.length_cons, List.length_take]
          rw [List.length_drop] at hrest
          omega

/-- Groups of digits are found again. -/
theorem unhyphenate?_hyphenate {groups : List Nat} (hne : groups ≠ []) {cs : List Char}
    (h : cs.length = groups.sum) : unhyphenate? groups (hyphenate groups cs) = some cs := by
  induction groups generalizing cs with
  | nil => exact absurd rfl hne
  | cons k rest ih =>
      cases rest with
      | nil => exact if_pos h
      | cons k' rest =>
          rw [List.sum_cons] at h
          have hk : (cs.take k).length = k := by
            rw [List.length_take]
            omega
          have hdrop : (cs.drop k).length = (k' :: rest).sum := by
            rw [List.length_drop]
            omega
          have hrest := ih nofun hdrop
          show unhyphenate? (k :: k' :: rest)
            (cs.take k ++ '-' :: hyphenate (k' :: rest) (cs.drop k)) = _
          rw [unhyphenate?, List.drop_left' hk, List.take_left' hk]
          · simp only [hrest, Option.map_some, List.take_append_drop]
          · exact nofun

/-- **The written form of an identifier is read as the identifier.** -/
theorem read?_text (x : EntryId) : read? x.text.toList = some x := by
  have hlength := length_hexDigits 32 x.value
  have hne : groups ≠ [] := by decide
  have hform := length_hyphenate hne (hexDigits 32 x.value)
  have hgroups : groups.length = 5 := rfl
  rw [hlength, hgroups] at hform
  rw [text, String.toList_ofList, read?, if_neg (by omega), inner, if_neg (by omega),
    if_neg (by omega), unhyphenate?_hyphenate hne hlength, Option.bind_some,
    ofDigits?_hexDigits]

theorem ofJson?_toJson (x : EntryId) : ofJson? x.toJson = some x := by
  rw [ofJson?, toJson, Json.text?, Option.bind_some, read?_text]

end EntryId

/-! ### Instants -/

namespace Timestamp

open Decimal (lastDigits ofDigitChars_lastDigits isDigit_of_mem_lastDigits length_lastDigits)

/-- An instant of a year that has up to four digits. -/
structure Ordinary (t : Timestamp) : Prop where
  year : 0 ≤ t.date.year ∧ t.date.year ≤ 9999
  date : t.date.isValid = true
  minute : t.minute < minutesPerDay
  second : t.second ≤ 60
  nanosecond : t.nanosecond < 10 ^ 9

theorem isBlank_of_isDigit {c : Char} (h : c.isDigit = true) : Text.isBlank c = false := by
  simp only [Char.isDigit, Bool.and_eq_true, decide_eq_true_eq] at h
  have hlo : 48 ≤ c.toNat := h.1
  have hhi : c.toNat ≤ 57 := h.2
  simp only [Text.isBlank, Bool.or_eq_false_iff, Bool.and_eq_false_iff, decide_eq_false_iff_not,
    beq_eq_false_iff_ne]
  omega

theorem skipBlank_cons {c : Char} (h : Text.isBlank c = false) (rest : List Char) :
    skipBlank (c :: rest) = c :: rest := by
  rw [skipBlank, List.dropWhile_cons_of_neg (by simp [h])]

/-- Digits are taken up to the first character that is none. -/
theorem takeNumber?_append {most : Nat} {ds rest : List Char} (hds : ∀ d ∈ ds, d.isDigit = true)
    (hne : ds ≠ []) (hlength : ds.length ≤ most) (hrest : rest.takeWhile Char.isDigit = []) :
    takeNumber? most (ds ++ rest) = some (Json.digitsValue ds, rest) := by
  have hdigits : ((ds ++ rest).takeWhile Char.isDigit).take most = ds := by
    rw [List.takeWhile_append_of_pos hds, hrest, List.append_nil, List.take_of_length_le hlength]
  rw [takeNumber?, hdigits, if_neg hne, List.drop_left]

/-- The value of a number written with a fixed number of digits. -/
theorem digitsValue_lastDigits {k n : Nat} (h : n < 10 ^ k) :
    Json.digitsValue (lastDigits k n) = n := by
  have hvalue := ofDigitChars_lastDigits k n 0
  rw [Nat.zero_mul, Nat.zero_add, Nat.mod_eq_of_lt h] at hvalue
  exact hvalue

theorem lastDigits_ne_nil {k : Nat} (hk : k ≠ 0) (n : Nat) : lastDigits k n ≠ [] := by
  intro h
  have hlength := length_lastDigits k n
  rw [h] at hlength
  exact hk hlength.symm

/-- No white space stands in front of digits. -/
theorem skipBlank_lastDigits {k : Nat} (hk : k ≠ 0) (n : Nat) (rest : List Char) :
    skipBlank (lastDigits k n ++ rest) = lastDigits k n ++ rest := by
  obtain ⟨d, ds, hd⟩ := List.exists_cons_of_ne_nil (lastDigits_ne_nil hk n)
  have hdigit : d.isDigit = true := isDigit_of_mem_lastDigits (hd ▸ List.mem_cons_self)
  rw [hd, List.cons_append, skipBlank_cons (isBlank_of_isDigit hdigit)]

/-- Two digits are taken. -/
theorem takePart?_lastDigits {n : Nat} (h : n < 100) {rest : List Char}
    (hrest : rest.takeWhile Char.isDigit = []) :
    takePart? (lastDigits 2 n ++ rest) = some (n, rest) := by
  rw [takePart?, skipBlank_lastDigits (by decide),
    takeNumber?_append (fun d => isDigit_of_mem_lastDigits) (lastDigits_ne_nil (by decide) n)
      (length_lastDigits 2 n).le hrest, digitsValue_lastDigits h]

theorem takeYear?_yearChars {year : Int} (h : 0 ≤ year ∧ year ≤ 9999) {rest : List Char}
    (hrest : rest.takeWhile Char.isDigit = []) :
    takeYear? (yearChars year ++ rest) = some (year, rest) := by
  have hsmall : year.toNat < 10 ^ 4 := by omega
  have hfour : takeNumber? 4 (lastDigits 4 year.toNat ++ rest) = some (year.toNat, rest) := by
    rw [takeNumber?_append (fun d => isDigit_of_mem_lastDigits) (lastDigits_ne_nil (by decide) _)
      (length_lastDigits 4 _).le hrest, digitsValue_lastDigits hsmall]
  have hyear : (year.toNat : Int) = year := Int.toNat_of_nonneg h.1
  rw [yearChars, if_pos h, takeYear?, skipBlank_lastDigits (by decide)]
  -- the first character is a digit, so there is no sign
  obtain ⟨d, ds, hd⟩ :=
    List.exists_cons_of_ne_nil (lastDigits_ne_nil (k := 4) (by decide) year.toNat)
  have hdigit : d.isDigit = true := isDigit_of_mem_lastDigits (hd ▸ List.mem_cons_self)
  split
  · next heq =>
      rw [hd] at heq
      cases heq
      cases hdigit
  · next heq =>
      rw [hd] at heq
      cases heq
      cases hdigit
  · rw [hfour, Option.map_some, hyear]

theorem takeSign?_cons {sign : Char} (h : Text.isBlank sign = false) (rest : List Char) :
    takeSign? sign (sign :: rest) = some rest := by
  rw [takeSign?, skipBlank_cons h]
  exact if_pos rfl

/-- The fraction of a second, with as many digits as hold it. -/
theorem takeFraction?_fractionChars {nanosecond : Nat} (h : nanosecond < 10 ^ 9) {c : Char}
    (hdigit : c.isDigit = false) (hpoint : c ≠ '.') (rest : List Char) :
    takeFraction? (fractionChars nanosecond ++ c :: rest) = some (nanosecond, c :: rest) := by
  have htake {k n : Nat} (hk : k ≠ 0) (hk9 : k ≤ 9) (hn : n < 10 ^ k)
      (hvalue : n * 10 ^ (9 - k) = nanosecond) :
      takeFraction? ('.' :: lastDigits k n ++ c :: rest) = some (nanosecond, c :: rest) := by
    have hall : ∀ d ∈ lastDigits k n, d.isDigit = true := fun d => isDigit_of_mem_lastDigits
    have hdigits : ((lastDigits k n ++ c :: rest).takeWhile Char.isDigit).take 9 =
        lastDigits k n := by
      rw [List.takeWhile_append_of_pos hall, List.takeWhile_cons_of_neg (by simp [hdigit]),
        List.append_nil, List.take_of_length_le (by rwa [length_lastDigits])]
    have hrest : (lastDigits k n ++ c :: rest).dropWhile Char.isDigit = c :: rest := by
      rw [List.dropWhile_append_of_pos hall, List.dropWhile_cons_of_neg (by simp [hdigit])]
    rw [List.cons_append, takeFraction?, hdigits, if_neg (lastDigits_ne_nil hk n), hrest,
      digitsValue_lastDigits hn, length_lastDigits, hvalue]
  unfold fractionChars
  split
  · next hzero =>
      subst hzero
      rw [List.nil_append, takeFraction?]
      exact fun _ heq => hpoint (List.cons.inj heq).1
  · split
    · next hmilli =>
        exact htake (by decide) (by decide) (by omega)
          (Nat.div_mul_cancel (Nat.dvd_of_mod_eq_zero hmilli))
    · split
      · next hmicro =>
          exact htake (by decide) (by decide) (by omega)
            (Nat.div_mul_cancel (Nat.dvd_of_mod_eq_zero hmicro))
      · exact htake (by decide) (by decide) h (Nat.mul_one nanosecond)

/-- The seconds end where the fraction begins. -/
theorem takeWhile_fractionChars (nanosecond : Nat) (rest : List Char) :
    (fractionChars nanosecond ++ 'Z' :: rest).takeWhile Char.isDigit = [] := by
  unfold fractionChars
  split
  · rfl
  · split
    · rfl
    · split <;> rfl

/-- At a distance of nothing the instant is the local one. -/
theorem ofLocal_zero {date : Date} {minute second nanosecond : Nat} (h : minute < minutesPerDay) :
    ofLocal date minute second nanosecond 0 = ⟨date, minute, second, nanosecond⟩ := by
  rw [ofLocal]
  simp only [Int.sub_zero, Int.toNat_natCast]
  rw [if_neg (by omega), if_pos (Int.ofNat_lt.2 h)]

theorem month_day_lt {d : Date} (h : d.isValid = true) : d.month < 100 ∧ d.day < 100 := by
  simp only [Date.isValid, Bool.and_eq_true, decide_eq_true_eq] at h
  have hdays : daysInMonth d.year d.month ≤ 31 := by
    unfold daysInMonth
    split
    · split <;> omega
    · split <;> omega
  omega

/-- **The written form of an instant is read as the instant.** -/
theorem read?_chars {t : Timestamp} (h : t.Ordinary) : read? t.chars = some t := by
  obtain ⟨hmonth, hday⟩ := month_day_lt h.date
  have hminutes : minutesPerDay = 1440 := rfl
  have hminute := h.minute
  have hhour : t.minute / 60 < 24 := by omega
  have hrest : t.minute % 60 < 60 := by omega
  have hhour' : t.minute / 60 < 100 := by omega
  have hrest' : t.minute % 60 < 100 := by omega
  have hlocal : ofLocal ⟨t.date.year, t.date.month, t.date.day⟩ (t.minute / 60 * 60 + t.minute % 60)
      t.second t.nanosecond 0 = t := by
    rw [Nat.div_add_mod']
    exact ofLocal_zero h.minute
  have hdash : Text.isBlank '-' = false := by decide
  have hcolon : Text.isBlank ':' = false := by decide
  -- the parts one after the other, each up to the sign behind it
  have hsecond := takePart?_lastDigits (n := t.second) (Nat.lt_of_le_of_lt h.second (by decide))
    (takeWhile_fractionChars t.nanosecond [])
  have hfraction := takeFraction?_fractionChars h.nanosecond (c := 'Z') (by decide) (by decide) []
  have hoffset : takeOffset? ['Z'] = some (0, []) := by decide
  simp only [chars, List.append_assoc, List.cons_append]
  refine Option.bind_eq_some_iff.2 ⟨_, takeYear?_yearChars h.year rfl, ?_⟩
  refine Option.bind_eq_some_iff.2 ⟨_, takeSign?_cons hdash _, ?_⟩
  refine Option.bind_eq_some_iff.2 ⟨_, takePart?_lastDigits hmonth rfl, ?_⟩
  refine Option.bind_eq_some_iff.2 ⟨_, takeSign?_cons hdash _, ?_⟩
  refine Option.bind_eq_some_iff.2 ⟨_, takePart?_lastDigits hday rfl, ?_⟩
  refine (if_pos (.inl rfl)).trans ?_
  refine Option.bind_eq_some_iff.2 ⟨_, takePart?_lastDigits hhour' rfl, ?_⟩
  refine Option.bind_eq_some_iff.2 ⟨_, takeSign?_cons hcolon _, ?_⟩
  refine Option.bind_eq_some_iff.2 ⟨_, takePart?_lastDigits hrest' rfl, ?_⟩
  refine Option.bind_eq_some_iff.2 ⟨_, takeSign?_cons hcolon _, ?_⟩
  refine Option.bind_eq_some_iff.2 ⟨_, hsecond, ?_⟩
  refine Option.bind_eq_some_iff.2 ⟨_, hfraction, ?_⟩
  refine Option.bind_eq_some_iff.2 ⟨_, hoffset, ?_⟩
  refine (if_pos ⟨h.date, hhour, hrest, h.second, rfl, ?_⟩).trans (congrArg some hlocal)
  rw [hlocal]
  exact h.date

theorem ofJson?_toJson {t : Timestamp} (h : t.Ordinary) : ofJson? t.toJson = some t := by
  rw [ofJson?, toJson, Json.text?, Option.bind_some, text, String.toList_ofList, read?_chars h]

end Timestamp
end Estimating
