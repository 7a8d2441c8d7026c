/-
The median as an order statistic.

In a list in increasing order the values up to a bound stand in front, so the value at a place is
known from how many values are at most as large as any given one.  These numbers do not depend on
the order of the list, and they do not grow where a value is replaced by a larger one; nor, then,
does the place of a value.  What is in the middle is added up and halved without rounding, as long
as the values are of moderate size and have few fraction digits.

* `rel_getElem_iff` — **which places are taken by the values up to a bound**;
* `Central` — the values in the middle, and `Central.le_of_countP_le`, which compares those of two
  lists by their numbers;
* `Decimal.Moderate`, `exists_mean` — numbers with an exact mean;
* `sorted_eq_of_perm` — where different values have different worth, there is one increasing order;
* `exists_median` — **there is a median, and it is the mean of the central values**;
* `IsMiddle` — what is said of a value in the middle;
* `median_isMiddle` — **the median is such a value**, whatever the order of the list, and it never
  falls where a value grows.
-/
import Estimating.Proofs.Decimal.Exact
import Estimating.Proofs.Learning.Median

set_option autoImplicit false

namespace Estimating

/-! ### Places in a sorted list -/

/-- The values that are related to a bound stand in front. -/
theorem rel_getElem_iff {α : Type} (r : α → α → Prop) [DecidableRel r]
    (htrans : ∀ {a b c : α}, r a b → r b c → r a c) (z : α) {s : List α} (hs : s.Pairwise r) :
    ∀ {k : Nat} (hk : k < s.length), r s[k] z ↔ k < s.countP (r · z) := by
  induction s with
  | nil => exact fun hk => absurd hk (Nat.not_lt_zero _)
  | cons x s ih =>
      intro k hk
      obtain ⟨hx, hs⟩ := List.pairwise_cons.1 hs
      by_cases hxz : r x z
      · rw [List.countP_cons_of_pos (by simpa using hxz)]
        cases k with
        | zero => exact iff_of_true hxz (Nat.succ_pos _)
        | succ k => exact (ih hs (Nat.lt_of_succ_lt_succ hk)).trans Nat.succ_lt_succ_iff.symm
      · -- then no later value is related to the bound either
        have hlater : ∀ y ∈ s, ¬ r y z := fun y hy hyz => hxz (htrans (hx y hy) hyz)
        have hnone : (x :: s).countP (r · z) = 0 := by
          refine List.countP_eq_zero.2 fun y hy => ?_
          rcases List.mem_cons.1 hy with rfl | hy
          · simpa using hxz
          · simpa using hlater y hy
        rw [hnone]
        refine iff_of_false (fun hkz => ?_) (Nat.not_lt_zero _)
        rcases List.mem_cons.1 (List.getElem_mem hk) with heq | hmem
        · exact hxz (heq ▸ hkz)
        · exact hlater _ hmem hkz

section

variable {s : List Decimal} {k : Nat}

theorem getElem_le_iff (hs : s.Pairwise (· ≤ ·)) (hk : k < s.length) (z : Decimal) :
    s[k] ≤ z ↔ k < s.countP (· ≤ z) :=
  rel_getElem_iff (· ≤ ·) (fun h h' => Decimal.le_trans h h') z hs hk

/-- Counted from the end, the values that a bound does not exceed stand in front. -/
theorem le_getElem_iff (hs : s.Pairwise (· ≤ ·)) (hk : k < s.length) (z : Decimal) :
    z ≤ s[k] ↔ s.length - 1 - k < s.countP (z ≤ ·) := by
  have hrev : s.reverse.Pairwise fun a b => b ≤ a := List.pairwise_reverse.2 hs
  have hlt : s.length - 1 - k < s.reverse.length := by
    rw [List.length_reverse]
    omega
  have hplace := rel_getElem_iff (fun a b => b ≤ a) (fun h h' => Decimal.le_trans h' h) z hrev hlt
  have hback : s.length - 1 - (s.length - 1 - k) = k := by omega
  rw [List.countP_reverse, List.getElem_reverse] at hplace
  simp only [hback] at hplace
  exact hplace

end

/-! ### The middle -/

/-- In increasing order the values have `a` and `b` in the middle, both at one place if their number
is odd. -/
def Central (values : List Decimal) (a b : Decimal) : Prop :=
  ∃ s : List Decimal, s.Perm values ∧ s.Pairwise (· ≤ ·) ∧
    s[(s.length - 1) / 2]? = some a ∧ s[s.length / 2]? = some b

variable {values values' : List Decimal} {a b a' b' m : Decimal}

theorem exists_central {s : List Decimal} (hperm : s.Perm values) (hs : s.Pairwise (· ≤ ·))
    (hne : values ≠ []) : ∃ a b, s[(s.length - 1) / 2]? = some a ∧ s[s.length / 2]? = some b ∧
      Central values a b := by
  have hpos : 0 < s.length := hperm.length_eq ▸ List.length_pos_iff.2 hne
  have hlower : s[(s.length - 1) / 2]? = some s[(s.length - 1) / 2] :=
    List.getElem?_eq_getElem (by omega)
  have hupper : s[s.length / 2]? = some s[s.length / 2] := List.getElem?_eq_getElem (by omega)
  exact ⟨_, _, hlower, hupper, s, hperm, hs, hlower, hupper⟩

namespace Central

theorem mem (h : Central values a b) : a ∈ values ∧ b ∈ values := by
  obtain ⟨s, hperm, -, hlower, hupper⟩ := h
  exact ⟨hperm.mem_iff.1 (List.mem_of_getElem? hlower),
    hperm.mem_iff.1 (List.mem_of_getElem? hupper)⟩

/-- How many values are at most as large as a bound tells whether the central ones are. -/
theorem le_iff (h : Central values a b) (z : Decimal) :
    (a ≤ z ↔ (values.length - 1) / 2 < values.countP (· ≤ z)) ∧
    (b ≤ z ↔ values.length / 2 < values.countP (· ≤ z)) := by
  obtain ⟨s, hperm, hs, hlower, hupper⟩ := h
  obtain ⟨hlt, rfl⟩ := List.getElem?_eq_some_iff.1 hlower
  obtain ⟨hlt', rfl⟩ := List.getElem?_eq_some_iff.1 hupper
  rw [getElem_le_iff hs hlt, getElem_le_iff hs hlt', hperm.countP_eq, hperm.length_eq]
  exact ⟨Iff.rfl, Iff.rfl⟩

theorem le_upper_iff (h : Central values a b) (z : Decimal) :
    z ≤ b ↔ values.length - 1 - values.length / 2 < values.countP (z ≤ ·) := by
  obtain ⟨s, hperm, hs, -, hupper⟩ := h
  obtain ⟨hlt, rfl⟩ := List.getElem?_eq_some_iff.1 hupper
  rw [le_getElem_iff hs hlt, hperm.countP_eq, hperm.length_eq]

theorem le (h : Central values a b) : a ≤ b := by
  have hb := ((h.le_iff b).2.1 (Int.le_refl _))
  exact (h.le_iff b).1.2 (by omega)

/-- Of two lists, the one that has no more values up to any bound has the larger ones in the
middle. -/
theorem le_of_countP_le (h : Central values a b) (h' : Central values' a' b')
    (hlength : values'.length = values.length)
    (hcount : ∀ z, values'.countP (· ≤ z) ≤ values.countP (· ≤ z)) : a ≤ a' ∧ b ≤ b' := by
  have ha := (h'.le_iff a').1.1 (Int.le_refl _)
  have hb := (h'.le_iff b').2.1 (Int.le_refl _)
  rw [hlength] at ha hb
  exact ⟨(h.le_iff a').1.2 (Nat.lt_of_lt_of_le ha (hcount a')),
    (h.le_iff b').2.2 (Nat.lt_of_lt_of_le hb (hcount b'))⟩

/-- The order of the values makes no difference. -/
theorem toRat_eq (h : Central values a b) (h' : Central values' a' b')
    (hperm : values'.Perm values) : a.toRat = a'.toRat ∧ b.toRat = b'.toRat := by
  have hcount (z : Decimal) : values'.countP (· ≤ z) = values.countP (· ≤ z) := hperm.countP_eq _
  obtain ⟨ha, hb⟩ := h.le_of_countP_le h' hperm.length_eq fun z => (hcount z).le
  obtain ⟨ha', hb'⟩ := h'.le_of_countP_le h hperm.length_eq.symm fun z => (hcount z).ge
  rw [Decimal.le_iff_toRat] at ha hb ha' hb'
  exact ⟨le_antisymm ha ha', le_antisymm hb hb'⟩

end Central

/-- No more values are up to a bound where one of them is replaced by a larger one. -/
theorem countP_set_le {i : Nat} (hi : i < values.length) {y : Decimal} (hy : values[i] ≤ y)
    (z : Decimal) : (values.set i y).countP (· ≤ z) ≤ values.countP (· ≤ z) := by
  rw [List.countP_set hi]
  by_cases hyz : y ≤ z
  · have hiz : values[i] ≤ z := Decimal.le_trans hy hyz
    have hpos : 0 < values.countP (· ≤ z) :=
      List.countP_pos_iff.2 ⟨_, List.getElem_mem hi, by simpa using hiz⟩
    rw [if_pos (by simpa using hiz), if_pos (by simpa using hyz)]
    omega
  · have hnone : (if decide (y ≤ z) = true then 1 else 0) = 0 := if_neg (by simpa using hyz)
    rw [hnone]
    omega

/-! ### Exact means -/

namespace Decimal

/-- A value of few fraction digits that is not too large is representable. -/
theorem HasPlaces.representable {q : Rat} {n c : Nat} (h : HasPlaces n q) (hn : n ≤ maxScale)
    (hq : |q| ≤ c) (hc : c * 10 ^ n < coeffBound) : Representable q := by
  obtain ⟨d, rfl⟩ := h
  rw [abs_mkRat, div_le_iff₀ (cast_pow_pos n)] at hq
  exact ⟨d, n, Nat.lt_of_le_of_lt (by exact_mod_cast hq) hc, hn, rfl⟩

/-- Half of a value has at most one fraction digit more. -/
theorem HasPlaces.half {q : Rat} {n : Nat} (h : HasPlaces n q) : HasPlaces (n + 1) (q / 2) := by
  obtain ⟨c, rfl⟩ := h
  have hpos := cast_pow_pos n
  refine ⟨c * 5, ?_⟩
  rw [Rat.mkRat_eq_div, Rat.mkRat_eq_div, Nat.pow_succ]
  push_cast
  field_simp
  ring

/-- A number with at most three fraction digits whose size is at most `10 ^ 20`. -/
structure Moderate (x : Decimal) : Prop where
  places : HasPlaces 3 x.toRat
  size : |x.toRat| ≤ (10 ^ 20 : Nat)

theorem moderate_of_scale_le {x : Decimal} (hscale : x.scale ≤ 3)
    (hsize : |x.toRat| ≤ (10 ^ 20 : Nat)) : x.Moderate :=
  ⟨⟨_, toRat_eq_mkRat hscale⟩, hsize⟩

end Decimal

/-- The mean of moderate numbers is exact. -/
theorem exists_mean (ha : a.Moderate) (hb : b.Moderate) :
    ∃ m, mean a b = some m ∧ m.toRat = (a.toRat + b.toRat) / 2 := by
  have hplaces := ha.places.add hb.places
  have hsize : |a.toRat + b.toRat| ≤ (2 * 10 ^ 20 : Nat) := by
    refine (abs_add_le _ _).trans ?_
    push_cast
    have ha' := ha.size
    have hb' := hb.size
    push_cast at ha' hb'
    linarith
  have hhalf : |(a.toRat + b.toRat) / 2| ≤ (2 * 10 ^ 20 : Nat) := by
    rw [abs_div, abs_two]
    exact (div_le_self (abs_nonneg _) one_le_two).trans hsize
  obtain ⟨total, hadd, htotal⟩ := Decimal.exists_add_eq
    (hplaces.representable (by decide) hsize (by decide))
  have htwo : Decimal.two.toRat ≠ 0 := by
    rw [Decimal.toRat_two]
    norm_num
  have hquot : Decimal.Representable (total.toRat / Decimal.two.toRat) := by
    rw [htotal, Decimal.toRat_two]
    exact hplaces.half.representable (by decide) hhalf (by decide)
  obtain ⟨m, hdiv, hm⟩ := Decimal.exists_div_eq htwo hquot
  refine ⟨m, ?_, by rw [hm, htotal, Decimal.toRat_two]⟩
  rw [mean, hadd]
  exact hdiv

/-! ### The median -/

/-- Where different values have different worth, there is one increasing order. -/
theorem sorted_eq_of_perm {s : List Decimal} (hperm : s.Perm values) (hs : s.Pairwise (· ≤ ·))
    (hvalue : ∀ x ∈ s, ∀ y ∈ s, x ≤ y → y ≤ x → x = y) : sorted values = s := by
  have hsame : (sorted values).Perm s := (List.mergeSort_perm _ _).trans hperm.symm
  refine hsame.eq_of_pairwise (fun x y hx hy => ?_) (pairwise_sorted values)
    (hs.imp Decimal.le_iff_units.1)
  rw [← Decimal.le_iff_units, ← Decimal.le_iff_units]
  exact hvalue x (hsame.mem_iff.1 hx) y hy

theorem median_nil : median [] = none := by
  have hsorted : sorted [] = [] := List.mergeSort_nil
  simp only [median, hsorted]
  simp

/-- **There is a median, and it is the mean of the central values.** -/
theorem exists_median (hne : values ≠ []) (h : ∀ x ∈ values, x.Moderate) :
    ∃ a b m, Central values a b ∧ median values = some m ∧ m.toRat = (a.toRat + b.toRat) / 2 ∧
      (values.length % 2 = 1 → m ∈ values) := by
  have hperm : (sorted values).Perm values := List.mergeSort_perm _ _
  have hs : (sorted values).Pairwise (· ≤ ·) :=
    (pairwise_sorted values).imp fun h => Decimal.le_iff_units.2 h
  obtain ⟨a, b, hlower, hupper, hcentral⟩ := exists_central hperm hs hne
  have hpos : 0 < values.length := List.length_pos_iff.2 hne
  rw [hperm.length_eq] at hlower hupper
  unfold median
  simp only [hperm.length_eq]
  split
  · next hodd =>
      have hsame : (values.length - 1) / 2 = values.length / 2 := by omega
      rw [hsame, hupper] at hlower
      obtain rfl : b = a := Option.some.inj hlower
      refine ⟨b, b, b, hcentral, hupper, ?_, fun _ => hcentral.mem.2⟩
      rw [add_self_div_two]
  · next heven =>
      have hbelow : values.length / 2 - 1 = (values.length - 1) / 2 := by omega
      obtain ⟨m, hmean, hm⟩ := exists_mean (h a hcentral.mem.1) (h b hcentral.mem.2)
      refine ⟨a, b, m, hcentral, ?_, hm, fun hodd => absurd hodd heven⟩
      rw [hbelow, hlower, hupper]
      exact hmean

/-- What is said of a value in the middle of others. -/
structure IsMiddle (values : List Decimal) (m : Decimal) : Prop where
  /-- However the values are put in increasing order, it is the exact mean of the two in the middle,
  or the one in the middle if their number is odd. -/
  value : ∀ s : List Decimal, s.Perm values → s.Pairwise (· ≤ ·) → ∃ a b,
    s[(s.length - 1) / 2]? = some a ∧ s[s.length / 2]? = some b ∧
      m.toRat = (a.toRat + b.toRat) / 2
  /-- It is one of the values if their number is odd. -/
  mem : values.length % 2 = 1 → m ∈ values
  /-- It lies between the smallest and the largest value. -/
  between : ∀ lo hi, (∀ x ∈ values, lo ≤ x ∧ x ≤ hi) → lo ≤ m ∧ m ≤ hi
  /-- At least half of the values are at most as large. -/
  below : values.length ≤ 2 * values.countP (· ≤ m)
  /-- At least half of the values are at least as large. -/
  above : values.length ≤ 2 * values.countP (m ≤ ·)

/-- The mean of the central values is in the middle. -/
theorem Central.isMiddle (h : Central values a b) (hm : m.toRat = (a.toRat + b.toRat) / 2)
    (hmem : values.length % 2 = 1 → m ∈ values) : IsMiddle values m := by
  have hab := Decimal.le_iff_toRat.1 h.le
  have ham : a ≤ m := Decimal.le_iff_toRat.2 (by linarith)
  have hmb : m ≤ b := Decimal.le_iff_toRat.2 (by linarith)
  have hne : values ≠ [] := List.ne_nil_of_mem h.mem.1
  refine ⟨fun s hperm hs => ?_, hmem, fun lo hi hvalues => ?_, ?_, ?_⟩
  · obtain ⟨a', b', hlower, hupper, h'⟩ := exists_central hperm hs hne
    obtain ⟨ha, hb⟩ := h.toRat_eq h' (List.Perm.refl _)
    exact ⟨a', b', hlower, hupper, by rw [hm, ha, hb]⟩
  · exact ⟨Decimal.le_trans (hvalues a h.mem.1).1 ham, Decimal.le_trans hmb (hvalues b h.mem.2).2⟩
  · have := (h.le_iff m).1.1 ham
    omega
  · have := (h.le_upper_iff m).1 hmb
    omega

/-- **The median is in the middle**: there is one unless there are no values; it does not depend on
their order, and it never falls where one of them is replaced by a larger one. -/
theorem median_isMiddle (h : ∀ x ∈ values, x.Moderate) :
    (median values = none ↔ values = []) ∧
    ∀ m, median values = some m → IsMiddle values m ∧
      (∀ values' : List Decimal, values'.Perm values →
        ∃ m', median values' = some m' ∧ m'.toRat = m.toRat) ∧
      (∀ (i : Nat) (hi : i < values.length) (y : Decimal), y.Moderate → values[i] ≤ y →
        ∃ m', median (values.set i y) = some m' ∧ m ≤ m') := by
  have hsome (hne : values ≠ []) := exists_median hne h
  refine ⟨⟨fun hnone => ?_, fun hnil => hnil ▸ median_nil⟩, fun m hm => ?_⟩
  · by_contra hne
    obtain ⟨-, -, m, -, hm, -⟩ := hsome hne
    cases hnone.symm.trans hm
  have hne : values ≠ [] := by
    rintro rfl
    cases median_nil.symm.trans hm
  obtain ⟨a, b, m₁, hcentral, hm₁, hvalue, hmem⟩ := hsome hne
  cases hm.symm.trans hm₁
  refine ⟨hcentral.isMiddle hvalue hmem, fun values' hperm => ?_, fun i hi y hy hiy => ?_⟩
  · have hne' : values' ≠ [] := by
      rintro rfl
      exact hne hperm.nil_eq.symm
    obtain ⟨a', b', m', hcentral', hm', hvalue', -⟩ :=
      exists_median hne' fun x hx => h x (hperm.mem_iff.1 hx)
    obtain ⟨ha, hb⟩ := hcentral.toRat_eq hcentral' hperm
    exact ⟨m', hm', by rw [hvalue', hvalue, ha, hb]⟩
  · have hlength : (values.set i y).length = values.length := List.length_set
    have hne' : values.set i y ≠ [] := by
      rw [← List.length_pos_iff, hlength]
      exact List.length_pos_iff.2 hne
    have hset : ∀ x ∈ values.set i y, x.Moderate := by
      intro x hx
      rcases List.mem_or_eq_of_mem_set hx with hx | rfl
      · exact h x hx
      · exact hy
    obtain ⟨a', b', m', hcentral', hm', hvalue', -⟩ := exists_median hne' hset
    obtain ⟨ha, hb⟩ := hcentral.le_of_countP_le hcentral' hlength (countP_set_le hi hiy)
    rw [Decimal.le_iff_toRat] at ha hb
    exact ⟨m', hm', Decimal.le_iff_toRat.2 (by linarith)⟩

/-- Of 1.2, 0.8, 1.10 and 1.0 the last two are in the middle. -/
theorem median_isMiddle_four :
    (∀ x ∈ [Decimal.tenths 12, .tenths 8, .hundredths 110, .tenths 10], x.Moderate) ∧
      IsMiddle [.tenths 12, .tenths 8, .hundredths 110, .tenths 10] (.hundredths 105) := by
  have hvalues : ∀ x ∈ [Decimal.tenths 12, .tenths 8, .hundredths 110, .tenths 10],
      x.Moderate := by
    have hsizes : ∀ x ∈ [Decimal.tenths 12, .tenths 8, .hundredths 110, .tenths 10],
        x.scale ≤ 3 ∧ x.AtMost (10 ^ 20) := by decide
    exact fun x hx => Decimal.moderate_of_scale_le (hsizes x hx).1
      (Decimal.atMost_iff.1 (hsizes x hx).2)
  have hsorted : sorted [.tenths 12, .tenths 8, .hundredths 110, .tenths 10] =
      [.tenths 8, .tenths 10, .hundredths 110, .tenths 12] :=
    sorted_eq_of_perm (by decide) (by decide) (by decide)
  have hmedian : median [.tenths 12, .tenths 8, .hundredths 110, .tenths 10] =
      some (.hundredths 105) := by
    rw [median, hsorted]
    decide +kernel
  exact ⟨hvalues, ((median_isMiddle hvalues).2 _ hmedian).1⟩

end Estimating
