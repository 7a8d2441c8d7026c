/-
How many columns a text takes up on a screen.

A text is read from its end.  What a character adds depends on what stands behind it, since some
characters run together: a flag of two letters, a picture with its skin tone, pictures with joiners
between them, a character and its selector, the ligatures of some scripts, a carriage return and a
line feed.

* `Text.Behind` — what stands behind a character, as far as its width depends on it: the start of a
  sequence, and selectors in front of that;
* `Text.alone` — what a character adds in front of anything that it does not run together with;
* `Text.meet?` — what it adds where it continues a sequence;
* `Text.step` — what it adds;
* `Text.width` — the columns of a text.
-/
import Estimating.Text.Emoji
import Estimating.Text.Ligature

set_option autoImplicit false

namespace Estimating.Text

/-! ### What stands behind a character -/

/-- The end of a ligature. -/
inductive Letter
  | lamed
  | below
  | ya
  | /-- The vowel sign i, a joiner and ya. -/
    vowelYa
  | consonant
  | /-- The consonant joiner and a consonant. -/
    joinedConsonant
  | tone
  | turkicI
deriving DecidableEq, Repr

/-- The end of the name of a region behind a flag. -/
inductive Region
  | ending
  | letters (count : Nat)
  | digits (count : Nat)
deriving DecidableEq, Repr

/-- The start of a sequence of characters. -/
inductive Sequel
  | /-- Nothing that the width of a character in front depends on. -/
    other
  | lineFeed
  | skinTone
  | flagLetter
  | /-- Two or more letters of flags. -/
    flagLetters
  | picture
  | /-- A joiner and a picture. -/
    joined
  | /-- A keycap before a joiner and a picture. -/
    joinedKeycap
  | /-- One letter of a flag before a joiner and a picture. -/
    joinedLetter
  | /-- Letters of flags, an even number of them, before a joiner and a picture. -/
    joinedEven
  | /-- Letters of flags, an odd number of them, before a joiner and a picture. -/
    joinedOdd
  | /-- The name of a region before a joiner and a picture. -/
    joinedRegion (r : Region)
  | /-- A form of alef. -/
    alef
  | /-- The end of a ligature; `joined` tells of a joiner in front of it. -/
    letter (l : Letter) (joined : Bool)
deriving DecidableEq, Repr

/-- What stands behind a character. -/
structure Behind where
  sequel : Sequel
  /-- A selector of the form as a picture stands right behind. -/
  asPicture : Bool
  /-- A selector of the form as text stands right behind. -/
  asText : Bool
deriving DecidableEq, Repr

namespace Behind

/-- A sequence without a selector in front of it. -/
def of (s : Sequel) : Behind := ⟨s, false, false⟩

/-- Nothing that matters. -/
def other : Behind := .of .other

/-- Whether selectors leave a sequence as it is: those of letters go on. -/
def passesSelectors (b : Behind) : Bool :=
  match b.sequel with
  | .alef | .letter .. => true
  | _ => false

/-- Whether the picture in front continues a sequence. -/
def takesPicture (b : Behind) : Bool := b.sequel == .joined || b.sequel == .joinedKeycap

/-- A selector of the form as a picture. -/
def selectPicture (b : Behind) : Behind :=
  if b.passesSelectors || b.takesPicture then { b with asPicture := true }
  else ⟨.other, true, false⟩

/-- A selector of the form as text. -/
def selectText (b : Behind) : Behind :=
  if b.passesSelectors then { b with asText := true } else ⟨.other, false, true⟩

/-- Forgets a selector of the form as a picture, and the sequence with it unless it goes on. -/
def dropPicture (b : Behind) : Behind :=
  if !b.asPicture then b else if b.passesSelectors then { b with asPicture := false } else other

/-- Forgets a selector of the form as text, and the sequence with it unless it goes on. -/
def dropText (b : Behind) : Behind :=
  if !b.asText then b else if b.passesSelectors then { b with asText := false } else other

end Behind

/-! ### One character -/

/-- The columns that a character adds, and what it is for the character in front of it. -/
abbrev Step := Int × Behind

/-- A character that does not run together with what stands behind it. -/
def alone (c : Char) : Step :=
  if c = pictureSelector then (0, Behind.other.selectPicture)
  else if c = textSelector then (0, Behind.other.selectText)
  else
    let sequel : Sequel :=
      if c = hebrewLamed then .letter .lamed false
      else if isAlef c then .alef
      else if goesBelow c then .letter .below true
      else if c = bugineseYa then .letter .ya false
      else if isTifinaghConsonant c then .letter .consonant false
      else if isSecondTone c then .letter .tone true
      else if c = turkicI then .letter .turkicI false
      else if isFlagLetter c then .flagLetter
      else if isSkinTone c then .skinTone
      else if isPicture c then .picture
      else .other
    (columns c, .of sequel)

/-- A tag in the name of a region: the name may end in up to six letters or three digits. -/
def Region.extend? (r : Region) (c : Char) : Option Region :=
  match r with
  | .ending =>
    if isTagLetter c then some (.letters 1)
    else if isTagDigit c then some (.digits 1)
    else none
  | .letters n =>
    if isTagLetter c ∧ n < 6 then some (.letters (n + 1))
    else if isTagDigit c ∧ n < 5 then some (.digits 1)
    else none
  | .digits n => if isTagDigit c ∧ n < 3 then some (.digits (n + 1)) else none

/-- Whether a name of a region is complete. -/
def Region.isComplete : Region → Bool
  | .ending => false
  | .letters n => 3 ≤ n
  | .digits n => n == 3

/-- A character in front of a letter that ends a ligature. -/
def meetLetter? (c : Char) (l : Letter) (joined : Bool) : Option Step :=
  if c = joiner then some (0, .of (.letter l true))
  else if isUnseenMark c then some (0, .of (.letter l joined))
  else
    match l with
    | .lamed => if joined ∧ c = hebrewAlef then some (0, .other) else none
    | .below => if c = coeng then some (-1, .other) else none
    | .ya => if joined ∧ c = bugineseI then some (0, .of (.letter .vowelYa true)) else none
    | .vowelYa => if c = bugineseA then some (0, .other) else none
    | .consonant =>
      if c = consonantJoiner then some (1, .of (.letter .joinedConsonant true))
      else if joined ∧ isTifinaghConsonant c then some (0, .other)
      else none
    | .joinedConsonant => if isTifinaghConsonant c then some (-1, .other) else none
    | .tone => if isFirstTone c then some (0, .other) else none
    | .turkicI => if joined ∧ c = turkicEc then some (0, .other) else none

/-- A character that continues the sequence behind it, if it does. -/
def meet? (c : Char) : Sequel → Option Step
  | .other | .lineFeed => none
  | .alef =>
    if isLam c then some (0, .other) else if isTransparent c then some (0, .of .alef) else none
  | .letter l joined => meetLetter? c l joined
  | .skinTone =>
    if takesSkinTone c then some (0, .of .picture)
    else if c = joiner then some (0, .of .joined)
    else none
  | .flagLetter => if isFlagLetter c then some (1, .of .flagLetters) else none
  | .flagLetters =>
    if isFlagLetter c then some (1, .of .flagLetters)
    else if c = joiner then some (0, .of .joined)
    else none
  | .picture => if c = joiner then some (0, .of .joined) else none
  | .joined =>
    if c = keycap then some (0, .of .joinedKeycap)
    else if isFlagLetter c then some (1, .of .joinedLetter)
    else if isSkinTone c then some (0, .of .skinTone)
    else if c = tagEnd then some (0, .of (.joinedRegion .ending))
    else if isPicture c then some (0, .of .picture)
    else none
  | .joinedKeycap => none
  | .joinedLetter => if isFlagLetter c then some (-1, .of .joinedEven) else none
  | .joinedEven =>
    if isFlagLetter c then some (3, .of .joinedOdd)
    else if c = joiner then some (0, .of .joined)
    else none
  | .joinedOdd =>
    if isFlagLetter c then some (-1, .of .joinedEven)
    else if c = joiner then some (0, .of .joined)
    else none
  | .joinedRegion r =>
    if c = blackFlag ∧ r.isComplete then some (0, .of .picture)
    else (r.extend? c).map fun r => (0, .of (.joinedRegion r))

/-- What a character adds to the width of the text behind it. -/
def step (c : Char) (b : Behind) : Step :=
  if b.asPicture ∧ isSelectable c then (if b.takesPicture then 0 else 2, .of .picture)
  else
    let b := b.dropPicture
    if c.toNat ≤ 0xa0 then
      if c = '\r' ∧ b = .of .lineFeed then (0, .other)
      else if c = '\n' then (1, .of .lineFeed)
      else (1, .other)
    else if b = .other then alone c
    else if c = pictureSelector then (0, b.selectPicture)
    else if c = textSelector then (0, b.selectText)
    else if b.asText ∧ narrowsToText c then (1, .other)
    else (meet? c b.dropText.sequel).getD (alone c)

/-! ### Texts -/

/-- The columns of a text that stands in front of something else, and what it is for the character
in front of it. -/
def measure (cs : List Char) (b : Behind) : Step :=
  cs.foldr (fun c p => ((step c p.2).1 + p.1, (step c p.2).2)) (0, b)

/-- The columns of a text. -/
def width (cs : List Char) : Nat := (measure cs .other).1.toNat

/-- A printable character of ASCII takes up one column, whatever stands behind it but a selector of
the form as a picture. -/
theorem step_ascii {c : Char} (h : 0x20 ≤ c.toNat) (h' : c.toNat ≤ 0x7e) (b : Behind)
    (hb : b.asPicture = false) : step c b = (1, .other) := by
  have hr : c ≠ '\r' := by rintro rfl; revert h; decide
  have hn : c ≠ '\n' := by rintro rfl; revert h; decide
  have h'' : c.toNat ≤ 0xa0 := by omega
  simp [step, hb, hr, hn, h'']

theorem measure_ascii {cs : List Char} (h : ∀ c ∈ cs, 0x20 ≤ c.toNat ∧ c.toNat ≤ 0x7e) :
    measure cs .other = ((cs.length : Int), Behind.other) := by
  induction cs with
  | nil => rfl
  | cons c cs ih =>
    have hc := h c (by simp)
    have hs : measure (c :: cs) .other =
        ((step c (measure cs .other).2).1 + (measure cs .other).1,
          (step c (measure cs .other).2).2) := rfl
    rw [hs, ih fun d hd => h d (by simp [hd]), step_ascii hc.1 hc.2 _ rfl]
    simp [Int.add_comm]

/-- A text of printable characters of ASCII takes up as many columns as it has characters. -/
@[simp] theorem width_ascii {cs : List Char} (h : ∀ c ∈ cs, 0x20 ≤ c.toNat ∧ c.toNat ≤ 0x7e) :
    width cs = cs.length := by
  simp [width, measure_ascii h]

end Estimating.Text
