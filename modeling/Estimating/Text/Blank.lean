/-
White space.

Two classes of white space are in use: the five ASCII characters that may stand between the words
of an expression, and the full class of the Unicode standard, which decides whether a name or an
expression is blank.

* `Text.isAsciiBlank` — space, tab, line feed, form feed and carriage return;
* `Text.isBlank` — every white space character; `Text.isBlank_of_isAsciiBlank` says that it holds
  the first class;
* `Text.allBlank` — a text without any other character;
* `Text.trim` — a text without the white space at its two ends.
-/

set_option autoImplicit false

namespace Estimating.Text

/-- White space between the words of an expression. -/
def isAsciiBlank (c : Char) : Bool :=
  c == ' ' || c == '\t' || c == '\n' || c == '\x0c' || c == '\r'

/-- White space of the Unicode standard. -/
def isBlank (c : Char) : Bool :=
  let n := c.toNat
  (9 ≤ n && n ≤ 13) || n == 0x20 || n == 0x85 || n == 0xa0 || n == 0x1680 ||
    (0x2000 ≤ n && n ≤ 0x200a) || n == 0x2028 || n == 0x2029 || n == 0x202f || n == 0x205f ||
    n == 0x3000

theorem isBlank_of_isAsciiBlank {c : Char} (h : isAsciiBlank c = true) : isBlank c = true := by
  simp only [isAsciiBlank, Bool.or_eq_true, beq_iff_eq] at h
  rcases h with (((h | h) | h) | h) | h <;> subst h <;> decide

/-- Whether a text consists of white space only. -/
def allBlank (s : String) : Bool := s.toList.all isBlank

/-- A text without the white space at its two ends. -/
def trim (s : String) : String :=
  String.ofList ((s.toList.dropWhile isBlank).reverse.dropWhile isBlank).reverse

end Estimating.Text
