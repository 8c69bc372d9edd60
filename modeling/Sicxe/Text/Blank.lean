/-!
# Blanks

The characters with the Unicode property White_Space, and trimming by them.
-/

namespace Sicxe.Text

/-- Whether a character has the Unicode property White_Space. -/
def isBlank (c : Char) : Bool :=
  let n := c.toNat
  (0x09 ≤ n && n ≤ 0x0D) || n == 0x20 || n == 0x85 || n == 0xA0 || n == 0x1680 ||
    (0x2000 ≤ n && n ≤ 0x200A) || n == 0x2028 || n == 0x2029 || n == 0x202F || n == 0x205F ||
    n == 0x3000

/-- Every blank of the ASCII class is a blank. -/
theorem isBlank_of_isWhitespace (c : Char) (blank : c.isWhitespace = true) : isBlank c = true := by
  simp only [Char.isWhitespace, Bool.or_eq_true, decide_eq_true_eq] at blank
  rcases blank with ((rfl | rfl) | rfl) | rfl <;> decide

/-- A text without the blanks at its end. -/
def trimRight (text : List Char) : List Char :=
  (text.reverse.dropWhile isBlank).reverse

/-- A text without the blanks at its two ends. -/
def trim (text : List Char) : List Char :=
  trimRight (text.dropWhile isBlank)

end Sicxe.Text
