/-
# White space

The characters that leave a line blank, and the trimming of a text by them. The
set is the one Unicode 14 calls white space together with the four information
separators U+001C to U+001F. The zero-width space and the byte-order mark are not
in it, so a line that holds only one of those is not blank.
-/

namespace LineCensus.Text

/-- Whether a character is white space. -/
def isBlank (c : Char) : Bool :=
  let n := c.toNat
  (0x09 ≤ n && n ≤ 0x0d) || (0x1c ≤ n && n ≤ 0x20) || n == 0x85 || n == 0xa0 || n == 0x1680 ||
    (0x2000 ≤ n && n ≤ 0x200a) || n == 0x2028 || n == 0x2029 || n == 0x202f || n == 0x205f ||
    n == 0x3000

/-- Whether a text holds white space only. The empty text does. -/
def isBlankText (text : List Char) : Bool :=
  text.all isBlank

/-- A text without its leading white space. -/
def trimLeft (text : List Char) : List Char :=
  text.dropWhile isBlank

/-- A text without its trailing white space. -/
def trimRight (text : List Char) : List Char :=
  (text.reverse.dropWhile isBlank).reverse

/-- A text without white space at either end. -/
def trim (text : List Char) : List Char :=
  trimRight (trimLeft text)

/-- Whatever the core library regards as white space is white space here. -/
theorem isBlank_of_isWhitespace {c : Char} (h : c.isWhitespace = true) : isBlank c = true := by
  simp only [Char.isWhitespace, Bool.or_eq_true, decide_eq_true_eq] at h
  rcases h with ((rfl | rfl) | rfl) | rfl <;> rfl

end LineCensus.Text
