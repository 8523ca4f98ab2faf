/-
# Physical lines

A file is cut into lines at its line feeds, before its bytes are decoded. What
follows the last line feed is a line only if it is not empty, so a final line feed
ends the last line and begins no other. Trailing carriage returns belong to the
line ending and not to the line.

Texts that a person writes for this library, such as lists of ignore patterns, are
cut at every line boundary of Unicode instead.
-/

import LineCensus.Text.Search
import LineCensus.Text.Utf8

namespace LineCensus.Text

/-- A line of a text, without its ending. -/
abbrev Line := List Char

/-- Whether a character can end a line of a file. -/
def isLineEnd (c : Char) : Bool :=
  c == '\n' || c == '\r'

/-- A text without the carriage returns and line feeds at its end. -/
def dropLineEnd (text : List Char) : Line :=
  (text.reverse.dropWhile isLineEnd).reverse

/-- Cuts `bytes` after each line feed, in front of which `finished` lines and the reversed
beginning of the `current` one are already known. -/
def piecesOnto (finished : List (List UInt8)) (current : List UInt8) :
    List UInt8 → List (List UInt8)
  | [] => if current.isEmpty then finished.reverse else (current.reverse :: finished).reverse
  | byte :: rest =>
    if byte = 0x0a then piecesOnto (current.reverse :: finished) [] rest
    else piecesOnto finished (byte :: current) rest

/-- The stretches of bytes that the line feeds end, and a nonempty one that none ends. -/
def pieces (bytes : List UInt8) : List (List UInt8) :=
  piecesOnto [] [] bytes

def readLines (bytes : List UInt8) : List Line :=
  (pieces bytes).map fun piece => dropLineEnd (Utf8.decodeLossy piece)

/-- A text without the line feed at its end, if it has one there. -/
def withoutFinalFeed (text : List Char) : List Char :=
  if text.getLast? = some '\n' then text.dropLast else text

/-- The first line that is not blank. -/
def firstNonblank? (lines : List Line) : Option Line :=
  lines.find? fun line => !isBlankText line

/-- A text in which every line ending is a single line feed. -/
def unifyLineEnds : List Char → List Char
  | '\r' :: '\n' :: rest => '\n' :: unifyLineEnds rest
  | '\r' :: rest => '\n' :: unifyLineEnds rest
  | c :: rest => c :: unifyLineEnds rest
  | [] => []

/-- Whether a character is a line boundary of Unicode. -/
def isLineBoundary (c : Char) : Bool :=
  let n := c.toNat
  (0x0a ≤ n && n ≤ 0x0d) || (0x1c ≤ n && n ≤ 0x1e) || n == 0x85 || n == 0x2028 || n == 0x2029

/-- The lines of a text by the boundaries of Unicode. A boundary at the end begins no line. -/
def unicodeLines (text : List Char) : List Line :=
  let lines := cut (unifyLineEnds text)
  if lines.getLast? = some [] then lines.dropLast else lines
where
  cut : List Char → List Line
    | [] => [[]]
    | c :: rest =>
      if isLineBoundary c then [] :: cut rest
      else match cut rest with
        | [] => [[c]]
        | first :: others => (c :: first) :: others

end LineCensus.Text
