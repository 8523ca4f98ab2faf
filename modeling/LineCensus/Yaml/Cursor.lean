/-
# Places in a YAML text

YAML is laid out by lines and columns, so whoever reads it has to know where in the
text he is. A cursor is such a place together with the text that is still ahead.

Four characters end a line. Two of them are ordinary line ends and stand for a line
feed; the other two separate lines or paragraphs and stand for themselves. Carriage
returns do not occur, since the line ends of a file are unified when it is read.
-/

import LineCensus.Text.Search

namespace LineCensus.Yaml

open Text

/-- Whether a character ends a line. -/
def isBreak (c : Char) : Bool :=
  c == '\n' || c == '\x85' || c == '\u2028' || c == '\u2029'

/-- The character that the end of a line stands for. -/
def breakMeaning (c : Char) : Char :=
  if c = '\x85' then '\n' else c

/-- Whether a character is one of those that may stand between two words. -/
def isBlankOrBreak (c : Char) : Bool :=
  c == ' ' || c == '\t' || isBreak c

/-- Whether a word is over where the given text is ahead. -/
def isWordEnd (text : List Char) : Bool :=
  text.head?.all isBlankOrBreak

/-- Whether a word that may hold tabs is over where the given text is ahead. -/
def isSpaceAhead (text : List Char) : Bool :=
  text.head?.all fun c => c == ' ' || isBreak c

/-- A mark that does not count as a column. -/
def byteOrderMark : Char := '\ufeff'

/-- A place in a text. Characters, lines and columns are counted from zero. -/
structure Cursor where
  /-- The text that is ahead. -/
  rest : List Char
  index : Nat
  line : Nat
  column : Nat
deriving DecidableEq, Repr

namespace Cursor

/-- The beginning of a text. -/
def start (text : List Char) : Cursor := ⟨text, 0, 0, 0⟩

/-- The place after the next character. -/
def forward (cursor : Cursor) : Cursor :=
  match cursor.rest with
  | [] => cursor
  | c :: rest =>
    if isBreak c then ⟨rest, cursor.index + 1, cursor.line + 1, 0⟩
    else
      ⟨rest, cursor.index + 1, cursor.line,
        if c = byteOrderMark then cursor.column else cursor.column + 1⟩

/-- The place after a number of characters. -/
def skip : Nat → Cursor → Cursor
  | 0, cursor => cursor
  | count + 1, cursor => skip count cursor.forward

/-- The place after the characters of a class. -/
def skipWhile (isSkipped : Char → Bool) (cursor : Cursor) : Cursor :=
  cursor.skip (cursor.rest.takeWhile isSkipped).length

/-- Going forward takes one character off the text ahead. -/
@[simp] theorem rest_forward (cursor : Cursor) : cursor.forward.rest = cursor.rest.drop 1 := by
  unfold forward
  split
  · simp_all
  · split <;> simp_all

/-- Skipping takes characters off the text ahead. -/
@[simp] theorem rest_skip (count : Nat) (cursor : Cursor) :
    (cursor.skip count).rest = cursor.rest.drop count := by
  induction count generalizing cursor with
  | zero => rfl
  | succ count ih => simp [skip, ih]

/-- There is no more text ahead of a later place. -/
theorem length_rest_skip_le (count : Nat) (cursor : Cursor) :
    (cursor.skip count).rest.length ≤ cursor.rest.length := by
  simp

/-- There is no more text ahead of a later place. -/
theorem length_rest_skipWhile_le (isSkipped : Char → Bool) (cursor : Cursor) :
    (cursor.skipWhile isSkipped).rest.length ≤ cursor.rest.length :=
  length_rest_skip_le _ cursor

/-- There is less text ahead after a character of the class that is skipped. -/
theorem length_rest_skipWhile_lt {isSkipped : Char → Bool} {cursor : Cursor} {c : Char}
    {rest : List Char} (hrest : cursor.rest = c :: rest) (hc : isSkipped c = true) :
    (cursor.skipWhile isSkipped).rest.length < cursor.rest.length := by
  simp only [skipWhile, rest_skip, hrest, List.takeWhile_cons_of_pos hc, List.length_cons,
    List.drop_succ_cons, List.length_drop]
  omega

/-- At the end of a line what it stands for, and the beginning of the next line. -/
def lineBreak? (cursor : Cursor) : Option (Char × Cursor) :=
  match cursor.rest with
  | [] => none
  | c :: _ => if isBreak c then some (breakMeaning c, cursor.forward) else none

/-- There is less text ahead of the next line. -/
theorem length_rest_of_lineBreak? {cursor next : Cursor} {lineBreak : Char}
    (h : cursor.lineBreak? = some (lineBreak, next)) :
    next.rest.length < cursor.rest.length := by
  unfold lineBreak? at h
  split at h
  · simp at h
  · next c rest hrest =>
    split at h
    · simp only [Option.some.injEq, Prod.mk.injEq] at h
      simp [← h.2, hrest]
    · simp at h

/-- The place after spaces and a comment. -/
def pastComment (cursor : Cursor) : Cursor :=
  let place := cursor.skipWhile (· == ' ')
  if place.rest.head? = some '#' then place.skipWhile (!isBreak ·) else place

/-- There is no more text ahead after a comment. -/
theorem length_rest_pastComment_le (cursor : Cursor) :
    cursor.pastComment.rest.length ≤ cursor.rest.length := by
  have hspaces := length_rest_skipWhile_le (· == ' ') cursor
  have hcomment := length_rest_skipWhile_le (!isBreak ·) (cursor.skipWhile (· == ' '))
  unfold pastComment
  dsimp only
  split <;> omega

/-- The beginning of the next line, if nothing is left of this one but spaces and a comment after
them. Elsewhere there is none. -/
def restOfLine? (cursor : Cursor) : Option Cursor :=
  if isSpaceAhead cursor.rest then
    match cursor.pastComment.rest with
    | [] => some cursor.pastComment
    | _ => cursor.pastComment.lineBreak?.map (·.2)
  else none

/-- Whether the end of a line comes before the next token, and the place of that token. -/
def toToken (cursor : Cursor) : Bool × Cursor :=
  match h : cursor.pastComment.lineBreak? with
  | none => (false, cursor.pastComment)
  | some (_, next) =>
    have := length_rest_of_lineBreak? h
    have := length_rest_pastComment_le cursor
    (true, next.toToken.2)
termination_by cursor.rest.length

/-- Whether a mark between documents is ahead. -/
def isAtDocumentMark (cursor : Cursor) : Bool :=
  startsWithAny [['-', '-', '-'], ['.', '.', '.']] cursor.rest && isWordEnd (cursor.rest.drop 3)

/-- From the beginning of a line on, what the ends of empty lines stand for and the place where
the next line has something else than `isBlank` characters. None if there is a mark between documents
before that. -/
def emptyLines (isBlank : Char → Bool) (cursor : Cursor) : Option (List Char) × Cursor :=
  if cursor.isAtDocumentMark then (none, cursor)
  else
    match h : (cursor.skipWhile isBlank).lineBreak? with
    | none => (some [], cursor.skipWhile isBlank)
    | some (lineBreak, next) =>
      have := length_rest_of_lineBreak? h
      let (others, after) := emptyLines isBlank next
      (others.map (lineBreak :: ·), after)
termination_by cursor.rest.length
decreasing_by
  have := length_rest_skipWhile_le isBlank cursor
  omega

/-- There is no more text ahead after empty lines. -/
theorem length_rest_emptyLines_le (isBlank : Char → Bool) (cursor : Cursor) :
    (cursor.emptyLines isBlank).2.rest.length ≤ cursor.rest.length := by
  fun_induction emptyLines isBlank cursor with
  | case1 => simp
  | case2 cursor => exact length_rest_skipWhile_le isBlank cursor
  | case3 cursor _ lineBreak next h _ others after hothers ih =>
    have hnext := length_rest_of_lineBreak? h
    have hskip := length_rest_skipWhile_le isBlank cursor
    simp only [hothers] at ih
    simp only
    omega

end Cursor

/-- What the end of a line and the empty lines after it stand for inside a scalar that goes on over
lines: a single line feed is folded into a space, and before others it is dropped. -/
def foldedBreaks (first : Char) (others : List Char) : List Char :=
  if first ≠ '\n' then first :: others
  else if others.isEmpty then [' ']
  else others

end LineCensus.Yaml
