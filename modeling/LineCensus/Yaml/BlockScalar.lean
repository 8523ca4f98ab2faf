/-
# Block scalars

A scalar whose lines stand below its header, indented further than what it belongs to.
A literal one keeps the ends of its lines; in a folded one a line end between two lines
that are not indented further becomes a space. The header may say how deep the lines
are indented, which is otherwise told from the first of them, and what becomes of the
line ends after the last one.
-/

import LineCensus.Yaml.QuotedScalar

namespace LineCensus.Yaml

/-- What becomes of the line ends after the last line of a block scalar. -/
inductive Chomping where
  /-- All of them are dropped. -/
  | strip
  /-- The first one is kept. -/
  | clip
  /-- All of them are kept. -/
  | keep
deriving DecidableEq, Repr

/-- What the header of a block scalar says. -/
structure BlockHeader where
  chomping : Chomping
  /-- How much further its lines are indented, if the header says so. -/
  indentation : Option Nat
deriving DecidableEq, Repr

/-- The chomping that a character calls for. -/
def chomping? (c : Char) : Option Chomping :=
  if c = '+' then some .keep else if c = '-' then some .strip else none

/-- The indentation that a character calls for. -/
def indentation? (c : Char) : Option Nat :=
  if '1' ≤ c ∧ c ≤ '9' then some (c.toNat - '0'.toNat) else none

/-- What the characters of a header say, of which there are at most two in any order. -/
def BlockHeader.ofIndicators? : List Char → Option BlockHeader
  | [] => some ⟨.clip, none⟩
  | [c] =>
    match chomping? c, indentation? c with
    | some chomping, _ => some ⟨chomping, none⟩
    | none, some indentation => some ⟨.clip, some indentation⟩
    | none, none => none
  | [c, d] =>
    match chomping? c, indentation? d, indentation? c, chomping? d with
    | some chomping, some indentation, _, _ => some ⟨chomping, some indentation⟩
    | _, _, some indentation, some chomping => some ⟨chomping, some indentation⟩
    | _, _, _, _ => none
  | _ => none

/-- What the ends of empty lines stand for, and the place after the spaces of the next line, of which
at most as many are skipped as take it to the column `indent`. -/
def Cursor.emptyLinesUpTo (indent : Nat) (cursor : Cursor) : List Char × Cursor :=
  let spaces := (cursor.rest.takeWhile (· == ' ')).take (indent - cursor.column)
  match h : (cursor.skip spaces.length).lineBreak? with
  | none => ([], cursor.skip spaces.length)
  | some (lineBreak, next) =>
    have := length_rest_of_lineBreak? h
    let (others, after) := next.emptyLinesUpTo indent
    (lineBreak :: others, after)
termination_by cursor.rest.length
decreasing_by
  have := length_rest_skip_le spaces.length cursor
  omega

/-- There is no more text ahead after empty lines. -/
theorem Cursor.length_rest_emptyLinesUpTo_le (indent : Nat) (cursor : Cursor) :
    (cursor.emptyLinesUpTo indent).2.rest.length ≤ cursor.rest.length := by
  fun_induction emptyLinesUpTo indent cursor with
  | case1 cursor spaces => exact length_rest_skip_le spaces.length cursor
  | case2 cursor spaces lineBreak next h hnext others after hothers ih =>
    have hskip := length_rest_skip_le spaces.length cursor
    simp only [hothers] at ih
    simp only
    omega

/-- The greatest number of spaces that one of the empty lines begins with or the line after them. -/
def Cursor.deepestIndent (cursor : Cursor) : Nat :=
  let spaces := (cursor.rest.takeWhile (· == ' ')).length
  match h : (cursor.skip spaces).lineBreak? with
  | none => spaces
  | some (_, next) =>
    have := length_rest_of_lineBreak? h
    max spaces next.deepestIndent
termination_by cursor.rest.length
decreasing_by
  have := length_rest_skip_le spaces cursor
  omega

structure BlockLines where
  text : List Char
  /-- What the end of the last line stands for. -/
  lastBreak : List Char
  /-- What the ends of the empty lines after it stand for. -/
  tail : List Char
  /-- The place of what follows. -/
  after : Cursor

/-- What the end of a line stands for in front of another line of a block scalar, after which the
empty lines in between come. -/
def jointText (folded : Bool) (line : List Char) (lineBreak : List Char) (emptyLines : List Char)
    (next : List Char) : List Char :=
  if folded && lineBreak == ['\n'] && !line.head?.any isSpaceOrTab && !next.head?.any isSpaceOrTab
  then if emptyLines.isEmpty then [' '] else []
  else lineBreak

structure TextLine where
  text : List Char
  /-- What its end stands for. -/
  lineBreak : List Char
  /-- The beginning of the next line. -/
  next : Cursor

/-- The line at a place. -/
def Cursor.textLine (cursor : Cursor) : TextLine :=
  let line := cursor.rest.takeWhile (!isBreak ·)
  let place := cursor.skip line.length
  match place.lineBreak? with
  | some (lineBreak, next) => ⟨line, [lineBreak], next⟩
  | none => ⟨line, [], place⟩

/-- A line takes the text forward unless there is none ahead. -/
theorem Cursor.length_rest_textLine {cursor : Cursor} (h : cursor.rest ≠ []) :
    cursor.textLine.next.rest.length < cursor.rest.length := by
  obtain ⟨c, rest, hrest⟩ := List.exists_cons_of_ne_nil h
  unfold textLine
  dsimp only
  have hskip := length_rest_skip_le (cursor.rest.takeWhile (!isBreak ·)).length cursor
  split
  · next hbreak =>
    exact Nat.lt_of_lt_of_le (length_rest_of_lineBreak? hbreak) hskip
  · next hnone =>
    by_cases hc : isBreak c = true
    · simp [hrest, hc, skip, lineBreak?] at hnone
    · exact length_rest_skipWhile_lt hrest (by simpa using hc)

/-- The lines of a block scalar whose lines are indented to the column `indent`. The ends of the
empty lines before the first of them stand for `before`. -/
def Cursor.blockLines (folded : Bool) (indent : Nat) (before : List Char) (cursor : Cursor) :
    BlockLines :=
  if h : cursor.column = indent ∧ cursor.rest ≠ [] then
    let line := cursor.textLine
    have : line.next.rest.length < cursor.rest.length := length_rest_textLine h.2
    let between := line.next.emptyLinesUpTo indent
    have : between.2.rest.length ≤ line.next.rest.length :=
      length_rest_emptyLinesUpTo_le indent line.next
    let after := between.2
    if after.column = indent ∧ after.rest ≠ [] then
      let others := after.blockLines folded indent between.1
      let joint := jointText folded line.text line.lineBreak between.1 after.rest
      { others with text := before ++ line.text ++ joint ++ others.text }
    else ⟨before ++ line.text, line.lineBreak, between.1, after⟩
  else ⟨[], [], before, cursor⟩
termination_by cursor.rest.length
decreasing_by exact Nat.lt_of_le_of_lt ‹between.2.rest.length ≤ _› ‹_›

/-- The text of a block scalar. -/
def BlockLines.chomped (lines : BlockLines) : Chomping → List Char
  | .strip => lines.text
  | .clip => lines.text ++ lines.lastBreak
  | .keep => lines.text ++ lines.lastBreak ++ lines.tail

/-- The block scalar whose header is at a place, and the place after it. Its lines begin no further
to the left than at `minColumn`, and never at the margin. -/
def Cursor.blockScalar? (folded : Bool) (minColumn : Nat) (cursor : Cursor) :
    Option (List Char × Cursor) := do
  let cursor := cursor.forward
  let indicators := cursor.rest.takeWhile fun c => (chomping? c).isSome || (indentation? c).isSome
  let header ← BlockHeader.ofIndicators? indicators
  let cursor := cursor.skip indicators.length
  let cursor ← cursor.restOfLine?
  let indent := match header.indentation with
    | none => max (max minColumn 1) cursor.deepestIndent
    | some indentation => max minColumn 1 + indentation - 1
  let (before, first) := cursor.emptyLinesUpTo indent
  let lines := first.blockLines folded indent before
  return (lines.chomped header.chomping, lines.after)

end LineCensus.Yaml
