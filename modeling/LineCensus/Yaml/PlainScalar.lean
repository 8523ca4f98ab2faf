/-
# Plain scalars

A scalar without quotes: words on one or several lines. It is over at a comment, at a
colon that is followed by a blank, at a line that is not indented enough, and inside
brackets also at whatever has a meaning there. Tabs never belong to it.
-/

import LineCensus.Yaml.Cursor

namespace LineCensus.Yaml

/-- Whether a character separates the parts of a collection in brackets. -/
def isFlowMark (c : Char) : Bool :=
  [',', '[', ']', '{', '}'].contains c

/-- Whether a colon in front of the given text separates a key from its value. -/
def endsKey (inFlow : Bool) (text : List Char) : Bool :=
  isWordEnd text || (inFlow && text.head?.any isFlowMark)

/-- The word of a plain scalar that a text begins with. -/
def plainWord (inFlow : Bool) : List Char → List Char
  | [] => []
  | c :: rest =>
    if isBlankOrBreak c || (c == ':' && endsKey inFlow rest) ||
        (inFlow && (c == '?' || isFlowMark c)) then []
    else c :: plainWord inFlow rest

/-- What is between two words of a plain scalar. -/
structure PlainGap where
  /-- What it stands for, nothing if no word can follow. -/
  text : List Char
  /-- Whether it goes over the end of a line. -/
  endsLine : Bool
  after : Cursor

/-- The gap after a word. -/
def Cursor.plainGap (cursor : Cursor) : PlainGap :=
  let spaces := cursor.rest.takeWhile (· == ' ')
  let after := cursor.skip spaces.length
  match after.lineBreak? with
  | none => ⟨spaces, false, after⟩
  | some (lineBreak, next) =>
    match next.emptyLines (· == ' ') with
    | (some others, after) => ⟨foldedBreaks lineBreak others, true, after⟩
    | (none, after) => ⟨[], true, after⟩

/-- A gap that stands for something is not empty. -/
theorem Cursor.length_rest_plainGap {cursor : Cursor} (h : cursor.plainGap.text ≠ []) :
    cursor.plainGap.after.rest.length < cursor.rest.length := by
  unfold plainGap at h ⊢
  dsimp only at h ⊢
  split at h <;> rename_i hbreak
  · simp only at h
    simp only [rest_skip, List.length_drop]
    have hspaces : 0 < (cursor.rest.takeWhile (· == ' ')).length := List.length_pos_iff.2 h
    have hle := (List.takeWhile_prefix (l := cursor.rest) (· == ' ')).length_le
    omega
  · next lineBreak next =>
    have hnext := length_rest_of_lineBreak? hbreak
    have hlines := length_rest_emptyLines_le (· == ' ') next
    have hskip := length_rest_skip_le (cursor.rest.takeWhile (· == ' ')).length cursor
    split <;> rename_i hempty <;> simp only [hempty] at hlines ⊢ <;> omega

structure PlainScalar where
  text : List Char
  /-- Whether the end of its line comes before whatever follows it. -/
  endsLine : Bool
  /-- The place of what follows it. -/
  after : Cursor

/-- The plain scalar at a place. Outside of brackets its further lines begin no further to the left
than at `minColumn`. -/
def Cursor.plainScalar (inFlow : Bool) (minColumn : Nat) (cursor : Cursor) : PlainScalar :=
  let word := plainWord inFlow cursor.rest
  let place := cursor.skip word.length
  let gap := place.plainGap
  if h : gap.text = [] then ⟨word, gap.endsLine, gap.after⟩
  else if gap.after.rest.head? = some '#' || (!inFlow && gap.after.column < minColumn) ||
      (plainWord inFlow gap.after.rest).isEmpty then
    ⟨word, gap.endsLine, gap.after⟩
  else
    have := length_rest_plainGap h
    let others := gap.after.plainScalar inFlow minColumn
    { others with text := word ++ gap.text ++ others.text }
termination_by cursor.rest.length
decreasing_by
  exact Nat.lt_of_lt_of_le (by assumption) (length_rest_skip_le _ cursor)

end LineCensus.Yaml
