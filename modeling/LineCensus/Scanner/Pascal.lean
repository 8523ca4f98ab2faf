/-
# Pascal

Comments stand between braces or between `(*` and `*)`, and each of the two styles
nests on its own. What is carried from line to line is how deep either style is
open. The depths after a line follow from counting its openers and closers, whatever
their order; a closer too many is ignored.

Whether a line that starts or ends outside every comment also holds code is decided
by taking its comments out, innermost first, and looking at what is left. A `//` that
begins the line, or what is left of it, makes that a comment too.
-/

import LineCensus.Scanner.Basic

namespace LineCensus.Pascal

open Text

/-- How many comments of either style are open. -/
structure Depths where
  brace : Nat
  star : Nat
deriving DecidableEq, Repr

namespace Depths

/-- No comment is open. -/
def closed : Depths := ⟨0, 0⟩

/-- Whether some comment is open. -/
def isOpen (depths : Depths) : Bool :=
  depths.brace != 0 || depths.star != 0

end Depths

/-- The opener of the brace style. -/
def braceOpener : List Char := ['{']

/-- The closer of the brace style. -/
def braceCloser : List Char := ['}']

/-- The opener of the star style. -/
def starOpener : List Char := ['(', '*']

/-- The closer of the star style. -/
def starCloser : List Char := ['*', ')']

/-- The depths after a text that is read in the given depths. -/
def Depths.after (depths : Depths) (text : List Char) : Depths where
  brace := depths.brace + occurrences braceOpener text - occurrences braceCloser text
  star := depths.star + occurrences starOpener text - occurrences starCloser text

/-- The position of the first opener of either style. -/
def firstOpener? (text : List Char) : Option Nat :=
  match position? braceOpener text, position? starOpener text with
  | some brace, some star => some (min brace star)
  | some brace, none => some brace
  | none, star => star

/-- What follows the closing brace, if the text reaches one before any other brace. -/
def afterBrace? : List Char → Option (List Char)
  | [] => none
  | c :: rest => if c = '}' then some rest else if c = '{' then none else afterBrace? rest

/-- What follows the closing `*)`, if the text reaches one on its line before any other end of
that style. -/
def afterStar? : List Char → Option (List Char)
  | [] => none
  | '*' :: ')' :: rest => some rest
  | '(' :: '*' :: _ => none
  | c :: rest => if c = '\n' then none else afterStar? rest

theorem length_afterBrace? {text rest : List Char} (h : afterBrace? text = some rest) :
    rest.length < text.length := by
  fun_induction afterBrace? text with
  | case1 => simp at h
  | case2 => simp_all
  | case3 => simp at h
  | case4 c others _ _ ih =>
    have := ih h
    simp only [List.length_cons]
    omega

theorem length_afterStar? {text rest : List Char} (h : afterStar? text = some rest) :
    rest.length < text.length := by
  fun_induction afterStar? text with
  | case1 => simp at h
  | case2 =>
    cases h
    simp only [List.length_cons]
    omega
  | case3 => simp at h
  | case4 => simp at h
  | case5 c others _ _ _ ih =>
    have := ih h
    simp only [List.length_cons]
    omega

/-- A text with a space for each brace comment that holds no other brace. -/
def withoutInnerBraces : List Char → List Char
  | [] => []
  | c :: rest =>
    if c = '{' then
      match h : afterBrace? rest with
      | some beyond =>
        have := length_afterBrace? h
        ' ' :: withoutInnerBraces beyond
      | none => c :: withoutInnerBraces rest
    else c :: withoutInnerBraces rest
termination_by text => text.length
decreasing_by all_goals simp; try omega

/-- A text with a space for each star comment that holds no other end of that style. -/
def withoutInnerStars : List Char → List Char
  | [] => []
  | c :: rest =>
    if startsWith starOpener (c :: rest) then
      match h : afterStar? (rest.drop 1) with
      | some beyond =>
        have := length_afterStar? h
        ' ' :: withoutInnerStars beyond
      | none => c :: withoutInnerStars rest
    else c :: withoutInnerStars rest
termination_by text => text.length
decreasing_by all_goals simp_all; try omega

/-- One round of taking comments out. -/
def withoutInnermost (text : List Char) : List Char :=
  withoutInnerStars (withoutInnerBraces text)

/-- A text without its comments, taken out round by round for as long as a round shortens it. -/
def withoutComments (text : List Char) : List Char :=
  if (withoutInnermost text).length < text.length then withoutComments (withoutInnermost text)
  else text
termination_by text.length

/-- A text with a space for each closer. -/
def withoutClosers : List Char → List Char
  | [] => []
  | '}' :: rest => ' ' :: withoutClosers rest
  | '*' :: ')' :: rest => ' ' :: withoutClosers rest
  | c :: rest => c :: withoutClosers rest

/-- Whether anything but comments is left in a text. -/
def hasCode (text : List Char) : Bool :=
  let rest := trim (withoutClosers (withoutComments text))
  !rest.isEmpty && !startsWith ['/', '/'] rest

/-- The part of a line after the last closer of each style whose depth it takes to zero. -/
def tailAfterClosing (before after : Depths) (text : List Char) : List Char :=
  let braceTail :=
    if before.brace ≠ 0 ∧ after.brace = 0 then afterLast braceCloser text else text
  let starTail :=
    if before.star ≠ 0 ∧ after.star = 0 then afterLast starCloser text else text
  if braceTail.length < starTail.length then braceTail else starTail

/-- Reads a trimmed line on which comments may begin or end. -/
def readLine (depths : Depths) (line : Line) : LineKind × Depths :=
  if depths.isOpen then
    let after := depths.after line
    if after.isOpen then (.commentLine, after)
    else (.commentAnd (hasCode (tailAfterClosing depths after line)), after)
  else if startsWith ['/', '/'] line then (.commentLine, depths)
  else match firstOpener? line with
    | none => (.codeLine, depths)
    | some position =>
      let after := depths.after (line.drop position)
      if after.isOpen then (.commentAnd (!isBlankText (line.take position)), after)
      else (.commentAnd (hasCode line), after)

end LineCensus.Pascal

namespace LineCensus

def Scanner.pascal : Scanner where
  State := Pascal.Depths
  start := Pascal.Depths.closed
  step depths line := Pascal.readLine depths (Text.trim line)

end LineCensus
