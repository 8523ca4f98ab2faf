/-
# Quoted scalars

A scalar between single or double quotes. It may go on over several lines, which are
then folded: the white space around the end of a line becomes one space, and every
empty line a line feed. Between single quotes only the quote itself is written
specially, namely twice; between double quotes a backslash begins an escape.
-/

import LineCensus.Text.Utf8
import LineCensus.Yaml.Cursor

namespace LineCensus.Yaml

open Text

def isSpaceOrTab (c : Char) : Bool :=
  c == ' ' || c == '\t'

/-- What a single character stands for after a backslash. -/
def escapeMeanings : List (Char × Char) :=
  [('0', '\x00'), ('a', '\x07'), ('b', '\x08'), ('t', '\t'), ('\t', '\t'), ('n', '\n'),
    ('v', '\x0b'), ('f', '\x0c'), ('r', '\r'), ('e', '\x1b'), (' ', ' '), ('"', '"'),
    ('\\', '\\'), ('/', '/'), ('N', '\x85'), ('_', '\xa0'), ('L', '\u2028'), ('P', '\u2029')]

/-- How many hexadecimal digits of a code point follow a letter after a backslash. -/
def escapeWidths : List (Char × Nat) := [('x', 2), ('u', 4), ('U', 8)]

/-- The value of a hexadecimal digit. -/
def hexValue? (c : Char) : Option Nat :=
  if '0' ≤ c ∧ c ≤ '9' then some (c.toNat - '0'.toNat)
  else if 'a' ≤ c ∧ c ≤ 'f' then some (c.toNat - 'a'.toNat + 10)
  else if 'A' ≤ c ∧ c ≤ 'F' then some (c.toNat - 'A'.toNat + 10)
  else none

/-- The value of hexadecimal digits. -/
def hexNumber? (digits : List Char) : Option Nat :=
  digits.foldlM (fun value c => (hexValue? c).map (value * 16 + ·)) 0

/-- The character with a code point. Half of a pair of surrogates is no character, and no text can
hold it: the replacement character comes in its place. -/
def codePoint? (code : Nat) : Option Char :=
  if code.isValidChar then some (Char.ofNat code)
  else if code < 0x110000 then some Utf8.replacement
  else none

/-- What the text after a backslash stands for, and how much of it. -/
def escape? : List Char → Option (Char × Nat)
  | [] => none
  | c :: rest =>
    match escapeMeanings.lookup c, escapeWidths.lookup c with
    | some meaning, _ => some (meaning, 1)
    | none, none => none
    | none, some width =>
      match hexNumber? (rest.take width) with
      | some code =>
        if width ≤ rest.length then (codePoint? code).map fun c => (c, width + 1) else none
      | none => none

/-- From the end of a line on, what it and the empty lines after it stand for, and the place of the
next word. None if there is a mark between documents before that. -/
def Cursor.foldedLines? (lineBreak : Char) (next : Cursor) : Option (List Char × Cursor) :=
  match next.emptyLines isSpaceOrTab with
  | (some others, after) => some (foldedBreaks lineBreak others, after)
  | (none, _) => none

/-- There is no more text ahead after folded lines. -/
theorem Cursor.length_rest_foldedLines? {lineBreak : Char} {next after : Cursor}
    {text : List Char} (h : next.foldedLines? lineBreak = some (text, after)) :
    after.rest.length ≤ next.rest.length := by
  have hlines := length_rest_emptyLines_le isSpaceOrTab next
  unfold foldedLines? at h
  split at h
  · next hempty =>
    simp only [Option.some.injEq, Prod.mk.injEq] at h
    simpa [hempty, h.2] using hlines
  · simp at h

/-- White space at the end of a line comes before the end of the line. -/
theorem Cursor.length_spaces_pos {cursor : Cursor} {c : Char} {rest : List Char}
    (hrest : cursor.rest = c :: rest) (hc : isBlankOrBreak c = true)
    (hnone : (cursor.skipWhile isSpaceOrTab).lineBreak? = none) :
    (cursor.skipWhile isSpaceOrTab).rest.length < cursor.rest.length := by
  by_cases hspace : isSpaceOrTab c = true
  · exact length_rest_skipWhile_lt hrest hspace
  · have hbreak : isBreak c = true := by
      simp_all [isBlankOrBreak, isSpaceOrTab]
    simp [skipWhile, hrest, hspace, skip, lineBreak?, hbreak] at hnone

/-- The rest of a quoted scalar of which the text `read`, in reverse, is already known, and the
place after its closing quote. -/
def Cursor.quotedOnto (quote : Char) (read : List Char) (cursor : Cursor) :
    Option (List Char × Cursor) :=
  match hrest : cursor.rest with
  | [] => none
  | c :: rest =>
    if hc : isBlankOrBreak c then
      match hbreak : (cursor.skipWhile isSpaceOrTab).lineBreak? with
      | none =>
        have := length_spaces_pos hrest hc hbreak
        (cursor.skipWhile isSpaceOrTab).quotedOnto quote
          ((cursor.rest.takeWhile isSpaceOrTab).reverse ++ read)
      | some (lineBreak, next) =>
        have := length_rest_of_lineBreak? hbreak
        match hlines : next.foldedLines? lineBreak with
        | none => none
        | some (text, after) =>
          have := length_rest_foldedLines? hlines
          have := length_rest_skipWhile_le isSpaceOrTab cursor
          after.quotedOnto quote (text.reverse ++ read)
    else if c = quote then
      if quote = '\'' ∧ rest.head? = some '\'' then (cursor.skip 2).quotedOnto quote ('\'' :: read)
      else some (read.reverse, cursor.forward)
    else if quote = '"' ∧ c = '\\' then
      match hbreak : cursor.forward.lineBreak? with
      | some (_, next) =>
        have := length_rest_of_lineBreak? hbreak
        have := length_rest_emptyLines_le isSpaceOrTab next
        let lines := next.emptyLines isSpaceOrTab
        match lines.1 with
        | some others => lines.2.quotedOnto quote (others.reverse ++ read)
        | none => none
      | none =>
        match escape? rest with
        | some (meaning, length) => (cursor.skip (length + 1)).quotedOnto quote (meaning :: read)
        | none => none
    else cursor.forward.quotedOnto quote (c :: read)
termination_by cursor.rest.length
decreasing_by all_goals simp_all; try omega

/-- The scalar that the quote at a place opens, and the place after it. -/
def Cursor.quotedScalar? (quote : Char) (cursor : Cursor) : Option (List Char × Cursor) :=
  cursor.forward.quotedOnto quote []

end LineCensus.Yaml
