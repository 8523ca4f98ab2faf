/-
# Languages with delimited comments

Line comments run from a marker to the end of the line, block comments from an
opener to the next occurrence of its closer, on the same line or a later one. Blocks
do not nest. Each line is read from left to right: outside a block the earliest
marker or opener decides, and of several at one place the first in declared order,
openers before markers. Any text in front of it that is not white space is code.

After a block closes, the rest of the line is read again, unless it begins with one
of the texts that keep it part of the comment.

The delimiters may be any texts, the empty one included. Reading ends for all of
them, because it goes on after a closer only with less text than before.
-/

import LineCensus.Scanner.Basic

namespace LineCensus

open Text

/-- The two ends of a block comment. -/
structure Block where
  opener : List Char
  closer : List Char
deriving DecidableEq, Repr

/-- The comment delimiters of a language. -/
structure Delimiters where
  /-- What begins a line comment. -/
  lineMarkers : List (List Char) := []
  /-- What encloses a block comment. -/
  blocks : List Block := []
  /-- What keeps the rest of a line in the comment that has just closed. -/
  absorbAfterClose : List (List Char) := []
  /-- Whether an opener counts at a position of the text that is still to be read. -/
  opensAt : (text : List Char) → (position : Nat) → (opener : List Char) → Bool :=
    fun _ _ _ => true
  /-- The kind of a whole line, trimmed, that is decided before any delimiter is looked for. -/
  wholeLine : Line → Option LineKind := fun _ => none

namespace Delimiters

/-- The foremost of several marks at different positions, the first one listed if two are at the
same place. -/
def foremost? {α : Type} : List (Nat × α) → Option (Nat × α)
  | [] => none
  | mark :: others =>
    match foremost? others with
    | none => some mark
    | some other => if other.1 < mark.1 then some other else some mark

/-- The first mark of a text outside every block: its position, and the block it opens or none
for a line comment. -/
def firstMark? (d : Delimiters) (text : List Char) : Option (Nat × Option Block) :=
  let openers := d.blocks.filterMap fun block =>
    (positionFrom? (d.opensAt text · block.opener) block.opener text 0).map (·, some block)
  let markers := d.lineMarkers.filterMap fun marker => (position? marker text).map (·, none)
  foremost? (openers ++ markers)

/-- How a line goes on inside a block. -/
inductive Continuation where
  /-- The block is still open at the end of the line. -/
  | stillOpen
  /-- The block closes, and nothing after it is read. -/
  | closed
  /-- The block closes, and the rest of the line is read again. -/
  | resumes (rest : List Char)

/-- Looks for the end of a block in the text after its opener. -/
def throughBlock (d : Delimiters) (closer text : List Char) : Continuation :=
  if text.isEmpty then .stillOpen
  else match after? closer text with
    | none => .stillOpen
    | some rest =>
      if isBlankText rest || startsWithAny d.absorbAfterClose (trim rest) then .closed
      else .resumes rest

/-- Reads text outside every block. `kind` is that of the line up to here. The answer is the kind
of the whole line and the closer of a block that is left open. -/
def readOutside (d : Delimiters) (kind : LineKind) (text : List Char) :
    LineKind × Option (List Char) :=
  match d.firstMark? text with
  | none => (kind.withCode (!isBlankText text), none)
  | some (position, mark) =>
    let kind := (kind.withCode (!isBlankText (text.take position))).withComment
    match mark with
    | none => (kind, none)
    | some block =>
      match d.throughBlock block.closer (text.drop (position + block.opener.length)) with
      | .stillOpen => (kind, some block.closer)
      | .closed => (kind, none)
      | .resumes rest =>
        if rest.length < text.length then d.readOutside kind rest else (kind, none)
termination_by text.length

/-- Reads one line that is not blank, from outside every block or from inside one with a known
closer. -/
def readLine (d : Delimiters) (inside : Option (List Char)) (line : Line) :
    LineKind × Option (List Char) :=
  match inside with
  | none => d.readOutside .unclassified line
  | some closer =>
    match d.throughBlock closer line with
    | .stillOpen => (.commentLine, some closer)
    | .closed => (.commentLine, none)
    | .resumes rest => d.readOutside .commentLine rest

end Delimiters

/-- The scanner for a language with the given delimiters. It carries the closer of the block that
is open. -/
def Scanner.delimited (d : Delimiters) : Scanner where
  State := Option (List Char)
  start := none
  step inside line :=
    match inside, d.wholeLine (trim line) with
    | none, some kind => (kind, none)
    | _, _ => d.readLine inside line

namespace Delimiters

/-- The block comments of C. -/
def slashStar : Block := ⟨['/', '*'], ['*', '/']⟩

/-- The comments of markup. -/
def angleBang : Block := ⟨['<', '!', '-', '-'], ['-', '-', '>']⟩

/-- C and the languages with its comments. -/
def cStyle : Delimiters where
  lineMarkers := [['/', '/']]
  blocks := [slashStar]
  absorbAfterClose := [['/', '/']]

/-- Rust, where a line that begins an attribute is code. -/
def rust : Delimiters :=
  { cStyle with
    wholeLine := fun line =>
      if startsWithAny [['#', '['], ['#', '!', '[']] line then some .codeLine else none }

/-- JavaScript and its relatives. They also know the comments of markup, but only where such a
comment begins the text to be read or follows white space. A slash in a regular expression is not
told from one that begins a comment. -/
def javaScript : Delimiters where
  lineMarkers := [['/', '/']]
  blocks := [slashStar, angleBang]
  absorbAfterClose := [['/', '/']]
  opensAt text position opener :=
    opener != angleBang.opener || position == 0 || (text[position - 1]?).any isBlank

/-- C-style comments and `#`. -/
def php : Delimiters where
  lineMarkers := [['/', '/'], ['#']]
  blocks := [slashStar]
  absorbAfterClose := [['/', '/'], ['#']]

/-- Infrastructure descriptions, with `#`, `//` and C-style blocks. -/
def hcl : Delimiters where
  lineMarkers := [['#'], ['/', '/']]
  blocks := [slashStar]
  absorbAfterClose := [['/', '/'], ['#']]

/-- Load-flow scripts: C-style blocks, and `!` for whole-line comments. -/
def iplan : Delimiters where
  blocks := [slashStar]
  absorbAfterClose := [['!']]
  wholeLine line := if startsWith ['!'] line then some .commentLine else none

def markup : Delimiters where
  blocks := [angleBang]

/-- Velocity templates. -/
def velocity : Delimiters where
  lineMarkers := [['#', '#']]
  blocks := [⟨['#', '*'], ['*', '#']⟩]
  absorbAfterClose := [['#', '#']]

/-- Mustache templates. -/
def mustache : Delimiters where
  blocks := [⟨['{', '{', '!'], ['}', '}']⟩]

/-- Shell scripts with `#` and blocks between angle brackets. -/
def powerShell : Delimiters where
  lineMarkers := [['#']]
  blocks := [⟨['<', '#'], ['#', '>']⟩]

end Delimiters

end LineCensus
