/-
# Scanners

A scanner tells the kind of every line of a file. It reads the lines in order and
carries a state from each to the next, such as the comment that is still open. The
rules that all scanners share are stated here once:

* a line of white space is blank, whatever the state, and leaves the state alone,
* where a scanner honours it, a first line that begins with `#!` is code,
* a scanner may refuse a whole file, and then none of its lines is classified.

A particular scanner supplies what is left: the start state and the step on a line
that is not blank.
-/

import LineCensus.Line.Stats
import LineCensus.Text.Lines

namespace LineCensus

open Text

/-- A classifier of lines. -/
structure Scanner where
  /-- What is known between two lines. -/
  State : Type
  /-- What is known before the first line. -/
  start : State
  /-- The kind of a line that is not blank, and what is known after it. -/
  step : State → Line → LineKind × State
  /-- Whether a first line that begins with `#!` is code. -/
  shebangIsCode : Bool := false
  /-- Whether the lines are in the language of this scanner at all. -/
  recognizes : List Line → Bool := fun _ => true

namespace Scanner

/-- The kind of any line, and what is known after it. -/
def advance (scanner : Scanner) (state : scanner.State) (line : Line) :
    LineKind × scanner.State :=
  if isBlankText line then (.blankLine, state) else scanner.step state line

/-- Reads lines from a given state on, with the kinds already `found` in reverse. -/
def runOnto (scanner : Scanner) (found : List LineKind) (state : scanner.State) :
    List Line → List LineKind × scanner.State
  | [] => (found.reverse, state)
  | line :: rest =>
    runOnto scanner ((scanner.advance state line).1 :: found) (scanner.advance state line).2 rest

/-- The kinds of lines that are read from a given state on, and what is known after them. -/
def run (scanner : Scanner) (state : scanner.State) (lines : List Line) :
    List LineKind × scanner.State :=
  runOnto scanner [] state lines

/-- Whether a line begins with `#!`. -/
def isShebang (line : Line) : Bool :=
  startsWith ['#', '!'] (trim line)

/-- The kinds of the lines of a file, one for each line. -/
def classify (scanner : Scanner) (lines : List Line) : List LineKind :=
  if scanner.recognizes lines then
    match lines with
    | [] => []
    | first :: rest =>
      if scanner.shebangIsCode && isShebang first then
        .codeLine :: (scanner.run scanner.start rest).1
      else (scanner.run scanner.start (first :: rest)).1
  else lines.map fun _ => .unclassified

/-- The statistics of the lines of a file, before they are reconciled with its length. -/
def scan (scanner : Scanner) (lines : List Line) : LineStats :=
  LineStats.ofKinds (scanner.classify lines)

/-- A scanner that carries nothing from line to line. -/
def stateless (kind : Line → LineKind) : Scanner where
  State := Unit
  start := ()
  step _ line := (kind line, ())

theorem runOnto_eq (scanner : Scanner) (found : List LineKind) (state : scanner.State)
    (lines : List Line) :
    scanner.runOnto found state lines =
      (found.reverse ++ (scanner.run state lines).1, (scanner.run state lines).2) := by
  induction lines generalizing found state with
  | nil => simp [runOnto, run]
  | cons line rest ih =>
    simp only [run, runOnto]
    rw [ih, ih [_]]
    simp

/-- Reading no line tells nothing new. -/
@[simp] theorem run_nil (scanner : Scanner) (state : scanner.State) :
    scanner.run state [] = ([], state) := rfl

/-- Lines are read one after the other. -/
theorem run_cons (scanner : Scanner) (state : scanner.State) (line : Line) (rest : List Line) :
    scanner.run state (line :: rest) =
      ((scanner.advance state line).1 :: (scanner.run (scanner.advance state line).2 rest).1,
        (scanner.run (scanner.advance state line).2 rest).2) := by
  rw [run, runOnto, runOnto_eq]
  rfl

/-- Every line is given exactly one kind. -/
theorem length_run (scanner : Scanner) (state : scanner.State) (lines : List Line) :
    (scanner.run state lines).1.length = lines.length := by
  induction lines generalizing state with
  | nil => rfl
  | cons line rest ih => simp [run_cons, ih]

/-- Reading lines in two portions is reading them all. -/
theorem run_append (scanner : Scanner) (state : scanner.State) (first second : List Line) :
    scanner.run state (first ++ second) =
      ((scanner.run state first).1 ++ (scanner.run (scanner.run state first).2 second).1,
        (scanner.run (scanner.run state first).2 second).2) := by
  induction first generalizing state with
  | nil => rfl
  | cons line rest ih => simp [run_cons, ih]

end Scanner

end LineCensus
