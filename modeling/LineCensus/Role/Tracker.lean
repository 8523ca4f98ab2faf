/-
# Tests inside Rust files

A Rust file of the product may hold its own tests, as an item after an attribute such
as `#[cfg(test)]`. The tracker follows the braces of the file to tell which lines
belong to such an item. An attribute waits for the item after it: the next opening
brace makes it a scope that lasts until the depth returns to where it was, a semicolon
outside all parentheses and brackets ends it on the spot. An inner attribute makes the
whole file a test.

Attributes are read line by line, and only on lines that begin outside literals and
comments. One that is spread over several lines is not seen.
-/

import LineCensus.Role.Attribute
import LineCensus.Role.Basic
import LineCensus.Role.Lexeme
import LineCensus.Text.Lines

namespace LineCensus.Rust

open Text

/-- What is known between two lines of a Rust file. -/
structure State where
  /-- The literal or comment that is open. -/
  mode : Mode
  /-- How many braces are open. -/
  depth : Nat
  /-- How many parentheses and brackets are open. -/
  nesting : Nat
  /-- The depths at which the open test scopes began, innermost first. -/
  scopes : List Nat
  /-- Whether a test attribute waits for its item. -/
  pending : Bool
  /-- Whether an inner attribute has made the whole file a test. -/
  wholeFile : Bool
deriving DecidableEq, Repr

namespace State

/-- What is known before the first line. -/
def start : State := ⟨.code, 0, 0, [], false, false⟩

/-- A scope that began at the given depth, if a test attribute was waiting for it. -/
def openBrace (state : State) : State :=
  if state.pending then
    { state with depth := state.depth + 1, scopes := state.depth :: state.scopes, pending := false }
  else { state with depth := state.depth + 1 }

/-- Whether a closing brace ends the innermost test scope. -/
def endsScope (state : State) : Bool :=
  state.scopes.head?.any (state.depth - 1 ≤ ·)

/-- One brace fewer, and one scope fewer where it began at this depth. A brace too many is
ignored. -/
def closeBrace (state : State) : State :=
  { state with
    depth := state.depth - 1
    scopes := if state.endsScope then state.scopes.drop 1 else state.scopes }

/-- Whether a semicolon ends an item that a test attribute was waiting for. -/
def endsPendingItem (state : State) : Bool :=
  state.pending && state.nesting == 0

/-- Takes in a character outside literals and comments. -/
def visit (state : State) (c : Char) : State :=
  match c with
  | '{' => state.openBrace
  | '}' => state.closeBrace
  | '(' | '[' => { state with nesting := state.nesting + 1 }
  | ')' | ']' => { state with nesting := state.nesting - 1 }
  | ';' => { state with pending := state.pending && !state.endsPendingItem }
  | _ => state

/-- Whether a character begins or ends a test item, so that its line belongs to one. -/
def isTestEdge (state : State) (c : Char) : Bool :=
  match c with
  | '{' => state.pending
  | '}' => state.endsScope
  | ';' => state.endsPendingItem
  | _ => false

end State

/-- Takes in characters outside literals and comments. `touched` says whether a test item began or
ended before them on the line. -/
def visitAll (state : State) (touched : Bool) : List Char → State × Bool
  | [] => (state, touched)
  | c :: rest => visitAll (state.visit c) (touched || state.isTestEdge c) rest

/-- Takes in the rest of a line after `previous`. -/
def readFrom (state : State) (touched : Bool) (previous : Option Char) :
    List Char → State × Bool
  | [] => (state, touched)
  | c :: rest =>
    let lexeme := firstLexeme state.mode previous c rest
    let after := visitAll { state with mode := lexeme.mode } touched lexeme.visible
    readFrom after.1 after.2 lexeme.last? lexeme.rest
termination_by line => line.length
decreasing_by exact length_rest_firstLexeme state.mode previous c rest

/-- Takes in a line. The second answer is whether a test item begins or ends on it. -/
def State.readLine (state : State) (line : Line) : State × Bool :=
  readFrom state false none line

/-- Whether a trimmed line is an inner attribute, which speaks of what encloses it. -/
def isInnerAttribute (line : Line) : Bool :=
  startsWith ['#', '!', '['] line

/-- What is known once the attribute on a line is read, if the line is one. -/
def State.readAttribute (state : State) (line : Line) : State :=
  if state.mode = .code then
    match Attribute.meaning (trim line) with
    | .test =>
      if isInnerAttribute (trim line) then { state with wholeFile := true }
      else { state with pending := true }
    | .notTest => { state with pending := false }
    | .unrelated => state
  else state

/-- Whether a line is an outer test attribute. -/
def State.isTestAttribute (state : State) (line : Line) : Bool :=
  state.mode = .code && Attribute.meaning (trim line) = .test && !isInnerAttribute (trim line)

/-- The role of a line by what precedes it and what is on it, and what is known after it. -/
def State.trackLine (state : State) (line : Line) : CodeRole × State :=
  let (after, touched) := (state.readAttribute line).readLine line
  let isTest := !state.scopes.isEmpty || state.pending || state.isTestAttribute line || touched
  (if isTest then .test else .mainline, after)

/-- Tracks lines, with the roles already `found` in reverse. -/
def trackOnto (found : List CodeRole) (state : State) : List Line → List CodeRole × State
  | [] => (found.reverse, state)
  | line :: rest => trackOnto ((state.trackLine line).1 :: found) (state.trackLine line).2 rest

/-- The role of each line by what precedes it, and what is known after them all. -/
def State.trackLines (state : State) (lines : List Line) : List CodeRole × State :=
  trackOnto [] state lines

/-- The role of each line, and what is known after them all. An inner test attribute on any line
up to the last makes them all tests. -/
def State.track (state : State) (lines : List Line) : List CodeRole × State :=
  let (roles, after) := state.trackLines lines
  (if after.wholeFile then roles.map fun _ => .test else roles, after)

/-- The roles of the lines of a file. -/
def lineRoles (lines : List Line) : List CodeRole :=
  (State.start.track lines).1

theorem trackOnto_eq (found : List CodeRole) (state : State) (lines : List Line) :
    trackOnto found state lines =
      (found.reverse ++ (state.trackLines lines).1, (state.trackLines lines).2) := by
  induction lines generalizing found state with
  | nil => simp [trackOnto, State.trackLines]
  | cons line rest ih =>
    simp only [State.trackLines, trackOnto]
    rw [ih, ih [_]]
    simp

@[simp] theorem trackLines_nil (state : State) : state.trackLines [] = ([], state) := rfl

/-- Lines are tracked one after the other. -/
theorem trackLines_cons (state : State) (line : Line) (rest : List Line) :
    state.trackLines (line :: rest) =
      ((state.trackLine line).1 :: ((state.trackLine line).2.trackLines rest).1,
        ((state.trackLine line).2.trackLines rest).2) := by
  rw [State.trackLines, trackOnto, trackOnto_eq]
  rfl

/-- Every line is given exactly one role. -/
theorem length_trackLines (state : State) (lines : List Line) :
    (state.trackLines lines).1.length = lines.length := by
  induction lines generalizing state with
  | nil => rfl
  | cons line rest ih => simp [trackLines_cons, ih]

/-- Every line is given exactly one role, whatever makes the whole file a test. -/
theorem length_track (state : State) (lines : List Line) :
    (state.track lines).1.length = lines.length := by
  simp only [State.track]
  split <;> simp [length_trackLines]

end LineCensus.Rust
