/-
# How far attributes reach

An outer test attribute waits for the item behind it, and an inner one speaks of what
encloses it. Two things follow for the lines around them:

* an inner test attribute makes every line of the file a test, those in front of it as
  well, and it does so at any depth of braces. Lines that follow others leave the roles
  of those alone exactly if there is no inner test attribute among them, or if there is
  nothing but tests in front of it.
* an outer test attribute ends with the semicolon of a statement exactly where no
  parenthesis and no bracket is open. They are counted from the beginning of the file
  and not from the innermost brace, so in a closure that is handed to a call the
  attribute goes on waiting behind the statement.
-/

import LineCensus.Proofs.Role.Block

namespace LineCensus.Rust

open Text

/-! ## Inner attributes -/

namespace State

/-- Whether a line is an inner test attribute. -/
def isInnerTestAttribute (state : State) (line : Line) : Bool :=
  state.mode = .code && Attribute.meaning (trim line) = .test && isInnerAttribute (trim line)

/-- What is known in front of each inner test attribute on these lines. -/
def innerTestAttributes (state : State) : List Line → List State
  | [] => []
  | line :: rest =>
    (if state.isInnerTestAttribute line then [state] else []) ++
      (state.trackLine line).2.innerTestAttributes rest

theorem wholeFile_visit (state : State) (c : Char) :
    (state.visit c).wholeFile = state.wholeFile := by
  unfold visit
  split
  · cases hpending : state.pending <;> simp [openBrace, hpending]
  all_goals rfl

theorem wholeFile_visitAll (state : State) (touched : Bool) (text : List Char) :
    (visitAll state touched text).1.wholeFile = state.wholeFile := by
  induction text generalizing state touched with
  | nil => rfl
  | cons c rest ih => rw [visitAll, ih, wholeFile_visit]

theorem wholeFile_readAttribute (state : State) (line : Line) :
    (state.readAttribute line).wholeFile =
      (state.wholeFile || state.isInnerTestAttribute line) := by
  unfold readAttribute isInnerTestAttribute
  split
  · next hcode =>
      split
      · next hmeaning => split <;> next hinner => simp [hcode, hmeaning, hinner]
      · next hmeaning => simp [hcode, hmeaning]
      · next hmeaning => simp [hcode, hmeaning]
  · next hcode => simp [hcode]

theorem wholeFile_trackLine (state : State) (line : Line) :
    (state.trackLine line).2.wholeFile =
      (state.wholeFile || state.isInnerTestAttribute line) := by
  rw [← wholeFile_readAttribute, trackLine_eq]
  exact wholeFile_visitAll ((state.readAttribute line).inMode .code) false _

/-- The whole file is a test behind lines if it was one in front of them or if an inner test
attribute is met on one of them. -/
theorem wholeFile_trackLines (state : State) (lines : List Line) :
    (state.trackLines lines).2.wholeFile =
      (state.wholeFile || !(state.innerTestAttributes lines).isEmpty) := by
  induction lines generalizing state with
  | nil => simp [innerTestAttributes]
  | cons line rest ih =>
      rw [trackLines_cons, ih, wholeFile_trackLine, innerTestAttributes]
      cases state.isInnerTestAttribute line <;> simp

/-- What tracking more lines makes of the roles of the first ones. -/
theorem take_track_append (state : State) (first second : List Line) :
    (state.track (first ++ second)).1.take first.length =
      if (state.trackLines first).2.innerTestAttributes second = [] then (state.track first).1
      else List.replicate first.length .test := by
  have hlength := length_trackLines state first
  have hroles : (state.trackLines (first ++ second)).1.take first.length =
      (state.trackLines first).1 := by
    rw [trackLines_append, ← hlength, List.take_left]
  have hwhole : (state.trackLines (first ++ second)).2.wholeFile =
      ((state.trackLines first).2.wholeFile ||
        !((state.trackLines first).2.innerTestAttributes second).isEmpty) := by
    rw [trackLines_append, wholeFile_trackLines]
  simp only [track, hwhole]
  by_cases hnone : (state.trackLines first).2.innerTestAttributes second = []
  · rw [if_pos hnone, hnone, List.isEmpty_nil, Bool.not_true, Bool.or_false]
    split
    · rw [← List.map_take, hroles]
    · exact hroles
  · rw [if_neg hnone, List.isEmpty_eq_false_iff.mpr hnone, Bool.not_false, Bool.or_true,
      if_pos rfl, ← List.map_take, hroles, List.map_const', hlength]

end State

/-- **An inner test attribute reaches every line of the file.** The roles of lines stay the same
when others follow them, unless an inner test attribute is met on those: then the first ones are all
tests too, at whatever depth of braces it stands. So nothing changes for them exactly if there is no
such attribute, or if they are all tests by themselves. -/
theorem take_lineRoles_append (first second : List Line) :
    (lineRoles (first ++ second)).take first.length =
        (if (State.start.trackLines first).2.innerTestAttributes second = [] then lineRoles first
          else List.replicate first.length .test) ∧
      ((lineRoles (first ++ second)).take first.length = lineRoles first ↔
        (State.start.trackLines first).2.innerTestAttributes second = [] ∨
          ∀ role ∈ lineRoles first, role = .test) := by
  have htake := State.take_track_append .start first second
  refine ⟨htake, ?_⟩
  rw [lineRoles, htake]
  split
  · next hnone => simp [hnone, lineRoles]
  · next hsome =>
      have hlength : (lineRoles first).length = first.length := length_track .start first
      rw [or_iff_right hsome, ← hlength, eq_comm]
      exact List.eq_replicate_iff.trans (and_iff_right rfl)

/-- A module that marks itself as a test from inside: the function in front of it and the line that
opens it become tests, although the attribute stands inside the braces of the module. -/
theorem take_lineRoles_append_of_module :
    let first : List Line := ["fn run() \x7b\x7d".toList, "mod checks \x7b".toList]
    let second : List Line := ["#![cfg(test)]".toList, "\x7d".toList]
    (State.start.trackLines first).2.innerTestAttributes second =
        [⟨.code, 1, 0, [], false, false⟩] ∧
    lineRoles first = [.mainline, .mainline] ∧
    (lineRoles (first ++ second)).take first.length = [.test, .test] := by
  intro first second
  have hmet : (State.start.trackLines first).2.innerTestAttributes second =
      [⟨.code, 1, 0, [], false, false⟩] := by decide +kernel
  refine ⟨hmet, by decide +kernel, (take_lineRoles_append first second).1.trans ?_⟩
  rw [hmet]
  rfl

/-! ## Attributes on statements -/

/-- A statement that calls something, on a line of its own. -/
def callStatement : Line := "log(x);".toList

namespace State

/-- A statement has the role of what it is part of, or of the attribute that waits for it. The
attribute goes on waiting unless no parenthesis and no bracket is open around the statement. -/
theorem trackLine_callStatement {state : State} (hcode : state.mode = .code) :
    state.trackLine callStatement =
      (if !state.scopes.isEmpty || state.pending then .test else .mainline,
        { state with pending := state.pending && state.nesting != 0 }) := by
  obtain ⟨hattribute, htest⟩ :=
    readAttribute_of_not_opensAttribute (show opensAttribute callStatement = false from rfl) state
  -- the parenthesis that it opens it also closes, so its semicolon is met at the same nesting
  have hread : visitAll state false callStatement =
      ({ state with pending := state.pending && !state.endsPendingItem }, state.endsPendingItem) :=
    rfl
  rw [trackLine_of_isQuiet hcode (List.all_eq_true.mp rfl), hattribute, htest, hread]
  cases hpending : state.pending <;> simp [endsPendingItem, hpending, bne]

end State

/-- **A test attribute ends with its statement outside parentheses and brackets.** Wherever no
attribute waits and no literal or comment is open, an attribute and the statement behind it are both
tests. What is known behind them is what was known in front of them, except that the attribute still
waits if a parenthesis or bracket is open there. -/
theorem trackLines_attribute_statement (state : State) (hcode : state.mode = .code)
    (hpending : state.pending = false) :
    state.trackLines [testAttribute, callStatement] =
        ([.test, .test], { state with pending := state.nesting != 0 }) ∧
      ((state.trackLines [testAttribute, callStatement]).2 = state ↔ state.nesting = 0) := by
  have hwaiting : { state with pending := true }.mode = .code := hcode
  have hboth : state.trackLines [testAttribute, callStatement] =
      ([.test, .test], { state with pending := state.nesting != 0 }) := by
    rw [trackLines_cons, State.trackLine_testAttribute hcode, trackLines_cons,
      State.trackLine_callStatement hwaiting]
    simp
  refine ⟨hboth, ?_⟩
  rw [hboth]
  obtain ⟨mode, depth, nesting, scopes, pending, wholeFile⟩ := state
  cases hpending
  simp

/-- In a closure that is handed to a call, the attribute of a statement still waits behind the
statement. It makes tests of the next statement and of the function behind the call. -/
theorem trackLines_attribute_statement_in_closure :
    let before : List Line := ["fn run() \x7b".toList, "each(|x| \x7b".toList]
    let state := (State.start.trackLines before).2
    state = ⟨.code, 2, 1, [], false, false⟩ ∧
    state.trackLines [testAttribute, callStatement] =
      ([.test, .test], ⟨.code, 2, 1, [], true, false⟩) ∧
    (state.trackLines [testAttribute, callStatement]).2 ≠ state ∧
    lineRoles (before ++ [testAttribute, callStatement, "count(x);".toList, "\x7d)".toList,
        "\x7d".toList, "fn after() \x7b\x7d".toList]) =
      [.mainline, .mainline, .test, .test, .test, .test, .test, .test] := by
  intro before state
  have hstate : state = ⟨.code, 2, 1, [], false, false⟩ := by decide +kernel
  obtain ⟨hboth, hsame⟩ :=
    trackLines_attribute_statement state (by rw [hstate]) (by rw [hstate])
  have hne : state.nesting ≠ 0 := by
    rw [hstate]
    decide
  refine ⟨hstate, ?_, fun h => hne (hsame.mp h), by decide +kernel⟩
  rw [hboth, hstate]
  rfl

end LineCensus.Rust
