/-
# Blocks leave no trace

A module of tests and a plain block are tracked from an opening line to a closing brace.
What the tracker knows after a module of tests is what it knew before, so a file goes on
behind the module as if it were not there. After a plain block the same holds but for
one thing: a test attribute in the block that no item has answered still waits behind
the block, for an item that is not its own.

An attribute is answered by an opening brace, by a semicolon outside parentheses and
brackets, or by an attribute that excludes tests. A comma does not answer it, and
neither does the end of the block.
-/

import LineCensus.Proofs.Role.Scope

namespace LineCensus.Rust

open Text

/-! ## Waiting attributes -/

/-- Whether a character that is met begins or ends the item that an attribute can wait for. -/
def reachesItem (met : State × Char) : Bool :=
  met.2 == '{' || (met.2 == ';' && met.1.nesting == 0)

theorem pending_visit (state : State) (c : Char) :
    (state.visit c).pending = (state.pending && !reachesItem (state, c)) := by
  unfold State.visit
  split
  · cases hpending : state.pending <;> simp [State.openBrace, reachesItem, hpending]
  · simp [State.closeBrace, reachesItem]
  · simp [reachesItem]
  · simp [reachesItem]
  · simp [reachesItem]
  · simp [reachesItem]
  · cases hpending : state.pending <;> simp [State.endsPendingItem, reachesItem, hpending]
  · next hbrace _ _ _ _ _ hsemicolon =>
      have hneither : reachesItem (state, c) = false := by
        rw [reachesItem, beq_eq_false_iff_ne.mpr hbrace, beq_eq_false_iff_ne.mpr hsemicolon]
        rfl
      simp [hneither]

theorem pending_visitAll (state : State) (touched : Bool) (text : List Char) :
    (visitAll state touched text).1.pending =
      (state.pending && !(visits state text).any reachesItem) := by
  induction text generalizing state touched with
  | nil => simp [visitAll, visits]
  | cons c rest ih =>
      rw [visitAll, ih, pending_visit, visits, List.any_cons]
      cases state.pending <;> simp

namespace State

/-- Whether a line is an attribute that leaves the item after it out of tests. -/
def isExclusion (state : State) (line : Line) : Bool :=
  state.mode = .code && Attribute.meaning (trim line) = .notTest

theorem isExclusion_eq_false {state : State} {line : Line} (h : state.isTestAttribute line = true) :
    state.isExclusion line = false := by
  simp only [isTestAttribute, Bool.and_eq_true, decide_eq_true_eq] at h
  simp [isExclusion, h.1.2]

theorem pending_readAttribute (state : State) (line : Line) :
    (state.readAttribute line).pending =
      (state.pending && !state.isExclusion line || state.isTestAttribute line) := by
  unfold readAttribute isExclusion isTestAttribute
  split
  · next hcode =>
      split
      · next hmeaning => split <;> next hinner => simp [hcode, hmeaning, hinner]
      · next hmeaning => simp [hcode, hmeaning]
      · next hmeaning => simp [hcode, hmeaning]
  · next hcode => simp [hcode]

/-- An attribute waits behind a line if it is on it or has waited before, and no item comes up. -/
theorem pending_trackLine (state : State) (line : Line) :
    (state.trackLine line).2.pending =
      ((state.pending && !state.isExclusion line || state.isTestAttribute line) &&
        !(state.meetsOn line).any reachesItem) := by
  rw [← pending_readAttribute, trackLine_eq]
  exact pending_visitAll ((state.readAttribute line).inMode .code) false (state.mode.mask line).1

/-- Lines on which an item comes up for an attribute that waits, or one that excludes tests. -/
def Answers (state : State) : List Line → Prop
  | [] => False
  | line :: rest =>
    state.isExclusion line = true ∨ (∃ met ∈ state.meetsOn line, reachesItem met = true) ∨
      (state.trackLine line).2.Answers rest

/-- Lines on which every test attribute is answered, on its own line or on a later one. -/
def AnswersAttributes (state : State) (lines : List Line) : Prop :=
  ∀ before line rest, lines = before ++ line :: rest →
    (state.trackLines before).2.isTestAttribute line = true →
    (state.trackLines before).2.Answers (line :: rest)

theorem answersAttributes_cons (state : State) (line : Line) (rest : List Line) :
    state.AnswersAttributes (line :: rest) ↔
      (state.isTestAttribute line = true → state.Answers (line :: rest)) ∧
        (state.trackLine line).2.AnswersAttributes rest := by
  constructor
  · intro h
    refine ⟨h [] line rest rfl, fun before other after hrest => ?_⟩
    have hother := h (line :: before) other after (congrArg (line :: ·) hrest)
    rwa [trackLines_cons] at hother
  · rintro ⟨hline, hrest⟩ before other after hlines
    cases before with
    | nil =>
        obtain ⟨rfl, rfl⟩ := List.cons.inj hlines
        exact hline
    | cons first before =>
        obtain ⟨rfl, htail⟩ := List.cons.inj hlines
        rw [trackLines_cons]
        exact hrest before other after htail

/-- No attribute waits behind lines that answer the one that waited before them and all that are
on them, and behind no others. -/
theorem pending_trackLines_eq_false_iff (state : State) (lines : List Line) :
    (state.trackLines lines).2.pending = false ↔
      (state.pending = true → state.Answers lines) ∧ state.AnswersAttributes lines := by
  induction lines generalizing state with
  | nil =>
      have hnone : state.AnswersAttributes [] := fun _ _ _ hlines => by simp at hlines
      simp [hnone, Answers]
  | cons line rest ih =>
      rw [trackLines_cons, ih, answersAttributes_cons, ← and_assoc]
      refine and_congr_left fun _ => ?_
      rw [pending_trackLine, Answers]
      have hexclusive : state.isTestAttribute line = true → state.isExclusion line = false :=
        isExclusion_eq_false
      have hmeets : (state.meetsOn line).any reachesItem = true ↔
          ∃ met ∈ state.meetsOn line, reachesItem met = true := List.any_eq_true
      -- what waits behind the line has been on it or has waited before, unanswered on the line
      rw [← hmeets]
      cases state.pending <;> cases hexclusion : state.isExclusion line <;>
        cases htest : state.isTestAttribute line <;>
        cases (state.meetsOn line).any reachesItem <;> simp_all

end State

/-! ## The lines around a block -/

/-- The attribute that marks the item after it as a test. -/
def testAttribute : Line := "#[cfg(test)]".toList

/-- The line that opens a module of tests. -/
def testModuleOpening : Line := "mod tests \x7b".toList

/-- The line that opens a structure. -/
def structOpening : Line := "struct S \x7b".toList

/-- The line that closes a block. -/
def closing : Line := ['}']

namespace State

/-- A line without literals and comments is taken in as it is. -/
theorem trackLine_of_isQuiet {state : State} (hcode : state.mode = .code) {line : Line}
    (hquiet : ∀ c ∈ line, isQuiet c = true) :
    state.trackLine line =
      let after := visitAll (state.readAttribute line) false line
      (if !state.scopes.isEmpty || state.pending || state.isTestAttribute line || after.2 then .test
        else .mainline, after.1) := by
  have hmask : state.mode.mask line = (line, .code) := by
    rw [hcode]
    exact maskFrom_of_isBare (isBare_of_isQuiet hquiet) none
  have hattribute : (state.readAttribute line).inMode .code = state.readAttribute line := by
    rw [← hcode, ← mode_readAttribute state line, inMode_mode]
  have hafter : (visitAll (state.readAttribute line) false line).1.mode = .code := by
    rw [mode_visitAll, mode_readAttribute, hcode]
  rw [trackLine_eq, hmask, hattribute]
  simp only
  rw [← hafter, inMode_mode]

theorem readAttribute_of_not_opensAttribute {line : Line} (h : opensAttribute line = false)
    (state : State) :
    state.readAttribute line = state ∧ state.isTestAttribute line = false := by
  simp [readAttribute, isTestAttribute, meaning_eq_unrelated h]

theorem trackLine_testAttribute {state : State} (hcode : state.mode = .code) :
    state.trackLine testAttribute = (.test, { state with pending := true }) := by
  have hmeaning : Attribute.meaning (trim testAttribute) = .test := by decide +kernel
  have hattribute : state.readAttribute testAttribute = { state with pending := true } := by
    rw [readAttribute, if_pos hcode, hmeaning]
    rfl
  have htest : state.isTestAttribute testAttribute = true := by
    rw [isTestAttribute, hmeaning, hcode]
    rfl
  -- the two brackets that it opens it also closes
  have hread : visitAll { state with pending := true } false testAttribute =
      ({ state with pending := true }, false) := rfl
  rw [trackLine_of_isQuiet hcode (List.all_eq_true.mp rfl), hattribute, htest, hread]
  simp

/-- A line that ends with an opening brace and has nothing else to it. -/
theorem trackLine_opening {state : State} (hcode : state.mode = .code) {words : List Char}
    (hquiet : ∀ c ∈ words, isQuiet c = true) (hflat : ∀ c ∈ words, ¬ isStructural c = true)
    (hplain : opensAttribute (words ++ ['{']) = false) :
    state.trackLine (words ++ ['{']) =
      (if !state.scopes.isEmpty || state.pending then .test else .mainline, state.openBrace) := by
  have hline : ∀ c ∈ words ++ ['{'], isQuiet c = true :=
    List.forall_mem_append.mpr ⟨hquiet, List.forall_mem_singleton.mpr rfl⟩
  obtain ⟨hattribute, htest⟩ := readAttribute_of_not_opensAttribute hplain state
  rw [trackLine_of_isQuiet hcode hline, hattribute, htest, visitAll_append,
    visitAll_of_not_structural hflat]
  simp [visitAll, visit, isTestEdge]

theorem trackLine_closing {state : State} (hcode : state.mode = .code) :
    (state.trackLine closing).2 = state.closeBrace := by
  have hplain : opensAttribute closing = false := rfl
  obtain ⟨hattribute, _⟩ := readAttribute_of_not_opensAttribute hplain state
  rw [trackLine_of_isQuiet hcode (List.all_eq_true.mp rfl), hattribute]
  rfl

/-- Closing the brace of a test scope brings back what was known in front of it. -/
theorem closeBrace_openBrace {state : State} (hpending : state.pending = false) :
    { state with pending := true }.openBrace.closeBrace = state := by
  obtain ⟨mode, depth, nesting, scopes, pending, wholeFile⟩ := state
  cases hpending
  simp [openBrace, closeBrace, endsScope]

/-- Closing a brace that no attribute waited for ends no scope around it. -/
theorem closeBrace_of_nested {state : State} (h : state.Nested) (pending : Bool) :
    { state with depth := state.depth + 1, pending }.closeBrace = { state with pending } := by
  have hends : { state with depth := state.depth + 1, pending }.endsScope = false := by
    cases hscopes : state.scopes.head? with
    | none => simp [endsScope, hscopes]
    | some opened => simpa [endsScope, hscopes] using h.keepsScopes opened hscopes
  rw [closeBrace, hends]
  simp

/-- At the end of lines by themselves that leave no brace open no scope is left open either. -/
theorem Nested.scopes_eq_nil {state : State} (h : state.Nested) (hdepth : state.depth = 0) :
    state.scopes = [] := by
  refine List.eq_nil_iff_forall_not_mem.mpr fun opened hopened => ?_
  have hbelow := (List.pairwise_cons.mp h).1 opened hopened
  omega

end State

/-! ## Modules of tests -/

/-- The lines of a module of tests from any state between items. -/
theorem trackLines_module {state : State} (hcode : state.mode = .code)
    (hnesting : state.nesting = 0) (hpending : state.pending = false) {body : List Line}
    (hback : (State.start.trackLines body).2 = .start) (hopen : State.start.ClosesOnlyOpen body) :
    state.trackLines (testAttribute :: testModuleOpening :: (body ++ [closing])) =
      (List.replicate (body.length + 3) .test, state) := by
  have hwaiting : { state with pending := true }.mode = .code := hcode
  have hmodule : { state with pending := true }.trackLine testModuleOpening =
      (.test, { state with pending := true }.openBrace) := by
    rw [show testModuleOpening = "mod tests ".toList ++ ['{'] from rfl,
      State.trackLine_opening hwaiting (List.all_eq_true.mp rfl) (List.any_eq_false.mp rfl) rfl]
    simp
  generalize hblock : { state with pending := true }.openBrace = block at hmodule
  have hscopes : block.scopes = state.depth :: state.scopes := by rw [← hblock]; rfl
  have hkeeps : block.KeepsScopes := by
    rw [State.KeepsScopes, hscopes, ← hblock]
    simp [State.openBrace]
  have hblockCode : block.mode = .code := by rw [← hblock]; exact hcode
  have hwithin : State.start.within block = block := by
    refine State.start_within hblockCode ?_ ?_ <;> rw [← hblock]
    · exact hnesting
    · rfl
  have hbody : block.trackLines body = (List.replicate body.length .test, block) := by
    have hroles := State.roles_within hkeeps (by simp [hscopes]) hopen
    have hafter := State.trackLines_within hkeeps hopen
    rw [hwithin] at hroles hafter
    rw [hback, hwithin] at hafter
    exact Prod.ext hroles hafter
  have hclosing : block.trackLine closing = (.test, state) := by
    refine Prod.ext (State.trackLine_of_scopes (by simp [hscopes]) closing) ?_
    rw [State.trackLine_closing hblockCode, ← hblock, State.closeBrace_openBrace hpending]
  rw [trackLines_cons, State.trackLine_testAttribute hcode, trackLines_cons, hmodule,
    trackLines_append, hbody, trackLines_cons, hclosing, List.replicate_succ, List.replicate_succ,
    List.replicate_succ']
  rfl

/-- **A module of tests leaves no trace.** Between items, at any depth and in any scopes, the lines
of a module of tests are all tests, and what is known behind it is what was known in front of it.
All that is asked of its body is that a tracker which reads nothing else is back at its start and
meets no closing brace without an open one. -/
theorem trackLines_testModule (state : State) (hcode : state.mode = .code)
    (hnesting : state.nesting = 0) (hpending : state.pending = false) (body : List Line)
    (hback : (State.start.trackLines body).2 = .start) (hopen : State.start.ClosesOnlyOpen body) :
    state.trackLines (testAttribute :: testModuleOpening :: (body ++ [closing])) =
        (List.replicate (body.length + 3) .test, state) ∧
      ∀ rest, lineRoles (testAttribute :: testModuleOpening :: (body ++ [closing]) ++ rest) =
        List.replicate (body.length + 3) .test ++ lineRoles rest := by
  refine ⟨trackLines_module hcode hnesting hpending hback hopen, fun rest => ?_⟩
  have hstart := @trackLines_module .start rfl rfl rfl body hback hopen
  rw [lineRoles, lineRoles, State.track, State.track, trackLines_append, hstart]
  simp only
  split
  · rw [List.map_append, List.map_replicate]
  · rfl

/-- A module of tests in a scope, with an attribute and a scope of its own, and with a raw string,
a character and a comment that hold braces. -/
theorem trackLines_testModule_in_scope :
    let state : State := ⟨.code, 2, 0, [1], false, false⟩
    let body : List Line :=
      ["#[test]".toList,
        "fn f()\x7b".toList,
        "g(['\x7b'])\x7br#\"\x7d".toList,
        "\"#\x7d/*\x7d".toList,
        "*/\x7d".toList]
    (State.start.trackLines body).2 = .start ∧ State.start.ClosesOnlyOpen body ∧
    state.trackLines (testAttribute :: testModuleOpening :: (body ++ [closing])) =
      (List.replicate 8 .test, state) ∧
    lineRoles (testAttribute :: testModuleOpening :: (body ++ [closing]) ++ ["mod h;".toList]) =
      List.replicate 8 .test ++ [.mainline] := by
  intro state body
  have hback : (State.start.trackLines body).2 = .start := by decide +kernel
  have hopen : State.start.ClosesOnlyOpen body := by
    unfold State.ClosesOnlyOpen
    decide +kernel
  obtain ⟨hmodule, hfile⟩ := trackLines_testModule state rfl rfl rfl body hback hopen
  refine ⟨hback, hopen, hmodule, (hfile _).trans ?_⟩
  decide +kernel

/-! ## Plain blocks -/

/-- **A plain block leaves no trace but an attribute without an item.** Between items, the lines of
a structure change nothing in what is known, except that a test attribute which waits at the end of
its body waits behind it as well. So nothing is changed exactly if every test attribute in the body
is answered there. -/
theorem trackLines_struct (state : State) (hreachable : state.Reachable)
    (hcode : state.mode = .code) (hnesting : state.nesting = 0) (hpending : state.pending = false)
    (body : List Line) (hinner : (State.start.trackLines body).2.wholeFile = false)
    (hopen : State.start.ClosesOnlyOpen body) (hdepth : (State.start.trackLines body).2.depth = 0)
    (hmode : (State.start.trackLines body).2.mode = .code)
    (hbrackets : (State.start.trackLines body).2.nesting = 0) :
    (state.trackLines (structOpening :: (body ++ [closing]))).2 =
        { state with pending := (State.start.trackLines body).2.pending } ∧
      ((state.trackLines (structOpening :: (body ++ [closing]))).2 = state ↔
        State.start.AnswersAttributes body) := by
  have hnested := hreachable.nested
  have hopening : (state.trackLine structOpening).2 = { state with depth := state.depth + 1 } := by
    rw [show structOpening = "struct S ".toList ++ ['{'] from rfl,
      State.trackLine_opening hcode (List.all_eq_true.mp rfl) (List.any_eq_false.mp rfl) rfl]
    simp [State.openBrace, hpending]
  have hkeeps : { state with depth := state.depth + 1 }.KeepsScopes := fun opened hopened =>
    Nat.lt_succ_of_lt (hnested.keepsScopes opened hopened)
  have hwithin := @State.start_within { state with depth := state.depth + 1 } hcode hnesting hpending
  have hbody := State.trackLines_within hkeeps hopen
  rw [hwithin] at hbody
  have hscopes : (State.start.trackLines body).2.scopes = [] :=
    (State.Reachable.start.trackLines body).nested.scopes_eq_nil hdepth
  have hend : (State.start.trackLines body).2.within { state with depth := state.depth + 1 } =
      { state with
        depth := state.depth + 1, pending := (State.start.trackLines body).2.pending } := by
    simp [State.within, hscopes, hdepth, hmode, hbrackets, hinner, hcode, hnesting]
  have hclosing := @State.trackLine_closing { state with
    depth := state.depth + 1, pending := (State.start.trackLines body).2.pending } hcode
  have hafter : (state.trackLines (structOpening :: (body ++ [closing]))).2 =
      { state with pending := (State.start.trackLines body).2.pending } := by
    rw [trackLines_cons, hopening, trackLines_append, hbody, hend, trackLines_cons, trackLines_nil,
      hclosing, State.closeBrace_of_nested hnested]
  refine ⟨hafter, ?_⟩
  rw [hafter]
  have hanswered := State.pending_trackLines_eq_false_iff .start body
  constructor
  · intro hsame
    have hnone : (State.start.trackLines body).2.pending = false :=
      (congrArg State.pending hsame).trans hpending
    exact (hanswered.mp hnone).2
  · intro hanswers
    have hnone := hanswered.mpr ⟨fun h => absurd h Bool.false_ne_true, hanswers⟩
    rw [hnone, ← hpending]

/-- A field for tests only, in a structure inside a module: its attribute still waits behind the
structure and makes a test of the item that follows. -/
theorem trackLines_struct_of_field :
    let state : State := (State.start.trackLines ["mod a \x7b".toList]).2
    let body : List Line := ["#[cfg(test)]".toList, "x: u8,".toList]
    state = ⟨.code, 1, 0, [], false, false⟩ ∧ State.start.ClosesOnlyOpen body ∧
    (State.start.trackLines body).2 = ⟨.code, 0, 0, [], true, false⟩ ∧
    (state.trackLines (structOpening :: (body ++ [closing]))).2 = { state with pending := true } ∧
    ¬ State.start.AnswersAttributes body ∧
    lineRoles (structOpening :: (body ++ [closing]) ++ ["fn f() \x7b\x7d".toList]) =
      [.mainline, .test, .test, .test, .test] := by
  intro state body
  have hstate : state = ⟨.code, 1, 0, [], false, false⟩ := by decide +kernel
  have hbody : (State.start.trackLines body).2 = ⟨.code, 0, 0, [], true, false⟩ := by decide +kernel
  have hopen : State.start.ClosesOnlyOpen body := by
    unfold State.ClosesOnlyOpen
    decide +kernel
  have hreachable : state.Reachable := State.Reachable.start.trackLines _
  obtain ⟨hafter, hsame⟩ := trackLines_struct state hreachable (by rw [hstate]) (by rw [hstate])
    (by rw [hstate]) body (by rw [hbody]) hopen (by rw [hbody]) (by rw [hbody]) (by rw [hbody])
  rw [hbody] at hafter
  refine ⟨hstate, hopen, hbody, hafter, fun hanswers => ?_, by decide +kernel⟩
  have hpending := congrArg State.pending ((hsame.mpr hanswers).symm.trans hafter)
  rw [hstate] at hpending
  cases hpending

end LineCensus.Rust
