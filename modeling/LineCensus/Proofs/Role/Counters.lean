/-
# The tracker with plain counters

What the tracker knows is built so that no count falls below zero and no string is open
together with a comment. This module has a tracker for which none of that is built in. It
counts in integers, and an open string and the depth of block comments are two fields that
have nothing to do with each other. It takes in the same pieces of text and does the same
with them, and nothing but a maximum keeps the count of braces or of brackets from falling.

The two are one tracker: between lines they know the same, and what the first cannot say
the second never comes to say, at any place of any line. Together with the scopes, which
began at smaller and smaller depths, this tells what a closing brace can do. It ends the
scope that began at the depth to which it returns, and no other.
-/

import LineCensus.Proofs.Role.Scope

namespace LineCensus.Rust

open Text

/-- A string that is open. -/
structure OpenString where
  /-- What ends it. -/
  terminator : List Char
  /-- Whether a backslash escapes the next character. -/
  escapes : Bool
deriving DecidableEq

/-- What is known at some place of a file, each count an integer. -/
structure Counters where
  /-- How many braces are open. -/
  depth : Int
  /-- How many parentheses and brackets are open. -/
  nesting : Int
  /-- How many block comments are open. -/
  comments : Int
  /-- The string that is open. -/
  string : Option OpenString
  /-- The depths at which the open test scopes began, innermost first. -/
  scopes : List Int
  /-- Whether a test attribute waits for its item. -/
  pending : Bool
  /-- Whether an inner attribute has made the whole file a test. -/
  wholeFile : Bool
deriving DecidableEq

namespace Counters

/-! ## Plain counting -/

/-- What is known before the first line. -/
def start : Counters := ⟨0, 0, 0, none, [], false, false⟩

/-- One brace more. It begins a scope if a test attribute waits. -/
def openBrace (k : Counters) : Counters :=
  if k.pending then
    { k with depth := k.depth + 1, scopes := k.depth :: k.scopes, pending := false }
  else { k with depth := k.depth + 1 }

/-- One brace fewer. It ends the innermost scope if that began no lower than the depth behind it. -/
def closeBrace (k : Counters) : Counters :=
  let depth := max 0 (k.depth - 1)
  let scopes :=
    match k.scopes with
    | [] => []
    | opened :: outer => if depth ≤ opened then outer else opened :: outer
  { k with depth, scopes }

/-- Takes in a character outside literals and comments. -/
def visit (k : Counters) (c : Char) : Counters :=
  match c with
  | '{' => k.openBrace
  | '}' => k.closeBrace
  | '(' | '[' => { k with nesting := k.nesting + 1 }
  | ')' | ']' => { k with nesting := max 0 (k.nesting - 1) }
  | ';' => if k.pending ∧ k.nesting = 0 then { k with pending := false } else k
  | _ => k

/-- Opens a literal or a comment and leaves alone what else may be open. -/
def enter (k : Counters) : Mode → Counters
  | .code => k
  | .string => { k with string := some ⟨['"'], true⟩ }
  | .rawString hashes => { k with string := some ⟨'"' :: List.replicate hashes '#', false⟩ }
  | .comment outer => { k with comments := outer + 1 }

/-- Takes in the first piece of the text `c :: rest` behind `previous`. The second answer is how
many characters it has. -/
def move (k : Counters) (previous : Option Char) (c : Char) (rest : List Char) : Counters × Nat :=
  if k.comments ≠ 0 then
    if startsWith ['/', '*'] (c :: rest) then ({ k with comments := k.comments + 1 }, 2)
    else if startsWith ['*', '/'] (c :: rest) then ({ k with comments := k.comments - 1 }, 2)
    else (k, 1)
  else match k.string with
  | some string =>
    if string.escapes ∧ c = '\\' then (k, 2)
    else if startsWith string.terminator (c :: rest) then
      ({ k with string := none }, string.terminator.length)
    else (k, 1)
  | none =>
    let lexeme := codeLexeme previous c rest
    ((lexeme.visible.foldl visit k).enter lexeme.mode, (lexeme.visible ++ lexeme.hidden).length)

/-- What is known once the attribute on a line is read, if the line is one. -/
def readAttribute (k : Counters) (line : Line) : Counters :=
  if k.string = none ∧ k.comments = 0 then
    match Attribute.meaning (trim line) with
    | .test =>
      if isInnerAttribute (trim line) then { k with wholeFile := true }
      else { k with pending := true }
    | .notTest => { k with pending := false }
    | .unrelated => k
  else k

/-- A place on a line. -/
structure Point where
  counters : Counters
  /-- The character in front of the place. -/
  previous : Option Char
  /-- What is still to be read of the line. -/
  ahead : List Char
deriving DecidableEq

namespace Point

/-- The place behind the next piece of the line. -/
def next (point : Point) : Point :=
  match point.ahead with
  | [] => point
  | c :: rest =>
    let moved := point.counters.move point.previous c rest
    ⟨moved.1, ((c :: rest).take moved.2).getLast?, (c :: rest).drop moved.2⟩

/-- The places to which some lines lead. -/
inductive Reached : Point → Prop where
  | start : Reached ⟨.start, none, []⟩
  | line {k : Counters} {previous : Option Char} (h : Reached ⟨k, previous, []⟩) (line : Line) :
      Reached ⟨k.readAttribute line, none, line⟩
  | next {point : Point} (h : Reached point) : Reached point.next

/-- Whether a place is outside literals and comments. -/
def InCode (point : Point) : Prop :=
  point.counters.string = none ∧ point.counters.comments = 0

/-- Whether a place is in front of a character outside literals and comments. -/
def StandsAt (point : Point) (c : Char) : Prop :=
  point.InCode ∧ point.ahead.head? = some c

end Point

/-- What holds of the counters at every place. -/
structure Sound (k : Counters) : Prop where
  depth_nonneg : 0 ≤ k.depth
  nesting_nonneg : 0 ≤ k.nesting
  comments_nonneg : 0 ≤ k.comments
  /-- A string and a comment are never open at once. -/
  string_or_comments : k.string = none ∨ k.comments = 0
  /-- The scopes began at smaller and smaller depths. -/
  scopes_decrease : k.scopes.Pairwise (· > ·)
  scopes_below : ∀ opened ∈ k.scopes, opened < k.depth

/-! ## Braces -/

/-- A brace in code is a piece of its own. -/
theorem Point.StandsAt.next_eq {point : Point} {c : Char} (h : point.StandsAt c)
    (hc : c = '{' ∨ c = '}') : point.next.counters = point.counters.visit c := by
  obtain ⟨k, previous, ahead⟩ := point
  obtain ⟨⟨hstring, hcomments⟩, hhead⟩ := h
  obtain ⟨rest, rfl⟩ := List.head?_eq_some_iff.mp hhead
  have hpiece : codeLexeme previous c rest = .plain c rest := by
    rcases hc with rfl | rfl <;> simp [codeLexeme, rawOpening?]
  simp only at hstring hcomments
  simp only [next, move, hcomments, ne_eq, not_true_eq_false, ↓reduceIte, hstring, hpiece]
  rfl

theorem scopes_visit {c : Char} (hc : c ≠ '{' ∧ c ≠ '}') (k : Counters) :
    (k.visit c).scopes = k.scopes := by
  unfold visit
  split
  · exact absurd rfl hc.1
  · exact absurd rfl hc.2
  · rfl
  · rfl
  · rfl
  · rfl
  · split <;> rfl
  · rfl

theorem scopes_foldl_visit {text : List Char} (h : ∀ c ∈ text, c ≠ '{' ∧ c ≠ '}') (k : Counters) :
    (text.foldl visit k).scopes = k.scopes := by
  induction text generalizing k with
  | nil => rfl
  | cons c rest ih =>
      obtain ⟨hc, hrest⟩ := List.forall_mem_cons.mp h
      rw [List.foldl_cons, ih hrest, scopes_visit hc]

theorem scopes_enter (k : Counters) (mode : Mode) : (k.enter mode).scopes = k.scopes := by
  cases mode <;> rfl

/-- The characters that count in a piece of code hold no brace unless the piece begins with one. -/
theorem ne_brace_of_mem_codeLexeme {c : Char} (hc : c ≠ '{' ∧ c ≠ '}') (previous : Option Char)
    (rest : List Char) : ∀ x ∈ (codeLexeme previous c rest).visible, x ≠ '{' ∧ x ≠ '}' := by
  rcases firstLexeme_cases .code previous c rest with
    ⟨hidden, after, beyond, hpiece⟩ | ⟨_, hpiece, _⟩ | ⟨opening, hashes, inside, hraw, hpiece⟩
  all_goals rw [firstLexeme] at hpiece; rw [hpiece]
  · exact fun x hx => absurd hx List.not_mem_nil
  · exact List.forall_mem_singleton.mpr hc
  · exact forall_mem_rawOpening? (by decide) (by decide) hraw

/-- Only braces in code begin or end scopes. -/
theorem Point.scopes_next {point : Point} (hopens : ¬ point.StandsAt '{')
    (hcloses : ¬ point.StandsAt '}') :
    point.next.counters.scopes = point.counters.scopes := by
  obtain ⟨k, previous, ahead⟩ := point
  cases ahead with
  | nil => rfl
  | cons c rest =>
      show (k.move previous c rest).1.scopes = k.scopes
      unfold move
      split
      · split
        · rfl
        · split <;> rfl
      · next hcomments =>
          split
          · split
            · rfl
            · split <;> rfl
          · next hstring =>
              have hcode : Point.InCode ⟨k, previous, c :: rest⟩ := ⟨hstring, not_not.mp hcomments⟩
              have hc : c ≠ '{' ∧ c ≠ '}' :=
                ⟨fun hc => hopens ⟨hcode, congrArg some hc⟩,
                  fun hc => hcloses ⟨hcode, congrArg some hc⟩⟩
              rw [scopes_enter, scopes_foldl_visit (ne_brace_of_mem_codeLexeme hc previous rest)]

/-- Of the scopes a closing brace ends the innermost at most. -/
theorem scopes_closeBrace (k : Counters) :
    k.closeBrace.scopes = k.scopes ∨ ∃ opened, k.scopes = opened :: k.closeBrace.scopes := by
  simp only [closeBrace]
  split
  · next hnil => exact .inl hnil.symm
  · next opened outer hscopes =>
      split
      · exact .inr ⟨opened, hscopes⟩
      · exact .inl hscopes.symm

/-- It ends the scope that began at the depth to which it returns. -/
theorem Sound.not_mem_closeBrace_iff {k : Counters} (h : k.Sound) {opened : Int}
    (hopened : opened ∈ k.scopes) :
    opened ∉ k.closeBrace.scopes ↔ k.closeBrace.depth = opened := by
  have hbelow := h.scopes_below
  have hdecrease := h.scopes_decrease
  cases hscopes : k.scopes with
  | nil => exact absurd (hscopes ▸ hopened) List.not_mem_nil
  | cons top outer =>
      rw [hscopes] at hopened hbelow hdecrease
      have houter := (List.pairwise_cons.mp hdecrease).1
      have htop := hbelow top List.mem_cons_self
      simp only [closeBrace, hscopes]
      split
      · next hends =>
          -- the depth has come back to where the innermost scope began
          have hback : max 0 (k.depth - 1) = top := by omega
          rw [hback]
          rcases List.mem_cons.mp hopened with rfl | hmem
          · exact iff_of_true (fun hmem => absurd (houter _ hmem) (Int.lt_irrefl _)) rfl
          · exact iff_of_false (not_not_intro hmem) (Int.ne_of_gt (houter _ hmem))
      · next hlasts =>
          have hle : opened ≤ top := by
            rcases List.mem_cons.mp hopened with rfl | hmem
            · exact Int.le_refl _
            · exact Int.le_of_lt (houter _ hmem)
          exact iff_of_false (not_not_intro hopened) (by omega)

theorem scopes_openBrace (k : Counters) :
    k.openBrace.scopes = if k.pending then k.depth :: k.scopes else k.scopes := by
  rw [openBrace]
  split <;> rfl

/-- Among the scopes behind an opening brace is a new one exactly if an attribute waits. -/
theorem Sound.not_mem_iff_of_openBrace {k : Counters} (h : k.Sound) {opened : Int}
    (hopened : opened ∈ k.openBrace.scopes) :
    opened ∉ k.scopes ↔ k.pending = true ∧ k.depth = opened := by
  rw [scopes_openBrace] at hopened
  split at hopened
  · next hpending =>
      rw [and_iff_right hpending]
      rcases List.mem_cons.mp hopened with rfl | hmem
      · exact iff_of_true (fun hmem => Int.lt_irrefl _ (h.scopes_below _ hmem)) rfl
      · exact iff_of_false (not_not_intro hmem) (Int.ne_of_gt (h.scopes_below _ hmem))
  · next hpending => exact iff_of_false (not_not_intro hopened) fun h => hpending h.1

theorem scopes_readAttribute (k : Counters) (line : Line) :
    (k.readAttribute line).scopes = k.scopes := by
  unfold readAttribute
  split
  · cases Attribute.meaning (trim line) with
    | test =>
        simp only
        split <;> rfl
    | notTest => rfl
    | unrelated => rfl
  · rfl

/-- Nothing but a closing brace ends a scope. -/
theorem Point.not_mem_next_iff {point : Point} (h : point.counters.Sound) {opened : Int}
    (hopened : opened ∈ point.counters.scopes) :
    opened ∉ point.next.counters.scopes ↔
      point.StandsAt '}' ∧ point.next.counters.depth = opened := by
  by_cases hcloses : point.StandsAt '}'
  · rw [and_iff_right hcloses, hcloses.next_eq (.inr rfl)]
    exact h.not_mem_closeBrace_iff hopened
  · refine iff_of_false (not_not_intro ?_) fun h => hcloses h.1
    by_cases hopens : point.StandsAt '{'
    · rw [hopens.next_eq (.inl rfl)]
      show opened ∈ point.counters.openBrace.scopes
      rw [scopes_openBrace]
      split
      · exact List.mem_cons_of_mem _ hopened
      · exact hopened
    · rwa [scopes_next hopens hcloses]

/-- Nothing but an opening brace begins a scope. -/
theorem Point.not_mem_iff_of_next {point : Point} (h : point.counters.Sound) {opened : Int}
    (hopened : opened ∈ point.next.counters.scopes) :
    opened ∉ point.counters.scopes ↔
      point.StandsAt '{' ∧ point.counters.pending = true ∧ point.counters.depth = opened := by
  by_cases hopens : point.StandsAt '{'
  · rw [hopens.next_eq (.inl rfl)] at hopened
    rw [and_iff_right hopens]
    exact h.not_mem_iff_of_openBrace hopened
  · refine iff_of_false (not_not_intro ?_) fun h => hopens h.1
    by_cases hcloses : point.StandsAt '}'
    · rw [hcloses.next_eq (.inr rfl)] at hopened
      rcases point.counters.scopes_closeBrace with hsame | ⟨top, htop⟩
      · exact hsame ▸ hopened
      · exact htop ▸ List.mem_cons_of_mem _ hopened
    · rwa [scopes_next hopens hcloses] at hopened

end Counters

/-! ## One tracker -/

/-- The string that is open in a mode. -/
def Mode.string? : Mode → Option OpenString
  | .string => some ⟨['"'], true⟩
  | .rawString hashes => some ⟨'"' :: List.replicate hashes '#', false⟩
  | .code | .comment _ => none

/-- How many block comments are open in a mode. -/
def Mode.comments : Mode → Nat
  | .comment outer => outer + 1
  | .code | .string | .rawString _ => 0

namespace State

/-- What the tracker knows, in plain counters. -/
def counters (state : State) : Counters where
  depth := state.depth
  nesting := state.nesting
  comments := state.mode.comments
  string := state.mode.string?
  scopes := state.scopes.map Nat.cast
  pending := state.pending
  wholeFile := state.wholeFile

theorem counters_openBrace (state : State) :
    state.openBrace.counters = state.counters.openBrace := by
  rw [openBrace, Counters.openBrace]
  cases hpending : state.pending <;> simp [counters, hpending]

theorem counters_closeBrace (state : State) :
    state.closeBrace.counters = state.counters.closeBrace := by
  have hdepth : ((state.depth - 1 : Nat) : Int) = max 0 ((state.depth : Int) - 1) := by omega
  have hscopes : (if state.endsScope then state.scopes.drop 1 else state.scopes).map Nat.cast =
      state.counters.closeBrace.scopes := by
    cases hstack : state.scopes with
    | nil => simp [Counters.closeBrace, counters, hstack]
    | cons opened outer =>
        have hends : state.endsScope = true ↔ max 0 ((state.depth : Int) - 1) ≤ opened := by
          simp only [endsScope, hstack, List.head?_cons, Option.any_some, decide_eq_true_eq]
          omega
        simp only [Counters.closeBrace, counters, hstack, List.map_cons, hends]
        split <;> rfl
  rw [closeBrace, counters, hscopes, hdepth]
  rfl

theorem counters_visit (state : State) (c : Char) :
    (state.visit c).counters = state.counters.visit c := by
  have hback : ((state.nesting - 1 : Nat) : Int) = max 0 ((state.nesting : Int) - 1) := by omega
  unfold visit
  split
  · exact counters_openBrace state
  · exact counters_closeBrace state
  · rfl
  · rfl
  · simp only [Counters.visit, hback, counters]
  · simp only [Counters.visit, hback, counters]
  · cases hpending : state.pending <;> by_cases hnesting : state.nesting = 0 <;>
      simp [Counters.visit, counters, endsPendingItem, hpending, hnesting]
  · unfold Counters.visit
    split <;> first | rfl | contradiction

theorem counters_visitAll (state : State) (touched : Bool) (text : List Char) :
    (visitAll state touched text).1.counters = text.foldl Counters.visit state.counters := by
  induction text generalizing state touched with
  | nil => rfl
  | cons c rest ih => rw [visitAll, ih, counters_visit, List.foldl_cons]

theorem counters_enter {state : State} (hcode : state.mode = .code) (mode : Mode) :
    (state.inMode mode).counters = state.counters.enter mode := by
  cases mode <;>
    simp [counters, inMode, Counters.enter, hcode, Mode.string?, Mode.comments]

/-- Whether a move takes in this piece of a text and leads to the state behind it. -/
def Follows (moved : Counters × Nat) (state : State) (text : List Char) (lexeme : Lexeme) : Prop :=
  (∀ touched,
    moved.1 = (visitAll (state.inMode lexeme.mode) touched lexeme.visible).1.counters) ∧
  text.take moved.2 = lexeme.visible ++ lexeme.hidden

theorem startsWith_cons_cons_iff {first c : Char} {more rest : List Char} :
    startsWith (first :: more) (c :: rest) = true ↔ c = first ∧ startsWith more rest = true := by
  rw [startsWith_iff_isPrefix, startsWith_iff_isPrefix, List.cons_prefix_cons, eq_comm]

theorem startsWith_singleton_iff {mark : Char} {text : List Char} :
    startsWith [mark] text = true ↔ text.head? = some mark := by
  cases text with
  | nil => exact iff_of_false Bool.false_ne_true nofun
  | cons c rest =>
      rw [startsWith_singleton_cons, beq_iff_eq, List.head?_cons, Option.some.injEq, eq_comm]

theorem follows_code {state : State} (hcode : state.mode = .code) (previous : Option Char)
    (c : Char) (rest : List Char) :
    Follows (state.counters.move previous c rest) state (c :: rest) (codeLexeme previous c rest) := by
  have hmove : state.counters.move previous c rest =
      (((codeLexeme previous c rest).visible.foldl Counters.visit state.counters).enter
          (codeLexeme previous c rest).mode,
        ((codeLexeme previous c rest).visible ++ (codeLexeme previous c rest).hidden).length) := by
    simp [Counters.move, counters, hcode, Mode.string?, Mode.comments]
  have hwhole := firstLexeme_append .code previous c rest
  rw [Follows, hmove]
  refine ⟨fun touched => ?_, ?_⟩
  · rw [visitAll_inMode, counters_enter ((mode_visitAll ..).trans hcode), counters_visitAll]
  · rw [← hwhole]
    exact List.take_left

theorem follows_comment {state : State} {outer : Nat} (hcomment : state.mode = .comment outer)
    (previous : Option Char) (c : Char) (rest : List Char) :
    Follows (state.counters.move previous c rest) state (c :: rest) (commentLexeme outer c rest) := by
  obtain ⟨mode, depth, nesting, scopes, pending, wholeFile⟩ := state
  cases hcomment
  have hopen : ((outer + 1 : Nat) : Int) ≠ 0 := by omega
  simp only [Counters.move, counters, Mode.comments, hopen, ne_eq, not_false_eq_true, ↓reduceIte,
    startsWith_cons_cons_iff, startsWith_singleton_iff, commentLexeme]
  split
  · exact ⟨fun _ => rfl, rfl⟩
  · split
    · refine ⟨fun touched => ?_, rfl⟩
      cases outer <;> simp [Lexeme.hide, visitAll, counters, inMode, Mode.comments, Mode.string?]
    · exact ⟨fun _ => rfl, rfl⟩

theorem follows_string {state : State} (hstring : state.mode = .string)
    (previous : Option Char) (c : Char) (rest : List Char) :
    Follows (state.counters.move previous c rest) state (c :: rest) (stringLexeme c rest) := by
  obtain ⟨mode, depth, nesting, scopes, pending, wholeFile⟩ := state
  cases hstring
  have hquote : startsWith ['"'] (c :: rest) = true ↔ c = '"' := by
    rw [startsWith_singleton_iff, List.head?_cons, Option.some.injEq]
  simp only [Counters.move, counters, Mode.comments, Mode.string?, Int.cast_ofNat_Int, ne_eq,
    not_true_eq_false, ↓reduceIte, true_and, hquote, stringLexeme]
  split
  · exact ⟨fun _ => rfl, rfl⟩
  · split <;> exact ⟨fun _ => rfl, rfl⟩

theorem follows_rawString {state : State} {hashes : Nat} (hraw : state.mode = .rawString hashes)
    (previous : Option Char) (c : Char) (rest : List Char) :
    Follows (state.counters.move previous c rest) state (c :: rest)
      (rawStringLexeme hashes c rest) := by
  obtain ⟨mode, depth, nesting, scopes, pending, wholeFile⟩ := state
  cases hraw
  simp only [Counters.move, counters, Mode.comments, Mode.string?, Int.cast_ofNat_Int, ne_eq,
    not_true_eq_false, ↓reduceIte, Bool.false_eq_true, false_and, startsWith_cons_cons_iff,
    rawStringLexeme]
  split
  · refine ⟨fun _ => rfl, ?_⟩
    simp [Lexeme.hide]
  · exact ⟨fun _ => rfl, rfl⟩

/-- A move takes in the piece that the tracker takes in, and comes to know the same. -/
theorem follows_move (state : State) (previous : Option Char) (c : Char) (rest : List Char) :
    Follows (state.counters.move previous c rest) state (c :: rest)
      (firstLexeme state.mode previous c rest) := by
  cases hmode : state.mode with
  | code => exact follows_code hmode previous c rest
  | string => exact follows_string hmode previous c rest
  | rawString hashes => exact follows_rawString hmode previous c rest
  | comment outer => exact follows_comment hmode previous c rest

/-- The next place is the one behind the piece that the tracker takes in. -/
theorem next_counters (state : State) (touched : Bool) (previous : Option Char) (c : Char)
    (rest : List Char) :
    let lexeme := firstLexeme state.mode previous c rest
    Counters.Point.next ⟨state.counters, previous, c :: rest⟩ =
      ⟨(visitAll (state.inMode lexeme.mode) touched lexeme.visible).1.counters, lexeme.last?,
        lexeme.rest⟩ := by
  intro lexeme
  obtain ⟨hknown, htaken⟩ := follows_move state previous c rest
  have hwhole : lexeme.visible ++ lexeme.hidden ++
      (c :: rest).drop (state.counters.move previous c rest).2 =
        lexeme.visible ++ lexeme.hidden ++ lexeme.rest := by
    rw [← htaken, List.take_append_drop, htaken]
    exact (firstLexeme_append state.mode previous c rest).symm
  have hleft : (c :: rest).drop (state.counters.move previous c rest).2 = lexeme.rest :=
    List.append_cancel_left hwhole
  simp only [Counters.Point.next, hknown touched, htaken, hleft]
  rfl

theorem counters_readAttribute (state : State) (line : Line) :
    (state.readAttribute line).counters = state.counters.readAttribute line := by
  have hcode : state.counters.string = none ∧ state.counters.comments = 0 ↔ state.mode = .code := by
    cases hmode : state.mode <;> simp [counters, hmode, Mode.string?, Mode.comments]
    omega
  unfold readAttribute Counters.readAttribute
  simp only [hcode]
  split
  · cases Attribute.meaning (trim line) with
    | test =>
        cases isInnerAttribute (trim line) <;> rfl
    | notTest => rfl
    | unrelated => rfl
  · rfl

theorem Nested.visitAll {state : State} (h : state.Nested) (touched : Bool) (text : List Char) :
    (visitAll state touched text).1.Nested := by
  induction text generalizing state touched with
  | nil => exact h
  | cons c rest ih => exact ih (h.visit c) _

theorem Nested.sound {state : State} (h : state.Nested) : state.counters.Sound := by
  obtain ⟨hbelow, hdecrease⟩ := List.pairwise_cons.mp h
  refine ⟨Int.natCast_nonneg _, Int.natCast_nonneg _, Int.natCast_nonneg _, ?_, ?_, ?_⟩
  · cases hmode : state.mode <;> simp [counters, hmode, Mode.string?, Mode.comments]
  · exact List.pairwise_map.mpr (hdecrease.imp Int.ofNat_lt.mpr)
  · exact List.forall_mem_map.mpr fun opened hopened => Int.ofNat_lt.mpr (hbelow opened hopened)

/-- What is known determines the string that is open, so the view forgets nothing. -/
theorem counters_injective {first second : State} (h : first.counters = second.counters) :
    first = second := by
  obtain ⟨mode, depth, nesting, scopes, pending, wholeFile⟩ := first
  obtain ⟨mode', depth', nesting', scopes', pending', wholeFile'⟩ := second
  simp only [counters, Counters.mk.injEq, Int.natCast_inj] at h
  obtain ⟨rfl, rfl, hcomments, hstring, hscopes, rfl, rfl⟩ := h
  have hmode : mode = mode' := by
    cases mode <;> cases mode' <;> simp_all [Mode.string?, Mode.comments]
  obtain rfl := hmode
  obtain rfl := List.map_injective_iff.mpr (fun _ _ => Int.ofNat_inj.mp) hscopes
  rfl

end State

/-! ## What is reached -/

namespace Counters

/-- The place is one to which the tracker comes with this state, on a way that leads on. -/
def Point.IsAt (point : Point) (state : State) : Prop :=
  point.counters = state.counters ∧ state.Nested ∧
    ∃ touched, (readFrom state touched point.previous point.ahead).1.Reachable

theorem readFrom_nil (state : State) (touched : Bool) (previous : Option Char) :
    readFrom state touched previous [] = (state, touched) := by
  rw [readFrom]

/-- Every place of the plain tracker is one of the tracker. -/
theorem Point.Reached.exists_isAt {point : Point} (h : point.Reached) :
    ∃ state, point.IsAt state := by
  -- on every way the tracker has the pieces in front of it that the plain one has
  induction h with
  | start => exact ⟨.start, rfl, State.nested_start, false, by rw [readFrom_nil]; exact .start⟩
  | @line k previous _ line ih =>
      obtain ⟨state, rfl, hnested, touched, hreachable⟩ := ih
      rw [readFrom_nil] at hreachable
      exact ⟨state.readAttribute line, (state.counters_readAttribute line).symm,
        hnested.readAttribute line, false, hreachable.trackLine line⟩
  | @next point _ ih =>
      obtain ⟨k, previous, ahead⟩ := point
      obtain ⟨state, rfl, hnested, touched, hreachable⟩ := ih
      cases ahead with
      | nil => exact ⟨state, rfl, hnested, touched, hreachable⟩
      | cons c rest =>
          rw [readFrom] at hreachable
          rw [state.next_counters touched previous c rest]
          have hafter : (state.inMode (firstLexeme state.mode previous c rest).mode).Nested := hnested
          exact ⟨_, rfl, hafter.visitAll _ _, _, hreachable⟩

/-- From a place the rest of the line is read. -/
theorem Point.Reached.readRest {state : State} {touched : Bool} {previous : Option Char}
    {ahead : List Char} (h : Point.Reached ⟨state.counters, previous, ahead⟩) :
    ∃ last, Point.Reached ⟨(readFrom state touched previous ahead).1.counters, last, []⟩ := by
  fun_induction readFrom state touched previous ahead with
  | case1 => exact ⟨_, h⟩
  | case2 state touched previous c rest lexeme after ih =>
      have hnext := h.next
      rw [state.next_counters touched previous c rest] at hnext
      exact ih hnext

/-- Between lines the two trackers know the same. -/
theorem reachable_iff (state : State) :
    state.Reachable ↔ ∃ previous, Point.Reached ⟨state.counters, previous, []⟩ := by
  constructor
  · intro h
    induction h with
    | start => exact ⟨none, .start⟩
    | @trackLine state _ line ih =>
        obtain ⟨previous, hreached⟩ := ih
        have hline := hreached.line line
        rw [← state.counters_readAttribute line] at hline
        exact hline.readRest
  · rintro ⟨previous, h⟩
    obtain ⟨same, hsame, _, touched, hreachable⟩ := h.exists_isAt
    rw [readFrom_nil] at hreachable
    rwa [State.counters_injective hsame]

theorem Point.Reached.sound {point : Point} (h : point.Reached) : point.counters.Sound := by
  obtain ⟨state, hsame, hnested, _⟩ := h.exists_isAt
  exact hsame ▸ hnested.sound

/-- **A closing brace ends the scope that began at the depth to which it returns.** The tracker and
the one with plain counters know the same between lines. At every place of every line no count of
the latter is negative, no string is open together with a comment, and the scopes began at smaller
and smaller depths, all below the present one. A closing brace outside literals and comments ends
one scope at most, the innermost. Nothing else on a line ends one, and it ends one exactly if the
depth returns to where that one began, which is the depth in front of the brace that opened it.
Attributes leave the scopes as they are. -/
theorem scopes_end_where_they_began :
    (∀ state : State, state.Reachable ↔ ∃ previous, Point.Reached ⟨state.counters, previous, []⟩) ∧
      ∀ point : Point, point.Reached →
        let before := point.counters
        let after := point.next.counters
        before.Sound ∧
        (point.StandsAt '}' →
          after.scopes = before.scopes ∨ ∃ opened, before.scopes = opened :: after.scopes) ∧
        (∀ opened ∈ before.scopes,
          opened ∉ after.scopes ↔ point.StandsAt '}' ∧ after.depth = opened) ∧
        (∀ opened ∈ after.scopes,
          opened ∉ before.scopes ↔
            point.StandsAt '{' ∧ before.pending ∧ before.depth = opened) ∧
        ∀ line, (before.readAttribute line).scopes = before.scopes := by
  refine ⟨reachable_iff, fun point h => ?_⟩
  intro before after
  refine ⟨h.sound, fun hcloses => ?_, fun _ => Point.not_mem_next_iff h.sound,
    fun _ => Point.not_mem_iff_of_next h.sound, before.scopes_readAttribute⟩
  have hafter : after = before.closeBrace := hcloses.next_eq (.inr rfl)
  rw [hafter]
  exact before.scopes_closeBrace

/-- A brace too many in front of the test module is ignored. On the last line the first brace goes
back to depth one and ends nothing, the second goes back to where the module began and ends it. -/
theorem scopes_end_where_they_began_of_unbalanced :
    let lines : List Line := ["\x7d".toList, "#[test]".toList, "mod checks \x7b \x7b".toList]
    let line : Line := "\x7d \x7d".toList
    let state := (State.start.trackLines lines).2
    let first : Point := ⟨state.counters.readAttribute line, none, line⟩
    let last := first.next.next
    (first.Reached ∧ first.counters.scopes = [0] ∧ first.next.counters.depth = 1 ∧
        0 ∈ first.next.counters.scopes) ∧
      last.Reached ∧ last.counters.scopes = [0] ∧ last.next.counters.depth = 0 ∧
        0 ∉ last.next.counters.scopes := by
  intro lines line state first last
  obtain ⟨hsame, hplace⟩ := scopes_end_where_they_began
  obtain ⟨previous, hbehind⟩ := (hsame state).mp (State.Reachable.start.trackLines lines)
  have hfirst : first.Reached := hbehind.line line
  have hlast : last.Reached := hfirst.next.next
  have hscopes : first.counters.scopes = [0] ∧ last.counters.scopes = [0] := by decide +kernel
  have hdepths : first.next.counters.depth = 1 ∧ last.next.counters.depth = 0 := by decide +kernel
  have hstands : last.StandsAt '}' := by
    refine ⟨⟨?_, ?_⟩, ?_⟩ <;> decide +kernel
  obtain ⟨_, _, hfirstEnds, _⟩ := hplace first hfirst
  obtain ⟨_, _, hlastEnds, _⟩ := hplace last hlast
  have hkept : 0 ∈ first.next.counters.scopes := by
    by_contra hended
    have hback := ((hfirstEnds 0 (by rw [hscopes.1]; exact List.mem_singleton_self 0)).mp hended).2
    rw [hdepths.1] at hback
    exact absurd hback (by decide)
  have hended : 0 ∉ last.next.counters.scopes :=
    (hlastEnds 0 (by rw [hscopes.2]; exact List.mem_singleton_self 0)).mpr ⟨hstands, hdepths.2⟩
  exact ⟨⟨hfirst, hscopes.1, hdepths.1, hkept⟩, hlast, hscopes.2, hdepths.2, hended⟩

end Counters

end LineCensus.Rust
