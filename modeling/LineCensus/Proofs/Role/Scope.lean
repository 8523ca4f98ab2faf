/-
# Test scopes

What the tracker knows about the braces of a file is a depth and the depths at which
the open test scopes began. Two facts about them carry all that is said about blocks:

* in every state that a file leads to, the scopes began at smaller and smaller depths,
  all below the present one, so a closing brace ends at most the innermost scope, and
* a stretch of lines that closes only braces of its own is tracked inside a block as it
  is tracked by itself. The block adds its depth and its scopes, and that is all.

The second one is about the lines between two braces whatever is around them, so it is
stated for two states, the one of the lines by themselves and the one of the block.
-/

import LineCensus.Proofs.Role.Mask

namespace LineCensus.Rust

open Text

/-! ## What the tracker meets -/

/-- The characters of a text, each with what is known before it. -/
def visits (state : State) : List Char → List (State × Char)
  | [] => []
  | c :: rest => (state, c) :: visits (state.visit c) rest

namespace State

/-- The characters that the tracker meets on a line, each with what is known before it. Those in
literals and comments have become spaces. -/
def meetsOn (state : State) (line : Line) : List (State × Char) :=
  visits ((state.readAttribute line).inMode .code) (state.mode.mask line).1

/-- The characters that the tracker meets on lines, each with what is known before it. -/
def meets (state : State) : List Line → List (State × Char)
  | [] => []
  | line :: rest => state.meetsOn line ++ (state.trackLine line).2.meets rest

/-- No closing brace on these lines is met when no brace is open. -/
def ClosesOnlyOpen (state : State) (lines : List Line) : Prop :=
  ∀ met ∈ state.meets lines, met.2 = '}' → 0 < met.1.depth

end State

/-- Lines that are tracked in two portions. -/
theorem trackLines_append (state : State) (first second : List Line) :
    state.trackLines (first ++ second) =
      ((state.trackLines first).1 ++ ((state.trackLines first).2.trackLines second).1,
        ((state.trackLines first).2.trackLines second).2) := by
  induction first generalizing state with
  | nil => rfl
  | cons line rest ih => simp [trackLines_cons, ih]

/-- A property that each character and each attribute preserve is preserved by lines. -/
theorem trackLine_preserves {P : State → Prop} {state : State} {line : Line}
    (hmode : ∀ state mode, P state → P (state.inMode mode))
    (hattribute : ∀ state line, P state → P (state.readAttribute line))
    (hvisit : ∀ state c, P state → P (state.visit c)) (h : P state) :
    P (state.trackLine line).2 := by
  have hall (text : List Char) : ∀ (state : State) (touched : Bool), P state →
      P (visitAll state touched text).1 := by
    induction text with
    | nil => exact fun _ _ h => h
    | cons c rest ih => exact fun state _ h => ih _ _ (hvisit state c h)
  rw [State.trackLine_eq]
  exact hmode _ _ (hall _ _ _ (hmode _ _ (hattribute _ _ h)))

/-! ## Scopes are nested -/

namespace State

/-- The scopes began at smaller and smaller depths, all of them below the present one. -/
def Nested (state : State) : Prop :=
  (state.depth :: state.scopes).Pairwise (· > ·)

/-- No scope ends as long as the depth does not fall below the present one. -/
def KeepsScopes (state : State) : Prop :=
  ∀ opened ∈ state.scopes.head?, opened < state.depth

theorem nested_start : start.Nested := List.pairwise_singleton _ _

/-- The innermost scope began below the present depth, so it lasts as long as that is kept. -/
theorem Nested.keepsScopes {state : State} (h : state.Nested) : state.KeepsScopes :=
  fun opened hopened => (List.pairwise_cons.mp h).1 opened (List.mem_of_head? hopened)

theorem Nested.openBrace {state : State} (h : state.Nested) : state.openBrace.Nested := by
  obtain ⟨hbelow, hscopes⟩ := List.pairwise_cons.mp h
  have hdeeper : ∀ opened ∈ state.scopes, state.depth + 1 > opened :=
    fun opened hopened => Nat.lt_succ_of_lt (hbelow opened hopened)
  unfold State.openBrace
  split
  · refine List.pairwise_cons.mpr ⟨?_, h⟩
    exact List.forall_mem_cons.mpr ⟨Nat.lt_succ_self _, hdeeper⟩
  · exact List.pairwise_cons.mpr ⟨hdeeper, hscopes⟩

theorem Nested.closeBrace {state : State} (h : state.Nested) : state.closeBrace.Nested := by
  obtain ⟨mode, depth, nesting, scopes, pending, wholeFile⟩ := state
  cases scopes with
  | nil => exact List.pairwise_singleton _ _
  | cons opened outer =>
      simp only [Nested, List.pairwise_cons, List.forall_mem_cons] at h
      obtain ⟨⟨hopened, _⟩, houter, hscopes⟩ := h
      by_cases hends : depth - 1 ≤ opened
      · -- the scope ends, and the depth is back where it began
        have hback : depth - 1 = opened := by omega
        simpa [State.closeBrace, endsScope, Nested, hends, hback] using ⟨houter, hscopes⟩
      · simp only [State.closeBrace, endsScope, Nested, List.head?_cons, Option.any_some, hends,
          decide_false, Bool.false_eq_true, ↓reduceIte, List.pairwise_cons, List.forall_mem_cons]
        refine ⟨⟨by omega, fun other hother => ?_⟩, houter, hscopes⟩
        have := houter other hother
        omega

theorem Nested.visit {state : State} (h : state.Nested) (c : Char) : (state.visit c).Nested := by
  unfold State.visit
  split
  · exact h.openBrace
  · exact h.closeBrace
  all_goals exact h

theorem Nested.readAttribute {state : State} (h : state.Nested) (line : Line) :
    (state.readAttribute line).Nested := by
  unfold State.readAttribute
  split
  · split
    · split <;> exact h
    · exact h
    · exact h
  · exact h

theorem Nested.trackLine {state : State} (h : state.Nested) (line : Line) :
    (state.trackLine line).2.Nested :=
  trackLine_preserves (fun _ _ h => h) (fun _ line h => h.readAttribute line)
    (fun _ c h => h.visit c) h

/-- What the tracker can know between two lines of some file. -/
inductive Reachable : State → Prop
  | start : Reachable start
  | trackLine {state : State} (h : Reachable state) (line : Line) :
      Reachable (state.trackLine line).2

theorem Reachable.trackLines {state : State} (h : state.Reachable) (lines : List Line) :
    (state.trackLines lines).2.Reachable := by
  induction lines generalizing state with
  | nil => exact h
  | cons line rest ih =>
      rw [trackLines_cons]
      exact ih (h.trackLine line)

/-- Scopes are nested whatever the lines of the file are. -/
theorem Reachable.nested {state : State} (h : state.Reachable) : state.Nested := by
  induction h with
  | start => exact nested_start
  | trackLine _ line ih => exact ih.trackLine line

/-! ## Lines inside a block -/

/-- What is known in a block when its lines by themselves have led to `inner`. -/
def within (inner outer : State) : State :=
  { inner with
    depth := outer.depth + inner.depth
    scopes := inner.scopes.map (outer.depth + ·) ++ outer.scopes
    wholeFile := outer.wholeFile || inner.wholeFile }

/-- Before the first line of a block only the block is known. -/
theorem start_within {outer : State} (hmode : outer.mode = .code) (hnesting : outer.nesting = 0)
    (hpending : outer.pending = false) : start.within outer = outer := by
  obtain ⟨mode, depth, nesting, scopes, pending, wholeFile⟩ := outer
  cases hmode
  cases hnesting
  cases hpending
  simp [within, start]

theorem endsScope_within {inner outer : State} (houter : outer.KeepsScopes)
    (hopen : 0 < inner.depth) : (inner.within outer).endsScope = inner.endsScope := by
  cases hscopes : inner.scopes with
  | nil =>
      cases htop : outer.scopes.head? with
      | none => simp [endsScope, within, hscopes, htop]
      | some opened =>
          have := houter opened htop
          simp only [endsScope, within, hscopes, List.map_nil, List.nil_append, htop,
            Option.any_some, List.head?_nil, Option.any_none, decide_eq_false_iff_not]
          omega
  | cons opened rest =>
      simp only [endsScope, within, hscopes, List.map_cons, List.cons_append, List.head?_cons,
        Option.any_some, decide_eq_decide]
      omega

theorem closeBrace_within {inner outer : State} (houter : outer.KeepsScopes)
    (hopen : 0 < inner.depth) :
    (inner.within outer).closeBrace = inner.closeBrace.within outer := by
  have hdepth : outer.depth + inner.depth - 1 = outer.depth + (inner.depth - 1) := by omega
  have hends := endsScope_within houter hopen
  have hscopes : (if inner.endsScope then (inner.within outer).scopes.drop 1
      else (inner.within outer).scopes) = (inner.closeBrace.within outer).scopes := by
    simp only [closeBrace, within]
    split
    · next hinner =>
        -- only a scope of the lines themselves can end
        cases hinnerScopes : inner.scopes with
        | nil => simp [endsScope, hinnerScopes] at hinner
        | cons opened rest => rfl
    · rfl
  rw [closeBrace, hends, hscopes]
  simp [within, closeBrace, hdepth]

/-- A character does the same inside a block, unless it closes a brace of the block. -/
theorem visit_within {inner outer : State} (houter : outer.KeepsScopes) {c : Char}
    (hopen : c = '}' → 0 < inner.depth) :
    (inner.within outer).visit c = (inner.visit c).within outer := by
  unfold visit
  split
  · cases hpending : inner.pending <;> simp [openBrace, within, hpending, Nat.add_assoc]
  · exact closeBrace_within houter (hopen rfl)
  all_goals rfl

theorem isTestEdge_within {inner outer : State} (houter : outer.KeepsScopes) {c : Char}
    (hopen : c = '}' → 0 < inner.depth) :
    (inner.within outer).isTestEdge c = inner.isTestEdge c := by
  unfold isTestEdge
  split
  · rfl
  · exact endsScope_within houter (hopen rfl)
  all_goals rfl

theorem readAttribute_within (inner outer : State) (line : Line) :
    (inner.within outer).readAttribute line = (inner.readAttribute line).within outer := by
  unfold readAttribute
  split
  · next hmode =>
      rw [if_pos (show inner.mode = .code from hmode)]
      split
      · split
        · simp [within]
        · rfl
      · rfl
      · rfl
  · next hmode => rw [if_neg (show ¬ inner.mode = .code from hmode)]

end State

theorem visitAll_within {inner outer : State} (houter : outer.KeepsScopes) (touched : Bool)
    {text : List Char} (hopen : ∀ met ∈ visits inner text, met.2 = '}' → 0 < met.1.depth) :
    visitAll (inner.within outer) touched text =
      ((visitAll inner touched text).1.within outer, (visitAll inner touched text).2) := by
  induction text generalizing inner touched with
  | nil => rfl
  | cons c rest ih =>
      obtain ⟨hc, hrest⟩ := List.forall_mem_cons.mp hopen
      rw [visitAll, visitAll, State.visit_within houter hc, State.isTestEdge_within houter hc]
      exact ih _ hrest

namespace State

/-- A line that closes only braces of its own, or of lines before it, is tracked inside a block as
it is by itself. -/
theorem trackLine_within {inner outer : State} (houter : outer.KeepsScopes) {line : Line}
    (hopen : ∀ met ∈ inner.meetsOn line, met.2 = '}' → 0 < met.1.depth) :
    ((inner.within outer).trackLine line).2 = (inner.trackLine line).2.within outer := by
  have hvisited := @visitAll_within ((inner.readAttribute line).inMode .code) outer houter false _
    hopen
  have hstart : ((inner.readAttribute line).within outer).inMode .code =
      ((inner.readAttribute line).inMode .code).within outer := rfl
  have hmode : (inner.within outer).mode = inner.mode := rfl
  rw [trackLine_eq, trackLine_eq, readAttribute_within, hstart, hmode, hvisited]
  rfl

theorem closesOnlyOpen_cons {state : State} {line : Line} {rest : List Line}
    (h : state.ClosesOnlyOpen (line :: rest)) :
    (∀ met ∈ state.meetsOn line, met.2 = '}' → 0 < met.1.depth) ∧
      (state.trackLine line).2.ClosesOnlyOpen rest :=
  List.forall_mem_append.mp h

/-- Lines that close only braces of their own are tracked inside a block as they are by
themselves. -/
theorem trackLines_within {inner outer : State} (houter : outer.KeepsScopes) {lines : List Line}
    (hopen : inner.ClosesOnlyOpen lines) :
    ((inner.within outer).trackLines lines).2 = (inner.trackLines lines).2.within outer := by
  induction lines generalizing inner with
  | nil => rfl
  | cons line rest ih =>
      obtain ⟨hline, hrest⟩ := closesOnlyOpen_cons hopen
      rw [trackLines_cons, trackLines_cons, trackLine_within houter hline]
      exact ih hrest

/-- A line that begins in a test scope is a test. -/
theorem trackLine_of_scopes {state : State} (h : state.scopes ≠ []) (line : Line) :
    (state.trackLine line).1 = .test := by
  simp [trackLine_eq, h]

/-- In a test scope lines that close only braces of their own are all tests. -/
theorem roles_within {inner outer : State} (houter : outer.KeepsScopes)
    (hscopes : outer.scopes ≠ []) {lines : List Line} (hopen : inner.ClosesOnlyOpen lines) :
    ((inner.within outer).trackLines lines).1 = List.replicate lines.length .test := by
  induction lines generalizing inner with
  | nil => rfl
  | cons line rest ih =>
      obtain ⟨hline, hrest⟩ := closesOnlyOpen_cons hopen
      have hopened : (inner.within outer).scopes ≠ [] :=
        List.append_ne_nil_of_right_ne_nil _ hscopes
      rw [trackLines_cons, trackLine_of_scopes hopened, trackLine_within houter hline, ih hrest]
      rfl

end State

end LineCensus.Rust
