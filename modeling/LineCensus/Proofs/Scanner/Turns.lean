/-
# Reading a line comes to an end

A line with delimited comments is read in turns. A turn outside of comments goes up to the
next opener and past it, a turn inside one goes past the closer. Nothing in this says that
it ends: a turn past an empty opener leaves all the text that there was, and so does a turn
past an empty closer. `Delimiters.readOutside` ends because it makes sure of having less
text each time. This module has the turns without that check, and shows that it is never
needed as long as no block is empty at both ends. An opener and a closer are passed in
turn, so of any two turns in a row one takes text away.

The place of an opener is found by a loop as well, where not every place counts. It ends
whatever the rule for these places is, because it goes on behind each place it has tried.
-/

import LineCensus.Proofs.Scanner.BlankLines
import LineCensus.Proofs.Scanner.Indentation
import LineCensus.Proofs.Scanner.Openers

namespace LineCensus

open Text

/-! ## Loops -/

/-- What comes of one turn of a loop. -/
inductive Turn (σ ρ : Type) where
  /-- There is another turn. -/
  | goesOn (state : σ)
  /-- This was the last turn. -/
  | ends (result : ρ)

/-- A loop that ends, with the number of its turns and its result. -/
inductive EndsIn {σ ρ : Type} (turn : σ → Turn σ ρ) : Nat → σ → ρ → Prop where
  | ends {state : σ} {result : ρ} (hturn : turn state = .ends result) :
      EndsIn turn 1 state result
  | goesOn {state next : σ} {n : Nat} {result : ρ} (hturn : turn state = .goesOn next)
      (hrest : EndsIn turn n next result) : EndsIn turn (n + 1) state result

/-- A loop does not end where every turn leads on to another one. -/
theorem not_endsIn_of_goesOn {σ ρ : Type} {turn : σ → Turn σ ρ} {P : σ → Prop}
    (hloop : ∀ state, P state → ∃ next, turn state = .goesOn next ∧ P next) {state : σ}
    (hstate : P state) (n : Nat) (result : ρ) : ¬ EndsIn turn n state result := by
  intro h
  induction h with
  | ends hturn =>
      obtain ⟨next, hnext, _⟩ := hloop _ hstate
      rw [hnext] at hturn
      cases hturn
  | goesOn hturn _ ih =>
      obtain ⟨next, hnext, hP⟩ := hloop _ hstate
      rw [hnext] at hturn
      cases hturn
      exact ih hP

namespace Delimiters

/-! ## The search for an opener -/

/-- The first place of a text, from a given position on, where a piece begins. -/
def findFrom (piece text : List Char) (start : Nat) : Option Nat :=
  positionFrom? (start ≤ ·) piece text 0

/-- One turn of the search for a place that counts: the next place is tried, and if it does not
count the search goes on behind it. -/
def searchTurn (accepts : Nat → Bool) (piece text : List Char) (start : Nat) :
    Turn Nat (Option Nat) :=
  match findFrom piece text start with
  | none => .ends none
  | some position => if accepts position then .ends (some position) else .goesOn (position + 1)

theorem positionFrom?_congr {accepts others : Nat → Bool} {here : Nat}
    (h : ∀ position, here ≤ position → accepts position = others position)
    (piece text : List Char) :
    positionFrom? accepts piece text here = positionFrom? others piece text here := by
  induction text generalizing here with
  | nil => rw [positionFrom?, positionFrom?, h here (Nat.le_refl _)]
  | cons c rest ih =>
      rw [positionFrom?, positionFrom?, h here (Nat.le_refl _),
        ih fun position hle => h position (Nat.le_of_succ_le hle)]

theorem le_of_positionFrom? {accepts : Nat → Bool} {piece text : List Char} {here found : Nat}
    (h : positionFrom? accepts piece text here = some found) :
    here ≤ found ∧ found ≤ here + text.length := by
  obtain ⟨place, hplace, rfl, _⟩ := isPrefix_of_positionFrom? h
  omega

/-- The first place that counts is the first one of all, or it is found behind that one. -/
theorem positionFrom?_and (accepts : Nat → Bool) (start : Nat) (piece text : List Char)
    (here : Nat) :
    positionFrom? (fun place => decide (start ≤ place) && accepts place) piece text here =
      (positionFrom? (start ≤ ·) piece text here).bind fun first =>
        if accepts first then some first
        else positionFrom? (fun place => decide (first + 1 ≤ place) && accepts place) piece text
          here := by
  induction text generalizing here with
  | nil =>
      by_cases hhere : piece.isEmpty = true ∧ start ≤ here
      · by_cases haccepts : accepts here = true <;> simp [positionFrom?, hhere, haccepts]
      · have hnone : (piece.isEmpty && decide (start ≤ here)) = false := by simpa using hhere
        simp only [positionFrom?, ← Bool.and_assoc, hnone]
        simp
  | cons c rest ih =>
      by_cases hhere : startsWith piece (c :: rest) = true ∧ start ≤ here
      · -- the piece begins here, so what matters is whether this place counts
        by_cases haccepts : accepts here = true
        · simp [positionFrom?, hhere, haccepts]
        · have hboth (place : Nat) (hle : here + 1 ≤ place) :
              (decide (start ≤ place) && accepts place) =
                (decide (here + 1 ≤ place) && accepts place) := by
            simp [hle, hhere.2.trans (Nat.le_of_succ_le hle)]
          simp [positionFrom?, hhere, haccepts, positionFrom?_congr hboth piece rest]
      · have hnone : (startsWith piece (c :: rest) && decide (start ≤ here)) = false := by
          simpa using hhere
        simp only [positionFrom?, ← Bool.and_assoc, hnone, Bool.false_and, Bool.false_eq_true,
          ↓reduceIte, ih (here + 1)]
        refine Option.bind_congr fun first hfirst => ?_
        have hbefore : ¬ first + 1 ≤ here := by
          have := (le_of_positionFrom? hfirst).1
          omega
        simp [hbefore]

/-- The search from a given position on ends. It comes to the first place from there on that counts,
after no more turns than there are places left and one. -/
theorem endsIn_searchTurn (accepts : Nat → Bool) (piece text : List Char) (start : Nat) :
    ∃ n ≤ text.length + 1 - start + 1, EndsIn (searchTurn accepts piece text) n start
      (positionFrom? (fun place => decide (start ≤ place) && accepts place) piece text 0) := by
  induction hleft : text.length + 1 - start using Nat.strong_induction_on generalizing start with
  | _ left ih =>
  rw [positionFrom?_and]
  cases hfirst : positionFrom? (start ≤ ·) piece text 0 with
  | none => exact ⟨1, by omega, .ends (by rw [searchTurn, findFrom, hfirst]; rfl)⟩
  | some first =>
      have hstart : start ≤ first := by simpa using accepts_of_positionFrom? hfirst
      have hlast := (le_of_positionFrom? hfirst).2
      rw [Option.bind_some]
      by_cases haccepts : accepts first = true
      · refine ⟨1, by omega, .ends ?_⟩
        simp [searchTurn, findFrom, hfirst, haccepts]
      · obtain ⟨n, hn, hrest⟩ := ih (text.length + 1 - (first + 1)) (by omega) (first + 1) rfl
        rw [if_neg haccepts]
        refine ⟨n + 1, by omega, .goesOn ?_ hrest⟩
        simp [searchTurn, findFrom, hfirst, haccepts]

/-! ## The turns of a line -/

/-- Where the reading of a line has come to. -/
structure Stage where
  /-- The kind of the line up to here. -/
  kind : LineKind
  /-- The closer of the block that is open. -/
  inside : Option (List Char)
  /-- What is still to be read. -/
  ahead : List Char

/-- One turn of the reading of a line: up to the next opener and past it, or past the closer of the
block that is open. The result is the kind of the line and the closer of a block that is left
open. -/
def turn (d : Delimiters) (stage : Stage) : Turn Stage (LineKind × Option (List Char)) :=
  if stage.ahead.isEmpty then .ends (stage.kind, stage.inside)
  else match stage.inside with
  | some closer =>
    match after? closer stage.ahead with
    | none => .ends (stage.kind.withComment, some closer)
    | some rest =>
      if d.absorbs rest then .ends (stage.kind.withComment, none)
      else .goesOn ⟨stage.kind.withComment, none, rest⟩
  | none =>
    match d.firstMark? stage.ahead with
    | none => .ends (stage.kind.withCode (!isBlankText stage.ahead), none)
    | some (position, mark) =>
      let kind := (stage.kind.withCode (!isBlankText (stage.ahead.take position))).withComment
      match mark with
      | none => .ends (kind, none)
      | some block =>
        .goesOn ⟨kind, some block.closer, stage.ahead.drop (position + block.opener.length)⟩

/-- Delimiters with no block that is empty at both ends. -/
def HasBlockEnds (d : Delimiters) : Prop :=
  ∀ block ∈ d.blocks, block.opener ≠ [] ∨ block.closer ≠ []

instance : DecidablePred HasBlockEnds := fun d =>
  inferInstanceAs (Decidable (∀ block ∈ d.blocks, block.opener ≠ [] ∨ block.closer ≠ []))

variable {d : Delimiters}

/-- A turn inside a block, either with some text ahead or on a line that is a comment already. -/
theorem turn_inside {kind : LineKind} {ahead : List Char}
    (hkind : ahead = [] → kind.withComment = kind) (closer : List Char) :
    d.turn ⟨kind, some closer, ahead⟩ =
      match d.throughBlock closer ahead with
      | .stillOpen => .ends (kind.withComment, some closer)
      | .closed => .ends (kind.withComment, none)
      | .resumes rest => .goesOn ⟨kind.withComment, none, rest⟩ := by
  rw [turn, throughBlock]
  split
  · next hempty =>
      rw [hkind (List.isEmpty_iff.mp hempty)]
  · simp only [absorbs]
    cases after? closer ahead with
    | none => rfl
    | some rest =>
        by_cases habsorbs : (isBlankText rest || startsWithAny d.absorbAfterClose (trim rest)) = true
        · simp only [habsorbs, ↓reduceIte]
        · simp only [habsorbs, Bool.false_eq_true, ↓reduceIte]

/-- A turn into a block. -/
theorem turn_into_block {text : List Char} (htext : text ≠ []) {position : Nat} {block : Block}
    (hmark : d.firstMark? text = some (position, some block)) (kind : LineKind) :
    d.turn ⟨kind, none, text⟩ =
      .goesOn ⟨(kind.withCode (!isBlankText (text.take position))).withComment, some block.closer,
        text.drop (position + block.opener.length)⟩ := by
  rw [turn, if_neg (by rwa [List.isEmpty_iff])]
  simp only [hmark]

/-- A line is read on only if there is something to read, and past a closer there is less of it. -/
theorem of_throughBlock_eq_resumes {closer text rest : List Char}
    (h : d.throughBlock closer text = .resumes rest) :
    isBlankText rest = false ∧ (closer ≠ [] → rest.length < text.length) := by
  rw [throughBlock] at h
  split at h
  · cases h
  · next hempty =>
      cases hafter : after? closer text with
      | none => rw [hafter] at h; cases h
      | some beyond =>
          simp only [hafter] at h
          split at h
          · cases h
          · next habsorbs =>
              cases h
              rw [Bool.or_eq_true, not_or, Bool.not_eq_true] at habsorbs
              refine ⟨habsorbs.1, fun hcloser => ?_⟩
              obtain ⟨start, _, rfl⟩ := Option.map_eq_some_iff.mp hafter
              have htext : 0 < text.length := by
                rwa [List.length_pos_iff, Ne, ← List.isEmpty_iff]
              have hpositive := List.length_pos_iff.mpr hcloser
              rw [List.length_drop]
              omega

theorem ne_nil_of_isBlankText_eq_false {text : List Char} (h : isBlankText text = false) :
    text ≠ [] := by
  rintro rfl
  cases h

/-- Into a block and out of it again some text is read. -/
theorem HasBlockEnds.length_lt (h : d.HasBlockEnds) {text rest : List Char} (htext : text ≠ [])
    {position : Nat} {block : Block} (hmark : d.firstMark? text = some (position, some block))
    (hthrough : d.throughBlock block.closer (text.drop (position + block.opener.length)) =
      .resumes rest) : rest.length < text.length := by
  have hpositive := List.length_pos_iff.mpr htext
  have hrest := length_of_throughBlock hthrough
  rw [List.length_drop] at hrest
  rcases h block ((block_of_firstMark? hmark).2 block rfl).1 with hopener | hcloser
  · have hopener := List.length_pos_iff.mpr hopener
    omega
  · have hless := (of_throughBlock_eq_resumes hthrough).2 hcloser
    rw [List.length_drop] at hless
    omega

/-- Outside of comments the reading ends with the answer of the scanner, after at most two turns for
each character. -/
theorem HasBlockEnds.endsIn_readOutside (h : d.HasBlockEnds) (kind : LineKind) {text : List Char}
    (htext : text ≠ []) :
    ∃ n ≤ 2 * text.length, EndsIn d.turn n ⟨kind, none, text⟩ (d.readOutside kind text) := by
  fun_induction d.readOutside kind text with
  | case1 kind text hmark =>
      have hpositive := List.length_pos_iff.mpr htext
      refine ⟨1, by omega, .ends ?_⟩
      rw [turn, if_neg (by rwa [List.isEmpty_iff])]
      simp only [hmark]
  | case2 kind text position marked hmark =>
      have hpositive := List.length_pos_iff.mpr htext
      refine ⟨1, by omega, .ends ?_⟩
      rw [turn, if_neg (by rwa [List.isEmpty_iff])]
      simp only [hmark]
      rfl
  | case3 kind text position _ block hthrough hmark
  | case4 kind text position _ block hthrough hmark =>
      have hpositive := List.length_pos_iff.mpr htext
      refine ⟨2, by omega, .goesOn (turn_into_block htext hmark kind) (.ends ?_)⟩
      rw [turn_inside fun _ => rfl, hthrough]
      rfl
  | case5 kind text position marked block rest hthrough hshorter hmark ih =>
      have hrest := ne_nil_of_isBlankText_eq_false (of_throughBlock_eq_resumes hthrough).1
      obtain ⟨n, hn, hturns⟩ := ih hrest
      have hleaves : d.turn ⟨marked, some block.closer,
          text.drop (position + block.opener.length)⟩ = .goesOn ⟨marked, none, rest⟩ := by
        rw [turn_inside fun _ => rfl, hthrough]
        rfl
      exact ⟨n + 2, by omega, .goesOn (turn_into_block htext hmark kind) (.goesOn hleaves hturns)⟩
  | case6 kind text position _ block rest hthrough hlonger hmark =>
      exact absurd (h.length_lt htext hmark hthrough) hlonger

/-- A line that is not blank is read to its end from wherever it begins. -/
theorem HasBlockEnds.endsIn_readLine (h : d.HasBlockEnds) (inside : Option (List Char)) {line : Line}
    (hline : isBlankText line = false) :
    ∃ n ≤ 2 * line.length + 1,
      EndsIn d.turn n ⟨.unclassified, inside, line⟩ (d.readLine inside line) := by
  cases inside with
  | none =>
      obtain ⟨n, hn, hturns⟩ :=
        h.endsIn_readOutside .unclassified (ne_nil_of_isBlankText_eq_false hline)
      exact ⟨n, by omega, hturns⟩
  | some closer =>
      have hne := ne_nil_of_isBlankText_eq_false hline
      have hfirst := @turn_inside d .unclassified line (fun hempty => absurd hempty hne) closer
      rw [readLine]
      cases hthrough : d.throughBlock closer line with
      | stillOpen => exact ⟨1, by omega, .ends (by rw [hfirst, hthrough]; rfl)⟩
      | closed => exact ⟨1, by omega, .ends (by rw [hfirst, hthrough]; rfl)⟩
      | resumes rest =>
          have hrest := ne_nil_of_isBlankText_eq_false (of_throughBlock_eq_resumes hthrough).1
          have hlength := length_of_throughBlock hthrough
          obtain ⟨n, hn, hturns⟩ := h.endsIn_readOutside .commentLine hrest
          exact ⟨n + 1, by omega, .goesOn (by rw [hfirst, hthrough]; rfl) hturns⟩

/-! ## Files -/

/-- The kinds of lines that are read turn by turn, with the number of turns that this takes.
`inside` is the closer of the block that is open in front of them. -/
inductive ReadsIn (d : Delimiters) : Option (List Char) → List Line → Nat → List LineKind → Prop where
  | nil {inside : Option (List Char)} : ReadsIn d inside [] 0 []
  | blank {inside : Option (List Char)} {line : Line} {rest : List Line} {n : Nat}
      {kinds : List LineKind} (hline : isBlankText line = true)
      (hrest : ReadsIn d inside rest n kinds) :
      ReadsIn d inside (line :: rest) n (.blankLine :: kinds)
  | whole {line : Line} {rest : List Line} {n : Nat} {kind : LineKind} {kinds : List LineKind}
      (hline : isBlankText line = false) (hwhole : d.wholeLine (trim line) = some kind)
      (hrest : ReadsIn d none rest n kinds) : ReadsIn d none (line :: rest) n (kind :: kinds)
  | turns {inside after : Option (List Char)} {line : Line} {rest : List Line} {m n : Nat}
      {kind : LineKind} {kinds : List LineKind} (hline : isBlankText line = false)
      (hwhole : inside = none → d.wholeLine (trim line) = none)
      (hturns : EndsIn d.turn m ⟨.unclassified, inside, line⟩ (kind, after))
      (hrest : ReadsIn d after rest n kinds) :
      ReadsIn d inside (line :: rest) (m + n) (kind :: kinds)

/-- The most turns that lines can take: two for each character and one for each line. -/
def turnLimit : List Line → Nat
  | [] => 0
  | line :: rest => 2 * line.length + 1 + turnLimit rest

/-- A line that is not blank is decided as a whole, or it is read. -/
theorem advance_of_not_blank {line : Line} (hline : isBlankText line = false)
    (inside : (Scanner.delimited d).State) :
    (∃ kind, inside = none ∧ d.wholeLine (trim line) = some kind ∧
      (Scanner.delimited d).advance inside line = (kind, none)) ∨
    ((inside = none → d.wholeLine (trim line) = none) ∧
      (Scanner.delimited d).advance inside line = d.readLine inside line) := by
  have hadvance : (Scanner.delimited d).advance inside line =
      (Scanner.delimited d).step inside line := if_neg (by rw [hline]; decide)
  rw [hadvance]
  cases inside with
  | some closer => exact .inr ⟨nofun, rfl⟩
  | none =>
      cases hwhole : d.wholeLine (trim line) with
      | some kind => exact .inl ⟨kind, rfl, rfl, by simp only [Scanner.delimited, hwhole]⟩
      | none => exact .inr ⟨fun _ => rfl, by simp only [Scanner.delimited, hwhole]⟩

theorem HasBlockEnds.readsIn_run (h : d.HasBlockEnds) (inside : (Scanner.delimited d).State)
    (lines : List Line) :
    ∃ n ≤ turnLimit lines, d.ReadsIn inside lines n ((Scanner.delimited d).run inside lines).1 := by
  induction lines generalizing inside with
  | nil => exact ⟨0, Nat.le_refl 0, .nil⟩
  | cons line rest ih =>
      rw [Scanner.run_cons, turnLimit]
      cases hline : isBlankText line with
      | true =>
          obtain ⟨n, hn, hreads⟩ := ih inside
          rw [Scanner.advance_of_isBlankText _ hline]
          exact ⟨n, by omega, .blank hline hreads⟩
      | false =>
          rcases advance_of_not_blank hline inside with
            ⟨kind, rfl, hwhole, hadvance⟩ | ⟨hwhole, hadvance⟩
          · obtain ⟨n, hn, hreads⟩ := ih none
            rw [hadvance]
            exact ⟨n, by omega, .whole hline hwhole hreads⟩
          · obtain ⟨m, hm, hturns⟩ := h.endsIn_readLine inside hline
            obtain ⟨n, hn, hreads⟩ := ih (d.readLine inside line).2
            rw [hadvance]
            exact ⟨m + n, by omega, .turns hline hwhole hturns hreads⟩

/-- **Reading delimited comments comes to an end.** Let no block be empty at both ends. Then the
search for the place of an opener ends, by whatever rule places count, and so does the reading of
every line of a file, turn by turn, whatever else the delimiters are. The kinds are those that the
scanner gives. A line takes no more turns than two for each of its characters and one. -/
theorem classify_endsIn (d : Delimiters) (h : d.HasBlockEnds) :
    (∀ opener text, ∃ n ≤ text.length + 2,
      EndsIn (searchTurn (d.opensAt text · opener) opener text) n 0
        (positionFrom? (d.opensAt text · opener) opener text 0)) ∧
    ∀ lines, ∃ n ≤ turnLimit lines,
      d.ReadsIn none lines n ((Scanner.delimited d).classify lines) := by
  refine ⟨fun opener text => ?_, fun lines => ?_⟩
  · obtain ⟨n, hn, hturns⟩ := endsIn_searchTurn (d.opensAt text · opener) opener text 0
    refine ⟨n, by omega, ?_⟩
    simpa using hturns
  · obtain ⟨n, hn, hreads⟩ := h.readsIn_run none lines
    refine ⟨n, hn, ?_⟩
    rw [Scanner.classify_eq_run rfl rfl]
    exact hreads

/-- One block with an empty opener and one with an empty closer, where an opener counts at every other
place only. -/
theorem classify_endsIn_of_empty_ends :
    let d : Delimiters :=
      { blocks := [⟨[], ['.']⟩, ⟨['<'], []⟩], opensAt := fun _ position _ => position % 2 == 1 }
    let lines : List Line := ["a. b".toList, " ".toList, "c.<d".toList]
    d.HasBlockEnds ∧
    (∃ n ≤ 5, EndsIn (searchTurn (d.opensAt "c.<".toList · ['<']) ['<'] "c.<".toList) n 0 none) ∧
    ∃ n ≤ turnLimit lines, d.ReadsIn none lines n [.mixedLine, .blankLine, .mixedLine] := by
  intro d lines
  have hends : d.HasBlockEnds := by decide
  obtain ⟨hsearch, hreads⟩ := classify_endsIn d hends
  have hplace : positionFrom? (d.opensAt "c.<".toList · ['<']) ['<'] "c.<".toList 0 = none := by
    decide +kernel
  have hkinds : (Scanner.delimited d).classify lines = [.mixedLine, .blankLine, .mixedLine] := by
    decide +kernel
  refine ⟨hends, ?_, ?_⟩
  · rw [← hplace]
    exact hsearch ['<'] "c.<".toList
  · rw [← hkinds]
    exact hreads lines

/-- A block that is empty at both ends is entered and left for ever. -/
theorem not_endsIn_of_empty_block {others : List Block} (hblocks : d.blocks = ⟨[], []⟩ :: others)
    (hopens : ∀ text, d.opensAt text 0 [] = true) (hnothing : d.absorbAfterClose = [])
    {line : Line} (hline : isBlankText line = false) (kind : LineKind) (n : Nat)
    (answer : LineKind × Option (List Char)) :
    ¬ EndsIn d.turn n ⟨kind, none, line⟩ answer := by
  obtain ⟨c, rest, rfl⟩ := List.exists_cons_of_ne_nil (ne_nil_of_isBlankText_eq_false hline)
  have hmark : d.firstMark? (c :: rest) = some (0, some ⟨[], []⟩) := by
    have hhere : d.markBehind? [] (c :: rest) = some (some ⟨[], []⟩) := by
      simp [markBehind?, marks, hblocks, counts, hopens, startsWith]
    rw [firstMark?_eq_firstMarkBehind?, firstMarkBehind?_cons, hhere]
    rfl
  have hthrough : d.throughBlock [] (c :: rest) = .resumes (c :: rest) := by
    have habsorbs : d.absorbs (c :: rest) = false := by
      rw [absorbs, hline, hnothing]
      rfl
    rw [throughBlock_cons, List.length_nil, List.drop_zero, habsorbs]
    rfl
  -- every turn leads into the block or out of it, with the same text ahead
  refine not_endsIn_of_goesOn (P := fun stage =>
    stage.ahead = c :: rest ∧ (stage.inside = none ∨ stage.inside = some [])) ?_
    ⟨rfl, .inl rfl⟩ n answer
  rintro ⟨kind, inside, ahead⟩ ⟨rfl, rfl | rfl⟩
  · exact ⟨_, turn_into_block (List.cons_ne_nil c rest) hmark kind, rfl, .inr rfl⟩
  · refine ⟨⟨kind.withComment, none, c :: rest⟩, ?_, rfl, .inl rfl⟩
    rw [turn_inside fun hnil => absurd hnil (List.cons_ne_nil c rest), hthrough]

end Delimiters

end LineCensus
