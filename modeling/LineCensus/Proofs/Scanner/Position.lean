/-
# Delimited comments, one position at a time

The scanner for delimited comments jumps from mark to mark: it searches the rest of a
line for each of its marks and goes on behind the foremost one. This module gives the
plain reading that the search is meant to save work on. It stands at one position,
tries every mark there in declared order, and otherwise moves on by one character.

Both readings agree, for whole files and from any carried state, as long as line markers
and openers are not empty and an opener counts wherever it stands. Nothing is asked of
closers, nor of the texts that keep the rest of a line in the comment before it.
-/

import LineCensus.Proofs.Scanner.Classification

namespace LineCensus

open Text

namespace Scanner

/-- Adds the kind of one more line to those found so far. -/
def addLine (scanner : Scanner) (found : List LineKind × scanner.State) (line : Line) :
    List LineKind × scanner.State :=
  (found.1 ++ [(scanner.advance found.2 line).1], (scanner.advance found.2 line).2)

/-- To read lines is to add them one by one. -/
theorem foldl_addLine (scanner : Scanner) (kinds : List LineKind) (state : scanner.State)
    (lines : List Line) :
    lines.foldl scanner.addLine (kinds, state) =
      (kinds ++ (scanner.run state lines).1, (scanner.run state lines).2) := by
  induction lines generalizing kinds state with
  | nil => simp
  | cons line rest ih => simp [addLine, ih, run_cons]

/-- A scanner without rules for the start of a file reads it line by line. -/
theorem classify_eq_run {scanner : Scanner} (hknown : scanner.recognizes = fun _ => true)
    (hshebang : scanner.shebangIsCode = false) (lines : List Line) :
    scanner.classify lines = (scanner.run scanner.start lines).1 := by
  cases lines <;> simp [classify, hknown, hshebang]

end Scanner

namespace Delimiters

variable {d : Delimiters}

/-! ## The reading by position -/

/-- What a reader outside every block looks out for, in the order in which it is tried, with the
block that it opens or none for a line comment. -/
def marks (d : Delimiters) : List (List Char × Option Block) :=
  d.blocks.map (fun block => (block.opener, some block)) ++ d.lineMarkers.map (·, none)

/-- The first of the marks that a text begins with. -/
def markAt? (d : Delimiters) (text : List Char) : Option (Option Block) :=
  (d.marks.find? fun mark => startsWith mark.1 text).map (·.2)

/-- Whether nothing of the text behind a closer is read. -/
def absorbs (d : Delimiters) (text : List Char) : Bool :=
  isBlankText text || startsWithAny d.absorbAfterClose (trim text)

/-- Reads text from its first position on. `inside` is the closer of the block that is open there,
and `kind` is that of the line up to there. -/
def readByPosition (d : Delimiters) (kind : LineKind) (inside : Option (List Char))
    (text : List Char) : LineKind × Option (List Char) :=
  match inside, text with
  | inside, [] => (kind, inside)
  | some closer, c :: rest =>
    if startsWith closer (c :: rest) then
      if d.absorbs ((c :: rest).drop closer.length) then (kind.withComment, none)
      else d.readByPosition kind.withComment none ((c :: rest).drop closer.length)
    else d.readByPosition kind.withComment (some closer) rest
  | none, c :: rest =>
    match d.markAt? (c :: rest) with
    -- the opener is at hand, so all of it that is left to skip is behind `c`
    | some (some block) =>
      d.readByPosition kind.withComment (some block.closer) (rest.drop (block.opener.length - 1))
    | some none => (kind.withComment, none)
    | none => d.readByPosition (kind.withCode (!isBlank c)) none rest
-- a closer may be empty, so leaving a block has to count as progress by itself
termination_by 2 * text.length + inside.toList.length
decreasing_by all_goals (simp; try omega)

/-- Adds the kind of one more line to those found so far. A blank line is passed over. -/
def stepByPosition (d : Delimiters) (found : List LineKind × Option (List Char)) (line : Line) :
    List LineKind × Option (List Char) :=
  if isBlankText line then (found.1 ++ [.blankLine], found.2)
  else
    let (kind, inside) := d.readByPosition .unclassified found.2 line
    (found.1 ++ [kind], inside)

/-! ## The foremost mark -/

theorem mem_of_foremost? {α : Type} {marks : List (Nat × α)} {mark : Nat × α}
    (h : foremost? marks = some mark) : mark ∈ marks := by
  induction marks with
  | nil => cases h
  | cons first others ih =>
      rw [foremost?] at h
      split at h
      · cases h
        exact List.mem_cons_self
      · next other hother =>
          split at h
          · cases h
            exact List.mem_cons_of_mem _ (ih hother)
          · cases h
            exact List.mem_cons_self

/-- Where each of several marks occurs first, if it occurs. -/
def occurrencesOf {α : Type} (marks : List (List Char × α)) (text : List Char) : List (Nat × α) :=
  marks.filterMap fun mark => (position? mark.1 text).map (·, mark.2)

theorem occurrencesOf_cons {α : Type} (mark : List Char × α) (others : List (List Char × α))
    (text : List Char) :
    occurrencesOf (mark :: others) text =
      match position? mark.1 text with
      | some position => (position, mark.2) :: occurrencesOf others text
      | none => occurrencesOf others text := by
  simp only [occurrencesOf, List.filterMap_cons]
  cases position? mark.1 text <;> rfl

/-- A mark whose position is counted from one character earlier. -/
def later {α : Type} (mark : Nat × α) : Nat × α := (mark.1 + 1, mark.2)

/-- Of the marks in a text that begins with one of them, the first such mark is foremost. Otherwise
the foremost one is that of the text after its first character. -/
theorem foremost?_occurrencesOf_cons {α : Type} (marks : List (List Char × α)) (c : Char)
    (rest : List Char) :
    foremost? (occurrencesOf marks (c :: rest)) =
      match marks.find? fun mark => startsWith mark.1 (c :: rest) with
      | some mark => some (0, mark.2)
      | none => (foremost? (occurrencesOf marks rest)).map later := by
  induction marks with
  | nil => rfl
  | cons mark others ih =>
      rw [occurrencesOf_cons, occurrencesOf_cons, List.find?_cons, position?_cons]
      cases startsWith mark.1 (c :: rest) with
      | true =>
          -- nothing is further to the front than the start
          simp only [↓reduceIte, foremost?, Nat.not_lt_zero]
          split <;> rfl
      | false =>
          simp only [Bool.false_eq_true, ↓reduceIte]
          cases position? mark.1 rest with
          | none => exact ih
          | some position =>
              simp only [Option.map_some, foremost?, ih]
              cases others.find? fun mark => startsWith mark.1 (c :: rest) with
              | some first => simp
              | none =>
                  cases foremost? (occurrencesOf others rest) with
                  | none => rfl
                  | some other =>
                      simp only [Option.map_some, later, Nat.add_lt_add_iff_right]
                      split <;> rfl

/-- Delimiters with something to look for: no line marker and no opener is empty. -/
structure HasMarks (d : Delimiters) : Prop where
  lineMarker_ne_nil : ∀ marker ∈ d.lineMarkers, marker ≠ []
  opener_ne_nil : ∀ block ∈ d.blocks, block.opener ≠ []

/-- A mark that opens a block is the opener of one that is declared. -/
theorem mem_blocks_of_mem_marks {mark : List Char × Option Block} (hmark : mark ∈ d.marks)
    {block : Block} (hblock : mark.2 = some block) : block ∈ d.blocks ∧ mark.1 = block.opener := by
  rcases List.mem_append.mp hmark with hopener | hmarker
  · obtain ⟨declared, hdeclared, rfl⟩ := List.mem_map.mp hopener
    cases hblock
    exact ⟨hdeclared, rfl⟩
  · obtain ⟨marker, _, rfl⟩ := List.mem_map.mp hmarker
    cases hblock

namespace HasMarks

variable (h : d.HasMarks)

include h

theorem mark_ne_nil {mark : List Char × Option Block} (hmark : mark ∈ d.marks) : mark.1 ≠ [] := by
  rcases List.mem_append.mp hmark with hopener | hmarker
  · obtain ⟨block, hblock, rfl⟩ := List.mem_map.mp hopener
    exact h.opener_ne_nil block hblock
  · obtain ⟨marker, hdeclared, rfl⟩ := List.mem_map.mp hmarker
    exact h.lineMarker_ne_nil marker hdeclared

theorem opener_ne_nil_of_mem {mark : List Char × Option Block} (hmark : mark ∈ d.marks)
    {block : Block} (hblock : mark.2 = some block) : block.opener ≠ [] :=
  h.opener_ne_nil block (mem_blocks_of_mem_marks hmark hblock).1

end HasMarks

/-- Delimiters of which every opener counts wherever it stands, and no line marker and no opener is
empty. -/
structure IsPlain (d : Delimiters) : Prop where
  opensAt : ∀ text position opener, d.opensAt text position opener = true
  lineMarker_ne_nil : ∀ marker ∈ d.lineMarkers, marker ≠ []
  opener_ne_nil : ∀ block ∈ d.blocks, block.opener ≠ []

namespace IsPlain

theorem hasMarks (h : d.IsPlain) : d.HasMarks :=
  ⟨h.lineMarker_ne_nil, h.opener_ne_nil⟩

/-- A block that is opened somewhere is one of those that are declared. -/
theorem opener_ne_nil_of_markAt? (h : d.IsPlain) {text : List Char} {block : Block}
    (hmark : d.markAt? text = some (some block)) : block.opener ≠ [] := by
  obtain ⟨mark, hfound, hblock⟩ := Option.map_eq_some_iff.mp hmark
  exact h.hasMarks.opener_ne_nil_of_mem (List.mem_of_find?_eq_some hfound) hblock

theorem firstMark?_eq (h : d.IsPlain) (text : List Char) :
    d.firstMark? text = foremost? (occurrencesOf d.marks text) := by
  simp only [firstMark?, occurrencesOf, marks, List.filterMap_append, List.filterMap_map, h.opensAt]
  rfl

theorem firstMark?_nil (h : d.IsPlain) : d.firstMark? [] = none := by
  rw [h.firstMark?_eq]
  have hnowhere : occurrencesOf d.marks [] = [] := by
    refine List.filterMap_eq_nil_iff.mpr fun mark hmark => ?_
    rw [position?_nil (h.hasMarks.mark_ne_nil hmark), Option.map_none]
  rw [hnowhere]
  rfl

theorem firstMark?_cons (h : d.IsPlain) (c : Char) (rest : List Char) :
    d.firstMark? (c :: rest) =
      match d.markAt? (c :: rest) with
      | some mark => some (0, mark)
      | none => (d.firstMark? rest).map later := by
  rw [h.firstMark?_eq, h.firstMark?_eq, foremost?_occurrencesOf_cons, markAt?]
  cases d.marks.find? fun mark => startsWith mark.1 (c :: rest) <;> rfl

theorem opener_ne_nil_of_firstMark? (h : d.IsPlain) {text : List Char} {position : Nat}
    {block : Block} (hmark : d.firstMark? text = some (position, some block)) :
    block.opener ≠ [] := by
  induction text generalizing position with
  | nil => simp [h.firstMark?_nil] at hmark
  | cons c rest ih =>
      rw [h.firstMark?_cons] at hmark
      cases hat : d.markAt? (c :: rest) with
      | some mark =>
          simp only [hat, Option.some.injEq, Prod.mk.injEq] at hmark
          obtain ⟨_, rfl⟩ := hmark
          exact h.opener_ne_nil_of_markAt? hat
      | none =>
          simp only [hat, Option.map_eq_some_iff] at hmark
          obtain ⟨⟨found, mark⟩, hfound, heq⟩ := hmark
          cases heq
          exact ih hfound

/-- Behind an opener there is less left to read than in front of it. -/
theorem length_behind_opener (h : d.IsPlain) {text : List Char} {position : Nat} {block : Block}
    (hmark : d.firstMark? text = some (position, some block)) :
    (text.drop (position + block.opener.length)).length < text.length := by
  have hopener : 0 < block.opener.length :=
    List.length_pos_iff.mpr (h.opener_ne_nil_of_firstMark? hmark)
  have htext : 0 < text.length := by
    refine List.length_pos_iff.mpr ?_
    rintro rfl
    simp [h.firstMark?_nil] at hmark
  rw [List.length_drop]
  omega

end IsPlain

/-! ## Both readings of a line -/

theorem withCode_withCode (kind : LineKind) (first second : Bool) :
    (kind.withCode first).withCode second = kind.withCode (first || second) := by
  simp [LineKind.withCode, Bool.or_assoc]

theorem not_isBlankText_cons (c : Char) (text : List Char) :
    (!isBlankText (c :: text)) = (!isBlank c || !isBlankText text) := by
  simp [isBlankText]

/-- Outside every block the positions in front of the foremost mark only tell whether there is
code. -/
theorem readByPosition_none (h : d.IsPlain) (kind : LineKind) (text : List Char) :
    d.readByPosition kind none text =
      match d.firstMark? text with
      | none => (kind.withCode (!isBlankText text), none)
      | some (position, none) =>
        ((kind.withCode (!isBlankText (text.take position))).withComment, none)
      | some (position, some block) =>
        d.readByPosition (kind.withCode (!isBlankText (text.take position))).withComment
          (some block.closer) (text.drop (position + block.opener.length)) := by
  induction text generalizing kind with
  | nil =>
      rw [h.firstMark?_nil, readByPosition]
      simp [LineKind.withCode, isBlankText]
  | cons c rest ih =>
      rw [readByPosition, h.firstMark?_cons]
      cases hmark : d.markAt? (c :: rest) with
      | some mark =>
          have hkind : kind.withCode (!isBlankText []) = kind := by
            simp [LineKind.withCode, isBlankText]
          cases mark with
          | none => simp only [List.take_zero, hkind]
          | some block =>
              have hopener : 0 < block.opener.length :=
                List.length_pos_iff.mpr (h.opener_ne_nil_of_markAt? hmark)
              obtain ⟨more, hmore⟩ := Nat.exists_eq_add_one.mpr hopener
              simp only [List.take_zero, hkind, hmore, Nat.zero_add, List.drop_succ_cons,
                Nat.add_sub_cancel]
      | none =>
          simp only [ih]
          cases d.firstMark? rest with
          | none =>
              simp only [Option.map_none, withCode_withCode, not_isBlankText_cons]
          | some found =>
              obtain ⟨position, mark⟩ := found
              cases mark with
              | none =>
                  simp only [Option.map_some, later, List.take_succ_cons, withCode_withCode,
                    not_isBlankText_cons]
              | some block =>
                  have hbeyond : position + 1 + block.opener.length =
                      position + block.opener.length + 1 := by omega
                  simp only [Option.map_some, later, hbeyond, List.take_succ_cons,
                    List.drop_succ_cons, withCode_withCode, not_isBlankText_cons]

/-- A block is looked through for its end from the first position on. -/
theorem throughBlock_cons (d : Delimiters) (closer : List Char) (c : Char) (rest : List Char) :
    d.throughBlock closer (c :: rest) =
      if startsWith closer (c :: rest) then
        if d.absorbs ((c :: rest).drop closer.length) then .closed
        else .resumes ((c :: rest).drop closer.length)
      else d.throughBlock closer rest := by
  simp only [throughBlock, List.isEmpty_cons, Bool.false_eq_true, ↓reduceIte, after?_cons]
  cases hcloser : startsWith closer (c :: rest) with
  | true => rfl
  | false =>
      simp only [Bool.false_eq_true, ↓reduceIte]
      cases rest with
      | nil =>
          have hne : closer ≠ [] := by
            rintro rfl
            cases hcloser
          simp [after?, position?_nil hne]
      | cons next rest => rfl

/-- Inside a block the positions in front of its closer tell nothing. -/
theorem readByPosition_some (d : Delimiters) {kind : LineKind} (hkind : kind.withComment = kind)
    (closer text : List Char) :
    d.readByPosition kind (some closer) text =
      match d.throughBlock closer text with
      | .stillOpen => (kind, some closer)
      | .closed => (kind, none)
      | .resumes rest => d.readByPosition kind none rest := by
  induction text with
  | nil => rw [readByPosition]; rfl
  | cons c rest ih =>
      rw [readByPosition, throughBlock_cons, hkind]
      split
      · cases d.absorbs ((c :: rest).drop closer.length) <;> rfl
      · exact ih

theorem length_of_throughBlock {closer text rest : List Char}
    (h : d.throughBlock closer text = .resumes rest) : rest.length ≤ text.length := by
  simp only [throughBlock] at h
  split at h
  · cases h
  · split at h
    · cases h
    · next beyond hafter =>
        split at h
        · cases h
        · cases h
          exact length_of_after? hafter

/-- Searching for marks and trying them at every position come to the same answer. -/
theorem readOutside_eq_readByPosition (h : d.IsPlain) (kind : LineKind) (text : List Char) :
    d.readOutside kind text = d.readByPosition kind none text := by
  have hcomment (kind : LineKind) : kind.withComment.withComment = kind.withComment := rfl
  fun_induction d.readOutside kind text with
  | case1 kind text hmark => rw [readByPosition_none h, hmark]
  | case2 kind text position _ hmark => rw [readByPosition_none h, hmark]
  | case3 kind text position _ block hthrough hmark
  | case4 kind text position _ block hthrough hmark =>
      rw [readByPosition_none h, hmark]
      simp only [readByPosition_some d (hcomment _), hthrough]
      rfl
  | case5 kind text position _ block rest hthrough _ hmark ih =>
      rw [ih, readByPosition_none h kind text, hmark]
      simp only [readByPosition_some d (hcomment _), hthrough]
      rfl
  | case6 kind text position _ block rest hthrough hlonger hmark =>
      -- a reader that is behind an opener has made progress
      have hshorter := (length_of_throughBlock hthrough).trans_lt (h.length_behind_opener hmark)
      exact absurd hshorter hlonger

/-- The same for a line, which may begin inside a block. -/
theorem readLine_eq_readByPosition (h : d.IsPlain) (inside : Option (List Char)) {line : Line}
    (hline : isBlankText line = false) :
    d.readLine inside line = d.readByPosition .unclassified inside line := by
  cases inside with
  | none => exact readOutside_eq_readByPosition h .unclassified line
  | some closer =>
      have hstart : d.readByPosition .unclassified (some closer) line =
          d.readByPosition .commentLine (some closer) line := by
        cases line with
        | nil => exact absurd hline (by decide)
        | cons c rest =>
            rw [readByPosition, readByPosition]
            rfl
      rw [hstart, readByPosition_some d rfl, readLine]
      cases d.throughBlock closer line with
      | stillOpen => rfl
      | closed => rfl
      | resumes rest => exact readOutside_eq_readByPosition h .commentLine rest

/-! ## Both readings of a file -/

/-- Where no whole line is decided beforehand, a line read by position is a line read by the
scanner. -/
theorem stepByPosition_eq (h : d.IsPlain) (hwhole : ∀ line, d.wholeLine line = none)
    (found : List LineKind × Option (List Char)) (line : Line) :
    d.stepByPosition found line = (Scanner.delimited d).addLine found line := by
  obtain ⟨kinds, inside⟩ := found
  cases hline : isBlankText line with
  | true =>
      simp only [stepByPosition, Scanner.addLine, Scanner.advance, hline, ↓reduceIte]
      rfl
  | false =>
      simp only [stepByPosition, Scanner.addLine, Scanner.advance, Scanner.delimited, hline,
        hwhole, Bool.false_eq_true, ↓reduceIte, readLine_eq_readByPosition h inside hline]

/-- **Jumping from mark to mark misses nothing.** With line markers and openers that are not
empty, a scanner for delimited comments reads each line, and so each file, as a reader does that
stands at one position after another and tries every mark there. -/
theorem delimited_reads_by_position (lineMarkers : List (List Char)) (blocks : List Block)
    (absorbAfterClose : List (List Char)) (hmarkers : ∀ marker ∈ lineMarkers, marker ≠ [])
    (hopeners : ∀ block ∈ blocks, block.opener ≠ []) :
    let d : Delimiters := { lineMarkers, blocks, absorbAfterClose }
    (∀ inside line, isBlankText line = false →
      d.readLine inside line = d.readByPosition .unclassified inside line) ∧
    ∀ lines,
      (Scanner.delimited d).classify lines = (lines.foldl d.stepByPosition ([], none)).1 := by
  intro d
  have hplain : d.IsPlain := ⟨fun _ _ _ => rfl, hmarkers, hopeners⟩
  refine ⟨fun inside line hline => readLine_eq_readByPosition hplain inside hline, fun lines => ?_⟩
  have hsteps : d.stepByPosition = (Scanner.delimited d).addLine :=
    funext₂ (stepByPosition_eq hplain fun _ => rfl)
  rw [hsteps, Scanner.classify_eq_run rfl rfl]
  exact (congrArg Prod.fst ((Scanner.delimited d).foldl_addLine [] none lines)).symm

/-- Both readings of comments in which an opener runs into what looks like its closer, and in which
a comment goes on over the end of a line. -/
theorem delimited_reads_by_position_slashes :
    let d : Delimiters :=
      { lineMarkers := [['/', '/']], blocks := [⟨['/', '*'], ['*', '/']⟩],
        absorbAfterClose := [['/', '/']] }
    let lines : List Line := ["/*/ a */ // b".toList, "".toList, "c /* d".toList, "*/ e".toList]
    (∀ marker ∈ d.lineMarkers, marker ≠ []) ∧ (∀ block ∈ d.blocks, block.opener ≠ []) ∧
    (Scanner.delimited d).classify lines = (lines.foldl d.stepByPosition ([], none)).1 ∧
    (lines.foldl d.stepByPosition ([], none)).1 =
      [.commentLine, .blankLine, .mixedLine, .mixedLine] := by
  intro d lines
  have hmarkers : ∀ marker ∈ d.lineMarkers, marker ≠ [] := by decide
  have hopeners : ∀ block ∈ d.blocks, block.opener ≠ [] := by decide
  have hagree := (delimited_reads_by_position _ _ d.absorbAfterClose hmarkers hopeners).2 lines
  exact ⟨hmarkers, hopeners, hagree, hagree.symm.trans (by decide +kernel)⟩

end Delimiters

end LineCensus
