/-
# Openers that count in some places only

Where an opener counts may depend on the text in front of it. The scanner for delimited
comments looks for it in what is left to be read, so the text in front of it is what it
has read since the line began or since the last comment ended, and no more.

This module has a reader that moves along a line a character at a time and knows what is
behind it. Whatever the delimiters are, as long as line markers and openers are not
empty, it ends up with the answer of the scanner. Where it stands in front of an opener of
markup in a script, the place can then be told: the scanner opens a comment there also
if another comment has just ended, whatever that comment ends with.
-/

import LineCensus.Proofs.Scanner.Concatenation
import LineCensus.Proofs.Scanner.Position
import LineCensus.Proofs.Text.Edges
import Mathlib.Logic.Function.Iterate

namespace LineCensus.Delimiters

open Text

/-! ## Marks that count -/

/-- Whether a mark counts at a position of a text. Line markers count everywhere. -/
def counts (d : Delimiters) (text : List Char) (mark : List Char × Option Block) (position : Nat) :
    Bool :=
  mark.2.isNone || d.opensAt text position mark.1

/-- The first of the marks that the text ahead begins with and that count there, with what has been
seen of the text in front. -/
def markBehind? (d : Delimiters) (seen ahead : List Char) : Option (Option Block) :=
  (d.marks.find? fun mark =>
    startsWith mark.1 ahead && d.counts (seen ++ ahead) mark seen.length).map (·.2)

/-- Where each of several marks occurs first in the text ahead, where it counts. -/
def countingFrom (d : Delimiters) (marks : List (List Char × Option Block))
    (seen ahead : List Char) : List (Nat × Option Block) :=
  marks.filterMap fun mark =>
    (positionFrom? (d.counts (seen ++ ahead) mark) mark.1 ahead seen.length).map (·, mark.2)

/-- The foremost mark that counts in the text ahead, its position counted from the start of what has
been seen. -/
def firstMarkBehind? (d : Delimiters) (seen ahead : List Char) : Option (Nat × Option Block) :=
  foremost? (d.countingFrom d.marks seen ahead)

variable {d : Delimiters}

theorem firstMark?_eq_firstMarkBehind? (d : Delimiters) (text : List Char) :
    d.firstMark? text = d.firstMarkBehind? [] text := by
  simp only [firstMark?, firstMarkBehind?, countingFrom, marks, List.filterMap_append,
    List.filterMap_map]
  rfl

theorem countingFrom_cons (mark : List Char × Option Block)
    (others : List (List Char × Option Block)) (seen ahead : List Char) :
    d.countingFrom (mark :: others) seen ahead =
      match positionFrom? (d.counts (seen ++ ahead) mark) mark.1 ahead seen.length with
      | some position => (position, mark.2) :: d.countingFrom others seen ahead
      | none => d.countingFrom others seen ahead := by
  simp only [countingFrom, List.filterMap_cons]
  cases positionFrom? (d.counts (seen ++ ahead) mark) mark.1 ahead seen.length <;> rfl

/-- A mark is foremost if no other one is in front of it. -/
theorem foremost?_cons_of_le {α : Type} {mark : Nat × α} {others : List (Nat × α)}
    (h : ∀ other ∈ others, mark.1 ≤ other.1) : foremost? (mark :: others) = some mark := by
  rw [foremost?]
  split
  · rfl
  · next other hother => exact if_neg (Nat.not_lt.mpr (h other (mem_of_foremost? hother)))

theorem le_of_mem_countingFrom {marks : List (List Char × Option Block)} {seen ahead : List Char}
    {mark : Nat × Option Block} (h : mark ∈ d.countingFrom marks seen ahead) :
    seen.length ≤ mark.1 := by
  obtain ⟨_, _, hmark⟩ := List.mem_filterMap.mp h
  obtain ⟨_, hposition, rfl⟩ := Option.map_eq_some_iff.mp hmark
  obtain ⟨further, _, rfl, _⟩ := isPrefix_of_positionFrom? hposition
  exact Nat.le_add_right ..

/-- Of the marks that count here the first one is foremost. If there is none, the foremost one is
further on. -/
theorem foremost?_countingFrom_cons (marks : List (List Char × Option Block))
    (seen : List Char) (c : Char) (rest : List Char) :
    foremost? (d.countingFrom marks seen (c :: rest)) =
      match marks.find? fun mark => startsWith mark.1 (c :: rest) &&
        d.counts (seen ++ c :: rest) mark seen.length with
      | some mark => some (seen.length, mark.2)
      | none => foremost? (d.countingFrom marks (seen ++ [c]) rest) := by
  induction marks with
  | nil => rfl
  | cons mark others ih =>
      have htext : seen ++ [c] ++ rest = seen ++ c :: rest := (List.append_cons ..).symm
      rw [countingFrom_cons, countingFrom_cons, List.find?_cons, positionFrom?, htext,
        List.length_append, List.length_singleton]
      cases startsWith mark.1 (c :: rest) && d.counts (seen ++ c :: rest) mark seen.length with
      | true =>
          simp only [↓reduceIte]
          exact foremost?_cons_of_le fun other hother => le_of_mem_countingFrom hother
      | false =>
          simp only [Bool.false_eq_true, ↓reduceIte]
          cases hposition : positionFrom? (d.counts (seen ++ c :: rest) mark) mark.1 rest
            (seen.length + 1) with
          | none => exact ih
          | some position =>
              obtain ⟨further, _, rfl, _⟩ := isPrefix_of_positionFrom? hposition
              simp only [foremost?, ih]
              cases others.find? fun mark => startsWith mark.1 (c :: rest) &&
                d.counts (seen ++ c :: rest) mark seen.length with
              | some first =>
                  have hfront : seen.length < seen.length + 1 + further := by omega
                  simp only [if_pos hfront]
              | none => rfl

theorem firstMarkBehind?_cons (seen : List Char) (c : Char) (rest : List Char) :
    d.firstMarkBehind? seen (c :: rest) =
      match d.markBehind? seen (c :: rest) with
      | some mark => some (seen.length, mark)
      | none => d.firstMarkBehind? (seen ++ [c]) rest := by
  rw [firstMarkBehind?, foremost?_countingFrom_cons, markBehind?]
  cases d.marks.find? fun mark => startsWith mark.1 (c :: rest) &&
    d.counts (seen ++ c :: rest) mark seen.length <;> rfl

theorem le_of_firstMarkBehind? {seen ahead : List Char} {mark : Nat × Option Block}
    (h : d.firstMarkBehind? seen ahead = some mark) : seen.length ≤ mark.1 :=
  le_of_mem_countingFrom (mem_of_foremost? h)

namespace HasMarks

variable (h : d.HasMarks)

include h

theorem firstMarkBehind?_nil (seen : List Char) : d.firstMarkBehind? seen [] = none := by
  have hnowhere : d.countingFrom d.marks seen [] = [] := by
    refine List.filterMap_eq_nil_iff.mpr fun mark hmark => ?_
    have hmark : mark.1.isEmpty = false := List.isEmpty_eq_false_iff.mpr (h.mark_ne_nil hmark)
    rw [positionFrom?, hmark]
    rfl
  rw [firstMarkBehind?, hnowhere]
  rfl

theorem opener_ne_nil_of_markBehind? {seen ahead : List Char} {block : Block}
    (hmark : d.markBehind? seen ahead = some (some block)) : block.opener ≠ [] := by
  obtain ⟨mark, hfound, hblock⟩ := Option.map_eq_some_iff.mp hmark
  exact h.opener_ne_nil_of_mem (List.mem_of_find?_eq_some hfound) hblock

theorem opener_ne_nil_of_firstMarkBehind? {seen ahead : List Char} {position : Nat} {block : Block}
    (hmark : d.firstMarkBehind? seen ahead = some (position, some block)) : block.opener ≠ [] := by
  obtain ⟨mark, hmem, hfound⟩ := List.mem_filterMap.mp (mem_of_foremost? hmark)
  obtain ⟨_, _, heq⟩ := Option.map_eq_some_iff.mp hfound
  exact h.opener_ne_nil_of_mem hmem (congrArg Prod.snd heq)

end HasMarks

/-! ## The reader -/

/-- A reader of a line, between two of its characters. -/
structure Reader where
  /-- The line up to the end of the last comment, inside a comment up to here. -/
  done : List Char
  /-- What has been read since then, outside every comment. -/
  seen : List Char
  /-- The kind of the line up to here. -/
  kind : LineKind
  /-- The closer of the block that the reader is in. -/
  inside : Option (List Char)
  /-- What is still to be read. -/
  ahead : List Char

namespace Reader

/-- All of the line that has been read. -/
def front (reader : Reader) : List Char :=
  reader.done ++ reader.seen

/-- A reader in front of a line that is not blank. In a block that is open there the line is a
comment. -/
def start (inside : Option (List Char)) (line : Line) : Reader where
  done := []
  seen := []
  kind := if inside.isSome then .commentLine else .unclassified
  inside := inside
  ahead := line

/-- A reader that has come to the end of a comment at the end of the line. -/
def finish (reader : Reader) : Reader where
  done := reader.front ++ reader.ahead
  seen := []
  kind := reader.kind
  inside := none
  ahead := []

/-- A reader that has entered a block. -/
def enter (reader : Reader) (block : Block) : Reader where
  done := reader.front ++ block.opener
  seen := []
  kind := reader.kind.withComment
  inside := some block.closer
  ahead := reader.ahead.drop block.opener.length

/-- A reader that has left a block and reads on. -/
def leave (reader : Reader) (closer : List Char) : Reader :=
  { reader with done := reader.front ++ closer, seen := [], inside := none,
                ahead := reader.ahead.drop closer.length }

/-- A reader that has passed some text outside every comment. -/
def pass (reader : Reader) (piece : List Char) : Reader :=
  { reader with seen := reader.seen ++ piece, kind := reader.kind.withCode (!isBlankText piece),
                ahead := reader.ahead.drop piece.length }

/-- A reader that has passed a character inside a block. -/
def goThrough (reader : Reader) (c : Char) : Reader :=
  { reader with done := reader.front ++ [c], seen := [], ahead := reader.ahead.drop 1 }

theorem pass_pass (reader : Reader) (first second : List Char) :
    (reader.pass first).pass second = reader.pass (first ++ second) := by
  simp only [pass, List.append_assoc, withCode_withCode, isBlankText_append, Bool.not_and,
    List.drop_drop, List.length_append]

end Reader

/-- Moves a reader on by one character, or by a whole mark. -/
def next (d : Delimiters) (reader : Reader) : Reader :=
  match reader.inside, reader.ahead with
  | _, [] => reader
  | some closer, c :: _ =>
    if startsWith closer reader.ahead then
      if d.absorbs (reader.ahead.drop closer.length) then reader.finish else reader.leave closer
    else reader.goThrough c
  | none, c :: _ =>
    match d.markBehind? reader.seen reader.ahead with
    | some (some block) => reader.enter block
    | some none => { reader with kind := reader.kind.withComment }.finish
    | none => reader.pass [c]

/-- How a reader can move on. -/
inductive Move (d : Delimiters) (reader : Reader) : Reader → Prop where
  /-- There is nothing left to read. -/
  | stops (hahead : reader.ahead = []) : Move d reader reader
  /-- A block ends, and nothing behind it is read. -/
  | leavesForGood {closer : List Char} {c : Char} {rest : List Char}
      (hinside : reader.inside = some closer) (hahead : reader.ahead = c :: rest)
      (hcloser : startsWith closer (c :: rest) = true)
      (habsorbs : d.absorbs ((c :: rest).drop closer.length) = true) : Move d reader reader.finish
  /-- A block ends. -/
  | leaves {closer : List Char} {c : Char} {rest : List Char}
      (hinside : reader.inside = some closer) (hahead : reader.ahead = c :: rest)
      (hcloser : startsWith closer (c :: rest) = true)
      (habsorbs : d.absorbs ((c :: rest).drop closer.length) = false) :
      Move d reader (reader.leave closer)
  /-- A block goes on. -/
  | goesThrough {closer : List Char} {c : Char} {rest : List Char}
      (hinside : reader.inside = some closer) (hahead : reader.ahead = c :: rest)
      (hcloser : startsWith closer (c :: rest) = false) : Move d reader (reader.goThrough c)
  /-- A line comment begins. -/
  | entersLineComment {c : Char} {rest : List Char} (hinside : reader.inside = none)
      (hahead : reader.ahead = c :: rest)
      (hmark : d.markBehind? reader.seen (c :: rest) = some none) :
      Move d reader { reader with kind := reader.kind.withComment }.finish
  /-- A block begins. -/
  | enters {c : Char} {rest : List Char} {block : Block} (hinside : reader.inside = none)
      (hahead : reader.ahead = c :: rest)
      (hmark : d.markBehind? reader.seen (c :: rest) = some (some block)) :
      Move d reader (reader.enter block)
  /-- There is a character outside every comment. -/
  | passes {c : Char} {rest : List Char} (hinside : reader.inside = none)
      (hahead : reader.ahead = c :: rest) (hmark : d.markBehind? reader.seen (c :: rest) = none) :
      Move d reader (reader.pass [c])

theorem move_next (d : Delimiters) (reader : Reader) : d.Move reader (d.next reader) := by
  obtain ⟨done, seen, kind, inside, ahead⟩ := reader
  cases ahead with
  | nil => cases inside <;> exact .stops rfl
  | cons c rest =>
      cases inside with
      | some closer =>
          cases hcloser : startsWith closer (c :: rest) with
          | false =>
              simp only [next, hcloser, Bool.false_eq_true, ↓reduceIte]
              exact .goesThrough rfl rfl hcloser
          | true =>
              cases habsorbs : d.absorbs ((c :: rest).drop closer.length) with
              | false =>
                  simp only [next, hcloser, habsorbs, Bool.false_eq_true, ↓reduceIte]
                  exact .leaves rfl rfl hcloser habsorbs
              | true =>
                  simp only [next, hcloser, habsorbs, ↓reduceIte]
                  exact .leavesForGood rfl rfl hcloser habsorbs
      | none =>
          rw [next]
          cases hmark : d.markBehind? seen (c :: rest) with
          | none => exact .passes rfl rfl hmark
          | some mark =>
              cases mark with
              | none => exact .entersLineComment rfl rfl hmark
              | some block => exact .enters rfl rfl hmark

/-! ## The answer of the scanner -/

/-- What the scanner answers for a line with some text still ahead, inside a block. -/
def answerInside (d : Delimiters) (kind : LineKind) (closer ahead : List Char) :
    LineKind × Option (List Char) :=
  match d.throughBlock closer ahead with
  | .stillOpen => (kind, some closer)
  | .closed => (kind, none)
  | .resumes rest => d.readOutside kind rest

/-- The same in front of a mark that counts. -/
def answerAtMark (d : Delimiters) (kind : LineKind) (mark : Option Block) (ahead : List Char) :
    LineKind × Option (List Char) :=
  match mark with
  | none => (kind.withComment, none)
  | some block => d.answerInside kind.withComment block.closer (ahead.drop block.opener.length)

/-- The same outside every block, with what has been seen of the text in front. -/
def answerOutside (d : Delimiters) (kind : LineKind) (seen ahead : List Char) :
    LineKind × Option (List Char) :=
  match d.firstMarkBehind? seen ahead with
  | none => (kind.withCode (!isBlankText ahead), none)
  | some (position, mark) =>
    d.answerAtMark (kind.withCode (!isBlankText (ahead.take (position - seen.length)))) mark
      (ahead.drop (position - seen.length))

/-- What the scanner answers for a line from where a reader has come to. -/
def answer (d : Delimiters) (reader : Reader) : LineKind × Option (List Char) :=
  match reader.inside with
  | some closer => d.answerInside reader.kind closer reader.ahead
  | none => d.answerOutside reader.kind reader.seen reader.ahead

theorem answer_of_inside {reader : Reader} {closer : List Char}
    (hinside : reader.inside = some closer) :
    d.answer reader = d.answerInside reader.kind closer reader.ahead := by
  rw [answer, hinside]

theorem answer_of_outside {reader : Reader} (hinside : reader.inside = none) :
    d.answer reader = d.answerOutside reader.kind reader.seen reader.ahead := by
  rw [answer, hinside]

/-- In front of a mark that counts nothing more is found out about the line. -/
theorem answerOutside_of_markBehind? {seen rest : List Char} {c : Char} {mark : Option Block}
    (hmark : d.markBehind? seen (c :: rest) = some mark) (kind : LineKind) :
    d.answerOutside kind seen (c :: rest) = d.answerAtMark kind mark (c :: rest) := by
  have hnothing : kind.withCode (!isBlankText []) = kind := by
    simp [isBlankText, LineKind.withCode]
  rw [answerOutside, firstMarkBehind?_cons, hmark]
  simp only [Nat.sub_self, List.take_zero, hnothing, List.drop_zero]

/-- A character in front of the foremost mark only tells whether there is code. -/
theorem answerOutside_cons {seen rest : List Char} {c : Char}
    (hmark : d.markBehind? seen (c :: rest) = none) (kind : LineKind) :
    d.answerOutside kind seen (c :: rest) =
      d.answerOutside (kind.withCode (!isBlank c)) (seen ++ [c]) rest := by
  rw [answerOutside, answerOutside, firstMarkBehind?_cons, hmark]
  dsimp only
  cases hfound : d.firstMarkBehind? (seen ++ [c]) rest with
  | none => simp only [withCode_withCode, not_isBlankText_cons]
  | some found =>
      obtain ⟨position, mark⟩ := found
      have hbehind := le_of_firstMarkBehind? hfound
      rw [List.length_append, List.length_singleton] at hbehind
      have hfurther : position - seen.length = position - (seen.length + 1) + 1 := by
        omega
      simp only [List.length_append, List.length_singleton, hfurther, List.take_succ_cons,
        List.drop_succ_cons, not_isBlankText_cons, withCode_withCode]

/-- Where no whole line is decided beforehand, a line that is not blank is read for its marks. -/
theorem advance_delimited (hwhole : ∀ line, d.wholeLine line = none) (inside : Option (List Char))
    {line : Line} (hline : isBlankText line = false) :
    (Scanner.delimited d).advance inside line = d.readLine inside line := by
  simp only [Scanner.advance, Scanner.delimited, hline, hwhole, Bool.false_eq_true, ↓reduceIte]

section

variable (h : d.HasMarks)

include h

theorem readOutside_eq_answerOutside (kind : LineKind) (text : List Char) :
    d.readOutside kind text = d.answerOutside kind [] text := by
  rw [readOutside, answerOutside, firstMark?_eq_firstMarkBehind?]
  cases hmark : d.firstMarkBehind? [] text with
  | none => rfl
  | some found =>
      obtain ⟨position, mark⟩ := found
      cases mark with
      | none => rfl
      | some block =>
          simp only [List.length_nil, Nat.sub_zero, answerAtMark, answerInside, List.drop_drop]
          cases hthrough : d.throughBlock block.closer
            (text.drop (position + block.opener.length)) with
          | stillOpen => rfl
          | closed => rfl
          | resumes rest =>
              -- there is less to read behind an opener
              have hshorter : rest.length < text.length := by
                have hrest := length_of_throughBlock hthrough
                have hopener :=
                  List.length_pos_iff.mpr (h.opener_ne_nil_of_firstMarkBehind? hmark)
                have htext : text ≠ [] := by
                  rintro rfl
                  rw [h.firstMarkBehind?_nil] at hmark
                  cases hmark
                have hlength := List.length_pos_iff.mpr htext
                rw [List.length_drop] at hrest
                omega
              exact if_pos hshorter

theorem readLine_eq_answer (inside : Option (List Char)) (line : Line) :
    d.readLine inside line = d.answer (Reader.start inside line) := by
  cases inside with
  | none => exact readOutside_eq_answerOutside h .unclassified line
  | some closer => rfl

/-- At the end of the line the reader knows the answer. -/
theorem answer_of_ahead_eq_nil {reader : Reader} (hend : reader.ahead = []) :
    d.answer reader = (reader.kind, reader.inside) := by
  obtain ⟨done, seen, kind, inside, ahead⟩ := reader
  subst hend
  cases inside with
  | none =>
      rw [answer, answerOutside]
      simp [h.firstMarkBehind?_nil, isBlankText, LineKind.withCode]
  | some closer => rfl

theorem answerOutside_nil (kind : LineKind) (seen : List Char) :
    d.answerOutside kind seen [] = (kind, none) := by
  rw [answerOutside, h.firstMarkBehind?_nil]
  simp [isBlankText, LineKind.withCode]

/-- To move on changes nothing about the answer. -/
theorem answer_next (reader : Reader) : d.answer (d.next reader) = d.answer reader := by
  have hmove := d.move_next reader
  generalize d.next reader = reader' at hmove
  cases hmove with
  | stops => rfl
  | leavesForGood hinside hahead hcloser habsorbs =>
      rw [answer_of_inside hinside, hahead, answerInside, throughBlock_cons, if_pos hcloser,
        if_pos habsorbs]
      exact answerOutside_nil h reader.kind []
  | leaves hinside hahead hcloser habsorbs =>
      rw [answer_of_inside hinside, hahead, answerInside, throughBlock_cons, if_pos hcloser,
        habsorbs, ← hahead]
      exact (readOutside_eq_answerOutside h _ _).symm
  | goesThrough hinside hahead hcloser =>
      have hstays (c : Char) : (reader.goThrough c).inside = _ := hinside
      rw [answer_of_inside hinside, answer_of_inside (hstays _), Reader.goThrough, hahead,
        answerInside, answerInside, throughBlock_cons, hcloser]
      rfl
  | entersLineComment hinside hahead hmark =>
      rw [answer_of_outside hinside, hahead, answerOutside_of_markBehind? hmark]
      exact answerOutside_nil h _ []
  | enters hinside hahead hmark =>
      rw [answer_of_outside hinside, hahead, answerOutside_of_markBehind? hmark, ← hahead]
      rfl
  | passes hinside hahead hmark =>
      have hstays (piece : List Char) : (reader.pass piece).inside = none := hinside
      rw [answer_of_outside hinside, answer_of_outside (hstays _), Reader.pass, hahead,
        answerOutside_cons hmark, isBlankText_singleton]
      rfl

/-- Until the line is read to its end, there is less to read with each move. -/
theorem measure_next_lt {reader : Reader} (hahead : reader.ahead ≠ []) :
    2 * (d.next reader).ahead.length + (d.next reader).inside.toList.length <
      2 * reader.ahead.length + reader.inside.toList.length := by
  have hmove := d.move_next reader
  generalize d.next reader = reader' at hmove
  have hpositive := List.length_pos_iff.mpr hahead
  cases hmove with
  | stops hend => exact absurd hend hahead
  | leavesForGood hinside | entersLineComment hinside =>
      simp only [Reader.finish, List.length_nil, Option.toList_none]
      omega
  | leaves hinside =>
      -- the closer may be empty, but then it is left behind at least
      simp only [Reader.leave, hinside, List.length_drop, Option.toList_none, Option.toList_some,
        List.length_nil, List.length_singleton]
      omega
  | goesThrough | passes =>
      simp only [Reader.goThrough, Reader.pass, List.length_drop, List.length_singleton]
      omega
  | enters hinside hcons hmark =>
      have hopener := List.length_pos_iff.mpr (h.opener_ne_nil_of_markBehind? hmark)
      simp only [Reader.enter, hinside, List.length_drop, Option.toList_none, Option.toList_some,
        List.length_nil, List.length_singleton]
      omega

theorem exists_iterate_ahead_eq_nil (reader : Reader) : ∃ n, (d.next^[n] reader).ahead = [] := by
  induction hmeasure : 2 * reader.ahead.length + reader.inside.toList.length
    using Nat.strong_induction_on generalizing reader with
  | _ _ ih =>
      subst hmeasure
      by_cases hahead : reader.ahead = []
      · exact ⟨0, hahead⟩
      · obtain ⟨n, hn⟩ := ih _ (measure_next_lt h hahead) (d.next reader) rfl
        exact ⟨n + 1, hn⟩

theorem answer_iterate (reader : Reader) (n : Nat) :
    d.answer (d.next^[n] reader) = d.answer reader := by
  induction n with
  | zero => rfl
  | succ n ih => rw [Function.iterate_succ_apply', answer_next h, ih]

/-- A reader that goes on to the end of a line comes to the answer of the scanner. -/
theorem exists_iterate_eq_readLine (inside : Option (List Char)) (line : Line) :
    ∃ n, (d.next^[n] (Reader.start inside line)).ahead = [] ∧
      d.readLine inside line = ((d.next^[n] (Reader.start inside line)).kind,
        (d.next^[n] (Reader.start inside line)).inside) := by
  obtain ⟨n, hend⟩ := exists_iterate_ahead_eq_nil h (Reader.start inside line)
  refine ⟨n, hend, ?_⟩
  rw [readLine_eq_answer h, ← answer_iterate h _ n, answer_of_ahead_eq_nil h hend]

end

/-! ## What a reader has behind it -/

theorem next_of_ahead_eq_nil {reader : Reader} (hend : reader.ahead = []) :
    d.next reader = reader := by
  rw [next, hend]

theorem next_of_markBehind?_eq_none {reader : Reader} (hinside : reader.inside = none) {c : Char}
    {rest : List Char} (hahead : reader.ahead = c :: rest)
    (hmark : d.markBehind? reader.seen (c :: rest) = none) :
    d.next reader = reader.pass [c] := by
  simp only [next, hinside, hahead, hmark]

theorem next_of_markBehind?_eq_some {reader : Reader} (hinside : reader.inside = none) {c : Char}
    {rest : List Char} (hahead : reader.ahead = c :: rest) {block : Block}
    (hmark : d.markBehind? reader.seen (c :: rest) = some (some block)) :
    d.next reader = reader.enter block := by
  simp only [next, hinside, hahead, hmark]

theorem iterate_next_of_ahead_eq_nil {reader : Reader} (hend : reader.ahead = []) (n : Nat) :
    d.next^[n] reader = reader :=
  Function.iterate_fixed (next_of_ahead_eq_nil hend) n

/-- A block is opened by its opener. -/
theorem startsWith_opener_of_markBehind? {seen ahead : List Char} {block : Block}
    (hmark : d.markBehind? seen ahead = some (some block)) :
    startsWith block.opener ahead = true := by
  obtain ⟨mark, hfound, hblock⟩ := Option.map_eq_some_iff.mp hmark
  have hcounts := List.find?_some hfound
  rw [← (mem_blocks_of_mem_marks (List.mem_of_find?_eq_some hfound) hblock).2]
  exact (Bool.and_eq_true_iff.mp hcounts).1

/-- A reader loses nothing of its line. -/
theorem front_append_ahead_next (reader : Reader) :
    (d.next reader).front ++ (d.next reader).ahead = reader.front ++ reader.ahead := by
  have hdrop {mark : List Char} {ahead : List Char} (hmark : startsWith mark ahead = true) :
      mark ++ ahead.drop mark.length = ahead :=
    List.prefix_iff_eq_append.mp (startsWith_iff_isPrefix.mp hmark)
  have hmove := d.move_next reader
  generalize d.next reader = reader' at hmove
  cases hmove with
  | stops => rfl
  | leavesForGood | entersLineComment => simp [Reader.finish, Reader.front]
  | leaves _ hahead hcloser =>
      rw [← hahead] at hcloser
      simp [Reader.leave, Reader.front, hdrop hcloser]
  | enters _ hahead hmark =>
      rw [← hahead] at hmark
      simp [Reader.enter, Reader.front, hdrop (startsWith_opener_of_markBehind? hmark)]
  | goesThrough _ hahead => simp [Reader.goThrough, Reader.front, hahead]
  | passes _ hahead => simp [Reader.pass, Reader.front, hahead]

theorem front_append_ahead (inside : Option (List Char)) (line : Line) (n : Nat) :
    (d.next^[n] (Reader.start inside line)).front ++ (d.next^[n] (Reader.start inside line)).ahead =
      line := by
  induction n with
  | zero => rfl
  | succ n ih => rw [Function.iterate_succ_apply', front_append_ahead_next, ih]

/-- Code that was found stays found. -/
theorem code_next {reader : Reader} (hcode : reader.kind.code = true) :
    (d.next reader).kind.code = true := by
  have hmove := d.move_next reader
  generalize d.next reader = reader' at hmove
  cases hmove with
  | passes => exact Bool.or_eq_true_iff.mpr (.inl hcode)
  | _ => exact hcode

theorem code_iterate {reader : Reader} (hcode : reader.kind.code = true) (n : Nat) :
    (d.next^[n] reader).kind.code = true := by
  induction n with
  | zero => exact hcode
  | succ n ih =>
      rw [Function.iterate_succ_apply']
      exact code_next ih

/-- Outside every comment nothing has been seen exactly in front of the line and where a comment has
just ended. -/
theorem seen_eq_nil_iff {inside : Option (List Char)} {line : Line} {n : Nat}
    (houtside : (d.next^[n] (Reader.start inside line)).inside = none)
    (hahead : (d.next^[n] (Reader.start inside line)).ahead ≠ []) :
    (d.next^[n] (Reader.start inside line)).seen = [] ↔
      n = 0 ∨ ∃ m, n = m + 1 ∧ (d.next^[m] (Reader.start inside line)).inside.isSome = true := by
  cases n with
  | zero => exact iff_of_true rfl (.inl rfl)
  | succ m =>
      rw [or_iff_right (Nat.succ_ne_zero m)]
      rw [Function.iterate_succ_apply'] at houtside hahead ⊢
      generalize hreader : d.next^[m] (Reader.start inside line) = reader at *
      have hmove := d.move_next reader
      generalize d.next reader = reader' at hmove houtside hahead ⊢
      cases hmove with
      | stops hend => exact absurd hend hahead
      | leavesForGood | entersLineComment => exact absurd rfl hahead
      | leaves hinside => exact iff_of_true rfl ⟨m, rfl, by rw [hreader, hinside]; rfl⟩
      | goesThrough hinside => exact absurd (hinside.symm.trans houtside) nofun
      | enters => exact absurd houtside nofun
      | passes hinside =>
          refine iff_of_false (List.append_ne_nil_of_right_ne_nil _ nofun) ?_
          rintro ⟨_, ⟨⟩, hsome⟩
          rw [hreader, hinside] at hsome
          cases hsome

/-- What is right behind a reader is what it has seen last, if it has seen anything since. -/
theorem seen_nil_or_blank_iff {inside : Option (List Char)} {line : Line} {n : Nat}
    (houtside : (d.next^[n] (Reader.start inside line)).inside = none)
    (hahead : (d.next^[n] (Reader.start inside line)).ahead ≠ []) :
    let reader := fun n => d.next^[n] (Reader.start inside line)
    ((reader n).seen = [] ∨ (reader n).seen.getLast?.any isBlank = true) ↔
      isBlankText (reader n).front = true ∨ (reader n).front.getLast?.any isBlank = true ∨
        ∃ m, n = m + 1 ∧ (reader m).inside.isSome = true := by
  intro reader
  have hfresh := seen_eq_nil_iff houtside hahead
  by_cases hseen : (reader n).seen = []
  · refine iff_of_true (.inl hseen) ?_
    rcases hfresh.mp hseen with rfl | hended
    · exact .inl rfl
    · exact .inr (.inr hended)
  · have hlast : (reader n).front.getLast? = (reader n).seen.getLast? := by
      rw [Reader.front, List.getLast?_append_of_ne_nil _ hseen]
    rw [or_iff_right hseen, hlast]
    refine ⟨fun h => .inr (.inl h), ?_⟩
    rintro (hblank | hspace | hended)
    · rw [Reader.front, isBlankText_append, Bool.and_eq_true] at hblank
      rw [List.getLast?_eq_some_getLast hseen]
      exact List.all_eq_true.mp hblank.2 _ (List.getLast_mem hseen)
    · exact hspace
    · exact absurd (hfresh.mpr (.inr hended)) hseen

/-! ## Scripts -/

theorem hasMarks_javaScript : javaScript.HasMarks :=
  ⟨by decide, by decide⟩

/-- An opener of markup counts where nothing has been seen, and behind white space. -/
theorem markBehind?_javaScript_angleBang (seen rest : List Char) :
    javaScript.markBehind? seen (angleBang.opener ++ rest) =
      if seen = [] ∨ seen.getLast?.any isBlank = true then some (some angleBang) else none := by
  have hcounts : javaScript.counts (seen ++ (angleBang.opener ++ rest))
      (angleBang.opener, some angleBang) seen.length =
        decide (seen = [] ∨ seen.getLast?.any isBlank = true) := by
    cases seen using List.reverseRecOn with
    | nil => rfl
    | append_singleton seen c =>
        simp [counts, javaScript]
  have hslashes {mark : List Char} (hmark : mark.head? = some '/') :
      startsWith mark (angleBang.opener ++ rest) = false :=
    startsWith_cons_eq_false hmark (by decide) _
  have hstarts : startsWith angleBang.opener (angleBang.opener ++ rest) = true :=
    startsWith_iff_isPrefix.mpr (List.prefix_append ..)
  have hmarks : javaScript.marks = [(slashStar.opener, some slashStar),
      (angleBang.opener, some angleBang), (['/', '/'], none)] := rfl
  rw [markBehind?, hmarks, List.find?_cons, hslashes rfl, Bool.false_and]
  dsimp only
  rw [List.find?_cons, hstarts, Bool.true_and, hcounts]
  by_cases hopens : seen = [] ∨ seen.getLast?.any isBlank = true
  · rw [decide_eq_true hopens, if_pos hopens]
    rfl
  · rw [decide_eq_false hopens, if_neg hopens, List.find?_singleton, hslashes rfl]
    rfl

theorem markBehind?_javaScript_eq_none {c : Char} (hc : c ∈ ['!', '-']) (seen rest : List Char) :
    javaScript.markBehind? seen (c :: rest) = none := by
  rw [markBehind?, Option.map_eq_none_iff, List.find?_eq_none]
  intro mark hmark
  have hfirsts : ∀ mark ∈ javaScript.marks, mark.1.head? = some '/' ∨ mark.1.head? = some '<' := by
    decide
  have hdistinct : '/' ≠ c ∧ '<' ≠ c := by
    rcases List.mem_pair.mp hc with rfl | rfl <;> decide
  have hstarts : startsWith mark.1 (c :: rest) = false := by
    rcases hfirsts mark hmark with hslash | hangle
    · exact startsWith_cons_eq_false hslash hdistinct.1 rest
    · exact startsWith_cons_eq_false hangle hdistinct.2 rest
  rw [hstarts, Bool.false_and]
  exact Bool.false_ne_true

/-- Characters that begin no mark are passed over. -/
theorem iterate_next_of_no_mark {piece : List Char} (hpiece : ∀ c ∈ piece, c ∈ ['!', '-'])
    {reader : Reader} {rest : List Char} (hahead : reader.ahead = piece ++ rest)
    (hinside : reader.inside = none) :
    javaScript.next^[piece.length] reader = reader.pass piece := by
  induction piece generalizing reader with
  | nil => simp [Reader.pass, isBlankText, LineKind.withCode]
  | cons c piece ih =>
      obtain ⟨hc, hpiece⟩ := List.forall_mem_cons.mp hpiece
      have hmark := markBehind?_javaScript_eq_none hc reader.seen (piece ++ rest)
      have hbehind : (reader.pass [c]).ahead = piece ++ rest := by
        rw [Reader.pass, hahead]
        rfl
      rw [List.length_cons, Function.iterate_succ_apply,
        next_of_markBehind?_eq_none hinside hahead hmark, ih hpiece hbehind hinside,
        Reader.pass_pass, List.singleton_append]

/-- An opener of markup that does not count is passed over like any code. -/
theorem iterate_next_angleBang {reader : Reader} (hinside : reader.inside = none) {rest : List Char}
    (hahead : reader.ahead = angleBang.opener ++ rest)
    (hmark : javaScript.markBehind? reader.seen (angleBang.opener ++ rest) = none) :
    javaScript.next^[4] reader = reader.pass angleBang.opener := by
  have hrest : ∀ c ∈ ['!', '-', '-'], c ∈ ['!', '-'] := by simp
  have hbehind : (reader.pass ['<']).ahead = ['!', '-', '-'] ++ rest := by
    rw [Reader.pass, hahead]
    rfl
  rw [Function.iterate_succ_apply, next_of_markBehind?_eq_none hinside hahead hmark]
  exact (iterate_next_of_no_mark hrest hbehind hinside).trans (Reader.pass_pass ..)

/-- **Where a script opens a comment of markup.** A reader of the line comes to the end with the
kind of the line and the block that is carried to the next one. Where it stands in front of `<!--`,
outside every comment, it enters a comment if there is only white space in front, if there is white
space directly in front, or if the move that took it there was the end of a comment. Otherwise it
passes the four characters, still outside every comment, and the line has code. -/
theorem classify_javaScript_markup (before : List Line) (line : Line) (after : List Line)
    (hline : isBlankText line = false) :
    let scanner := Scanner.delimited javaScript
    let reader := fun n => javaScript.next^[n] (Reader.start (scanner.carried before) line)
    ∃ last, (reader last).ahead = [] ∧
      (scanner.classify (before ++ line :: after))[before.length]? = some (reader last).kind ∧
      scanner.carried (before ++ [line]) = (reader last).inside ∧
      ∀ n, (reader n).inside = none → angleBang.opener <+: (reader n).ahead →
        let front := (reader n).front
        let opens := isBlankText front = true ∨ front.getLast?.any isBlank = true ∨
          ∃ m, n = m + 1 ∧ (reader m).inside.isSome = true
        line = front ++ (reader n).ahead ∧
        (opens → reader (n + 1) = (reader n).enter angleBang) ∧
        (¬ opens →
          reader (n + 4) = (reader n).pass angleBang.opener ∧ (reader last).kind.code = true) := by
  intro scanner reader
  obtain ⟨last, hend, hanswer⟩ :=
    exists_iterate_eq_readLine hasMarks_javaScript (scanner.carried before) line
  have hadvance : scanner.advance (scanner.carried before) line =
      ((reader last).kind, (reader last).inside) :=
    (advance_delimited (fun _ => rfl) (scanner.carried before) hline).trans hanswer
  refine ⟨last, hend, ?_, ?_, fun n houtside hopener => ?_⟩
  · exact (Scanner.getElem?_classify_append_cons rfl rfl before line after).trans
      (congrArg (some ·.1) hadvance)
  · exact (Scanner.carried_concat rfl before line).trans (congrArg Prod.snd hadvance)
  · obtain ⟨rest, hahead⟩ := hopener
    have hmark := markBehind?_javaScript_angleBang (reader n).seen rest
    have hne : (reader n).ahead ≠ [] := by
      rw [← hahead]
      exact List.append_ne_nil_of_left_ne_nil (by decide) rest
    refine ⟨(front_append_ahead _ _ n).symm, fun hopens => ?_, fun hopens => ?_⟩
    · rw [if_pos ((seen_nil_or_blank_iff houtside hne).mpr hopens)] at hmark
      exact (Function.iterate_succ_apply' ..).trans
        (next_of_markBehind?_eq_some houtside hahead.symm hmark)
    · rw [if_neg (mt (seen_nil_or_blank_iff houtside hne).mp hopens)] at hmark
      have hpassed : reader (n + 4) = (reader n).pass angleBang.opener := by
        rw [← iterate_next_angleBang houtside hahead.symm hmark, ← Function.iterate_add_apply,
          Nat.add_comm]
      refine ⟨hpassed, ?_⟩
      -- both are at the end of the line in the end
      have hlast : javaScript.next^[n + 4] (reader last) =
          javaScript.next^[last] (reader (n + 4)) := by
        rw [← Function.iterate_add_apply, ← Function.iterate_add_apply, Nat.add_comm]
      have hstays : javaScript.next^[n + 4] (reader last) = reader last :=
        iterate_next_of_ahead_eq_nil hend _
      rw [← hstays, hlast]
      refine code_iterate ?_ last
      rw [hpassed, Reader.pass]
      exact Bool.or_true _

/-- An opener that follows a comment on its line, without white space between them. -/
theorem classify_javaScript_markup_behind_comment :
    let scanner := Scanner.delimited javaScript
    let line := "/* a */<!-- b".toList
    let reader := fun n => javaScript.next^[n] (Reader.start none line)
    isBlankText line = false ∧ (reader 5).front = "/* a */".toList ∧
      (reader 6).inside = some angleBang.closer ∧
      scanner.classify [line, "x".toList] = [.commentLine, .commentLine] := by
  intro scanner line reader
  have hline : isBlankText line = false := by decide +kernel
  obtain ⟨_, _, _, _, hplaces⟩ := classify_javaScript_markup [] line ["x".toList] hline
  have houtside : (reader 5).inside = none := by decide +kernel
  have hopener : angleBang.opener <+: (reader 5).ahead := by decide +kernel
  have hended : (reader 4).inside.isSome = true := by decide +kernel
  have hopens := (hplaces 5 houtside hopener).2.1 (.inr (.inr ⟨4, rfl, hended⟩))
  exact ⟨hline, by decide +kernel, congrArg Reader.inside hopens, by decide +kernel⟩

end LineCensus.Delimiters
