/-
# Comments within comments

What matters to comments in Pascal is where they begin and end. This module reads a line
as a word of such marks, with the characters between them. Its comments are nested if
every closer of the word closes the comment that was opened last. What is outside of
them is then the rest of the line, with a space in place of each outermost comment.

Two facts about nested words do the work. Taking out the innermost comments of one style
leaves what is outside as it is, whatever they hold of the other style. And as long as
any comment is left there is an innermost one of some style.
-/

import LineCensus.Proofs.Text.Edges
import LineCensus.Scanner.Pascal

namespace LineCensus.Pascal

open Text

/-! ## Marks -/

/-- The two styles of comments. -/
inductive Style where
  | brace
  | star
deriving DecidableEq, Repr

namespace Style

/-- What opens a comment of a style. -/
def opener : Style → List Char
  | brace => braceOpener
  | star => starOpener

/-- What closes a comment of a style. -/
def closer : Style → List Char
  | brace => braceCloser
  | star => starCloser

end Style

/-- What a line is made of: the ends of comments, and characters that are part of none. -/
inductive Mark where
  | opener (style : Style)
  | closer (style : Style)
  | plain (c : Char)
deriving DecidableEq, Repr

/-- How a mark is written. -/
def Mark.text : Mark → List Char
  | opener style => style.opener
  | closer style => style.closer
  | plain c => [c]

/-- The marks of a text, read from the left. -/
def marks : List Char → List Mark
  | [] => []
  | '{' :: rest => .opener .brace :: marks rest
  | '}' :: rest => .closer .brace :: marks rest
  | '(' :: '*' :: rest => .opener .star :: marks rest
  | '*' :: ')' :: rest => .closer .star :: marks rest
  | c :: rest => .plain c :: marks rest

/-- What stands outside of comments, with a space for each outermost comment. Of each style in
`opened` a comment is open at the beginning, the innermost first. There is no such text if a closer
does not close the innermost open comment, or if some comment is not closed. -/
def uncommented? : (opened : List Style) → List Mark → Option (List Char)
  | [], [] => some []
  | [], .opener style :: rest => (uncommented? [style] rest).map (' ' :: ·)
  | [], .closer _ :: _ => none
  | [], .plain c :: rest => (uncommented? [] rest).map (c :: ·)
  | _ :: _, [] => none
  | inner :: opened, .opener style :: rest => uncommented? (style :: inner :: opened) rest
  | inner :: opened, .closer style :: rest =>
    if style = inner then uncommented? opened rest else none
  | inner :: opened, .plain _ :: rest => uncommented? (inner :: opened) rest

/-! ## Taking innermost comments out -/

/-- What follows the closer of a style, if there is one before any other end of that style. -/
def afterCloser? (style : Style) : List Mark → Option (List Mark)
  | [] => none
  | .opener other :: rest => if other = style then none else afterCloser? style rest
  | .closer other :: rest => if other = style then some rest else afterCloser? style rest
  | .plain _ :: rest => afterCloser? style rest

theorem length_afterCloser? {style : Style} {line rest : List Mark}
    (h : afterCloser? style line = some rest) : rest.length < line.length := by
  fun_induction afterCloser? style line with
  | case1 => cases h
  | case2 => cases h
  | case3 other others hother ih => exact (ih h).trans (Nat.lt_succ_self _)
  | case4 =>
      cases h
      exact Nat.lt_succ_self _
  | case5 other others hother ih => exact (ih h).trans (Nat.lt_succ_self _)
  | case6 c others ih => exact (ih h).trans (Nat.lt_succ_self _)

/-- A line with a space for each comment of a style that holds no other end of that style. -/
def withoutInner (style : Style) : List Mark → List Mark
  | [] => []
  | mark :: rest =>
    if mark = .opener style then
      match h : afterCloser? style rest with
      | some beyond =>
        have := length_afterCloser? h
        .plain ' ' :: withoutInner style beyond
      | none => mark :: withoutInner style rest
    else mark :: withoutInner style rest
termination_by line => line.length
decreasing_by all_goals simp only [List.length_cons]; omega

theorem withoutInner_of_closed {style : Style} {rest beyond : List Mark}
    (h : afterCloser? style rest = some beyond) :
    withoutInner style (.opener style :: rest) = .plain ' ' :: withoutInner style beyond := by
  rw [withoutInner, if_pos rfl]
  split
  · next found hfound =>
      rw [h, Option.some.injEq] at hfound
      rw [hfound]
  · next hnone =>
      rw [h] at hnone
      cases hnone

theorem withoutInner_of_not_closed {style : Style} {mark : Mark} {rest : List Mark}
    (h : mark = .opener style → afterCloser? style rest = none) :
    withoutInner style (mark :: rest) = mark :: withoutInner style rest := by
  rw [withoutInner]
  split
  · next hmark =>
      split
      · next found hfound =>
          rw [h hmark] at hfound
          cases hfound
      · rfl
  · rfl

/-- All that makes up the first step of taking comments out of a line. -/
theorem withoutInner_cons (style : Style) (mark : Mark) (rest : List Mark) :
    (∃ beyond, mark = .opener style ∧ afterCloser? style rest = some beyond ∧
      withoutInner style (mark :: rest) = .plain ' ' :: withoutInner style beyond) ∨
    withoutInner style (mark :: rest) = mark :: withoutInner style rest := by
  by_cases hmark : mark = .opener style
  · subst hmark
    cases hclosed : afterCloser? style rest with
    | some beyond => exact .inl ⟨beyond, rfl, rfl, withoutInner_of_closed hclosed⟩
    | none => exact .inr (withoutInner_of_not_closed fun _ => hclosed)
  · exact .inr (withoutInner_of_not_closed fun h => absurd h hmark)

/-! ## What is outside stays outside -/

/-- Between an opener and the closer that is found for it, whatever else opens closes again. -/
theorem uncommented?_of_afterCloser? {style : Style} {opened between : List Style}
    (hbetween : style ∉ between) {rest beyond : List Mark} {text : List Char}
    (hclosed : afterCloser? style rest = some beyond)
    (h : uncommented? (between ++ style :: opened) rest = some text) :
    uncommented? opened beyond = some text := by
  induction rest generalizing between with
  | nil => cases hclosed
  | cons mark rest ih =>
      cases mark with
      | opener other =>
          rw [afterCloser?, Option.ite_none_left_eq_some] at hclosed
          have hopen : uncommented? (other :: between ++ style :: opened) rest = some text := by
            cases between <;> exact h
          exact ih (List.not_mem_cons_of_ne_of_not_mem (Ne.symm hclosed.1) hbetween) hclosed.2 hopen
      | plain c =>
          have hopen : uncommented? (between ++ style :: opened) rest = some text := by
            cases between <;> exact h
          exact ih hbetween hclosed hopen
      | closer other =>
          cases between with
          | nil =>
              rw [List.nil_append, uncommented?, Option.ite_none_right_eq_some] at h
              rw [afterCloser?, if_pos h.1, Option.some.injEq] at hclosed
              rw [← hclosed]
              exact h.2
          | cons inner between =>
              rw [List.cons_append, uncommented?, Option.ite_none_right_eq_some] at h
              obtain ⟨hinner, hrest⟩ := not_or.mp (List.mem_cons.not.mp hbetween)
              rw [afterCloser?, if_neg (h.1 ▸ Ne.symm hinner)] at hclosed
              exact ih hrest hclosed h.2

/-- One mark in front of two lines does not tell them apart. -/
theorem uncommented?_cons_congr {first second : List Mark}
    (h : ∀ opened text, uncommented? opened first = some text →
      uncommented? opened second = some text)
    (mark : Mark) {opened : List Style} {text : List Char}
    (hfirst : uncommented? opened (mark :: first) = some text) :
    uncommented? opened (mark :: second) = some text := by
  cases mark <;> cases opened <;> simp only [uncommented?] at hfirst ⊢
  case opener.nil =>
      obtain ⟨rest, hrest, rfl⟩ := Option.map_eq_some_iff.mp hfirst
      rw [h _ _ hrest]
      rfl
  case plain.nil =>
      obtain ⟨rest, hrest, rfl⟩ := Option.map_eq_some_iff.mp hfirst
      rw [h _ _ hrest]
      rfl
  case closer.nil => cases hfirst
  case closer.cons =>
      rw [Option.ite_none_right_eq_some] at hfirst ⊢
      exact hfirst.imp_right (h _ _)
  all_goals exact h _ _ hfirst

/-- Taking innermost comments out does not change what is outside of all comments. -/
theorem uncommented?_withoutInner (style : Style) {line : List Mark} {opened : List Style}
    {text : List Char} (h : uncommented? opened line = some text) :
    uncommented? opened (withoutInner style line) = some text := by
  induction hn : line.length using Nat.strong_induction_on generalizing line opened text with
  | _ n ih =>
  cases line with
  | nil => rwa [withoutInner]
  | cons mark rest =>
      rcases withoutInner_cons style mark rest with ⟨beyond, rfl, hclosed, hline⟩ | hline
      · have hlength : beyond.length < n := by
          have hshorter := length_afterCloser? hclosed
          rw [List.length_cons] at hn
          omega
        rw [hline]
        cases opened with
        | nil =>
            obtain ⟨inside, hinside, rfl⟩ := Option.map_eq_some_iff.mp h
            have hbeyond := uncommented?_of_afterCloser? List.not_mem_nil hclosed hinside
            rw [uncommented?, ih _ hlength hbeyond rfl]
            rfl
        | cons inner opened =>
            have hbeyond : uncommented? (inner :: opened) beyond = some text :=
              uncommented?_of_afterCloser? List.not_mem_nil hclosed h
            exact ih _ hlength hbeyond rfl
      · rw [hline]
        refine uncommented?_cons_congr (fun opened text hrest => ih rest.length ?_ hrest rfl) mark h
        rw [← hn]
        exact Nat.lt_succ_self _

/-! ## When nothing is left to take out -/

theorem withoutInner_cons_ne {style : Style} {rest : List Mark} (h : withoutInner style rest ≠ rest)
    (mark : Mark) : withoutInner style (mark :: rest) ≠ mark :: rest := by
  rcases withoutInner_cons style mark rest with ⟨beyond, rfl, _, hline⟩ | hline
  · simp [hline]
  · simpa [hline] using h

/-- An open comment that is closed again reaches its closer, or there is another one within it to be
taken out. -/
theorem exists_withoutInner_ne {style : Style} {opened : List Style} {rest : List Mark}
    {text : List Char} (h : uncommented? (style :: opened) rest = some text) :
    (∃ beyond, afterCloser? style rest = some beyond) ∨
      ∃ other, withoutInner other rest ≠ rest := by
  induction rest generalizing style opened with
  | nil => cases h
  | cons mark rest ih =>
      cases mark with
      | plain c => exact (ih h).imp_right fun ⟨other, hother⟩ =>
          ⟨other, withoutInner_cons_ne hother _⟩
      | closer other =>
          rw [uncommented?, Option.ite_none_right_eq_some] at h
          exact .inl ⟨rest, if_pos h.1⟩
      | opener other =>
          right
          rcases ih h with ⟨beyond, hbeyond⟩ | ⟨third, hthird⟩
          · exact ⟨other, by simp [withoutInner_of_closed hbeyond]⟩
          · exact ⟨third, withoutInner_cons_ne hthird _⟩

/-- Where nothing is left to take out, no mark of a comment is left. -/
theorem eq_map_plain_of_uncommented? {line : List Mark} {text : List Char}
    (h : uncommented? [] line = some text) (hdone : ∀ style, withoutInner style line = line) :
    line = text.map .plain := by
  induction line generalizing text with
  | nil =>
      cases h
      rfl
  | cons mark rest ih =>
      have hrest (style : Style) : withoutInner style rest = rest := by
        by_contra hne
        exact withoutInner_cons_ne hne mark (hdone style)
      cases mark with
      | closer style => cases h
      | plain c =>
          obtain ⟨behind, hbehind, rfl⟩ := Option.map_eq_some_iff.mp h
          rw [ih hbehind hrest]
          rfl
      | opener style =>
          obtain ⟨inside, hinside, _⟩ := Option.map_eq_some_iff.mp h
          rcases exists_withoutInner_ne hinside with ⟨beyond, hbeyond⟩ | ⟨other, hother⟩
          · have hhere := hdone style
            rw [withoutInner_of_closed hbeyond] at hhere
            cases hhere
          · exact absurd (hrest other) hother

/-! ## Counting marks -/

/-- Whatever is open or opens closes. -/
theorem count_opener_add_count {line : List Mark} {opened : List Style} {text : List Char}
    (h : uncommented? opened line = some text) (style : Style) :
    line.count (.opener style) + opened.count style = line.count (.closer style) := by
  induction line generalizing opened text with
  | nil =>
      cases opened with
      | nil => rfl
      | cons => cases h
  | cons mark rest ih =>
      cases mark with
      | plain c =>
          have hrest : ∃ behind, uncommented? opened rest = some behind := by
            cases opened with
            | nil => exact (Option.map_eq_some_iff.mp h).imp fun _ => And.left
            | cons => exact ⟨_, h⟩
          obtain ⟨behind, hbehind⟩ := hrest
          simpa using ih hbehind
      | opener other =>
          have hrest : ∃ behind, uncommented? (other :: opened) rest = some behind := by
            cases opened with
            | nil => exact (Option.map_eq_some_iff.mp h).imp fun _ => And.left
            | cons => exact ⟨_, h⟩
          obtain ⟨behind, hbehind⟩ := hrest
          have hcount := ih hbehind
          by_cases hother : other = style <;>
            simp only [List.count_cons, hother, beq_self_eq_true, beq_iff_eq, Mark.opener.injEq,
              reduceCtorEq, if_true, if_false] at hcount ⊢ <;> omega
      | closer other =>
          cases opened with
          | nil => cases h
          | cons inner opened =>
              rw [uncommented?, Option.ite_none_right_eq_some] at h
              obtain ⟨rfl, h⟩ := h
              have hcount := ih h
              by_cases hother : other = style <;>
                simp only [List.count_cons, hother, beq_self_eq_true, beq_iff_eq,
                  Mark.closer.injEq, reduceCtorEq, if_true, if_false] <;> omega

/-! ## Marks and texts -/

/-- Reading the marks of a text loses nothing. -/
theorem flatMap_text_marks (text : List Char) : (marks text).flatMap Mark.text = text := by
  fun_induction marks text with
  | case1 => rfl
  | case2 rest ih | case3 rest ih | case4 rest ih | case5 rest ih =>
      rw [List.flatMap_cons, ih]
      rfl
  | case6 c rest _ _ _ _ ih =>
      rw [List.flatMap_cons, ih]
      rfl

theorem eq_of_marks_eq_map_plain {text rest : List Char} (h : marks text = rest.map .plain) :
    text = rest := by
  rw [← flatMap_text_marks text, h, List.flatMap_map]
  exact List.flatMap_singleton' rest

/-- Whether a character begins the end of a comment, given the character behind it. -/
def beginsMark (c : Char) (next : Option Char) : Bool :=
  c == '{' || c == '}' || (c == '(' && next == some '*') || (c == '*' && next == some ')')

/-- Whether a mark can be read in front of a text. -/
def Mark.Fits : Mark → List Char → Prop
  | plain c, rest => beginsMark c rest.head? = false
  | _, _ => True

theorem marks_text_append {mark : Mark} {rest : List Char} (h : mark.Fits rest) :
    marks (mark.text ++ rest) = mark :: marks rest := by
  cases mark with
  | opener style => cases style <;> rfl
  | closer style => cases style <;> rfl
  | plain c =>
      show marks (c :: rest) = _
      have hplain : beginsMark c rest.head? = false := h
      rw [marks]
      all_goals
        intros
        simp_all [beginsMark]

theorem fits_plain {c : Char} {rest : List Char} (hopener : c ≠ '{') (hcloser : c ≠ '}')
    (hstar : ∀ behind, c = '(' → rest = '*' :: behind → False)
    (hend : ∀ behind, c = '*' → rest = ')' :: behind → False) : (Mark.plain c).Fits rest := by
  show beginsMark c rest.head? = false
  cases rest with
  | nil => simp [beginsMark, hopener, hcloser]
  | cons d rest =>
      have hstar' : c = '(' → d ≠ '*' := fun hc hd => hstar rest hc (by rw [hd])
      have hend' : c = '*' → d ≠ ')' := fun hc hd => hend rest hc (by rw [hd])
      simp only [beginsMark, List.head?_cons, Option.some_beq_some, Bool.or_eq_false_iff,
        Bool.and_eq_false_imp, beq_iff_eq, beq_eq_false_iff_ne]
      exact ⟨⟨⟨hopener, hcloser⟩, hstar'⟩, hend'⟩

/-- A text is empty, or it is a mark and a text behind it. -/
theorem eq_nil_or_exists_mark (text : List Char) :
    text = [] ∨ ∃ (mark : Mark) (rest : List Char), mark.Fits rest ∧ text = mark.text ++ rest := by
  fun_cases marks text with
  | case1 => exact .inl rfl
  | case2 rest => exact .inr ⟨.opener .brace, rest, trivial, rfl⟩
  | case3 rest => exact .inr ⟨.closer .brace, rest, trivial, rfl⟩
  | case4 rest => exact .inr ⟨.opener .star, rest, trivial, rfl⟩
  | case5 rest => exact .inr ⟨.closer .star, rest, trivial, rfl⟩
  | case6 c rest hopener hcloser hstar hend =>
      exact .inr ⟨.plain c, rest, fits_plain hopener hcloser hstar hend, rfl⟩

theorem Mark.length_text_pos (mark : Mark) : 0 < mark.text.length := by
  cases mark with
  | opener style => cases style <;> exact Nat.succ_pos _
  | closer style => cases style <;> exact Nat.succ_pos _
  | plain c => exact Nat.succ_pos _

/-- What holds of a text once it holds of all that is shorter than what follows its first mark. -/
theorem marks_induction {motive : List Char → Prop} (text : List Char) (nil : motive [])
    (cons : ∀ (mark : Mark) (rest : List Char), mark.Fits rest →
      (∀ shorter : List Char, shorter.length ≤ rest.length → motive shorter) →
      motive (mark.text ++ rest)) : motive text := by
  induction hn : text.length using Nat.strong_induction_on generalizing text with
  | _ n ih =>
  rcases eq_nil_or_exists_mark text with rfl | ⟨mark, rest, hfits, rfl⟩
  · exact nil
  · refine cons mark rest hfits fun shorter hlength => ih shorter.length ?_ shorter rfl
    have hpositive := mark.length_text_pos
    rw [List.length_append] at hn
    omega

/-! ## White space at the edges -/

theorem marks_cons_blank {c : Char} (hc : isBlank c = true) (text : List Char) :
    marks (c :: text) = .plain c :: marks text := by
  have hfits : (Mark.plain c).Fits text := by
    apply fits_plain
    · rintro rfl
      cases hc
    · rintro rfl
      cases hc
    · rintro _ rfl _
      cases hc
    · rintro _ rfl _
      cases hc
  exact marks_text_append hfits

theorem marks_concat_blank {c : Char} (hc : isBlank c = true) (text : List Char) :
    marks (text ++ [c]) = marks text ++ [.plain c] := by
  induction text using marks_induction with
  | nil => exact marks_cons_blank hc []
  | cons mark rest hfits ih =>
      have hfits' : mark.Fits (rest ++ [c]) := by
        cases mark with
        | opener => trivial
        | closer => trivial
        | plain d =>
            cases rest with
            | cons => exact hfits
            | nil =>
                have hstar : c ≠ '*' := by rintro rfl; cases hc
                have hend : c ≠ ')' := by rintro rfl; cases hc
                simpa [Mark.Fits, beginsMark, hstar, hend] using hfits
      rw [List.append_assoc, marks_text_append hfits', ih rest (Nat.le_refl _),
        marks_text_append hfits, List.cons_append]

theorem uncommented?_concat_plain (opened : List Style) (line : List Mark) (c : Char) :
    uncommented? opened (line ++ [.plain c]) = (uncommented? opened line).map (· ++ [c]) := by
  induction line generalizing opened with
  | nil => cases opened <;> rfl
  | cons mark rest ih =>
      rw [List.cons_append]
      cases mark <;> cases opened <;> simp only [uncommented?, ih, Option.map_map]
      case opener.nil => rfl
      case plain.nil => rfl
      case closer.nil => rfl
      case closer.cons => split <;> rfl

/-- White space at the edges of a line is outside of its comments. -/
theorem map_trim_uncommented?_trim (line : List Char) :
    (uncommented? [] (marks (trim line))).map trim = (uncommented? [] (marks line)).map trim := by
  refine apply_trim (f := fun text => (uncommented? [] (marks text)).map trim) ?_ ?_ line
  · intro c hc text
    rw [marks_cons_blank hc, uncommented?, Option.map_map]
    exact Option.map_congr fun rest _ => trim_cons hc rest
  · intro c hc text
    rw [marks_concat_blank hc, uncommented?_concat_plain, Option.map_map]
    exact Option.map_congr fun rest _ => trim_concat hc rest

theorem count_opener_marks_trim (style : Style) (line : List Char) :
    (marks (trim line)).count (.opener style) = (marks line).count (.opener style) := by
  refine apply_trim (f := fun text => (marks text).count (.opener style)) ?_ ?_ line
  · intro c hc text
    simp [marks_cons_blank hc]
  · intro c hc text
    simp [marks_concat_blank hc]

end LineCensus.Pascal
