/-
# Nested comments that close on their line

On a line that begins and ends outside of comments the scanner takes comments out round
by round, in each round those in braces that hold no brace and then those between stars
that hold no other end of their style. This module says what comes of it where the
comments of a line are nested. The rounds leave the line with a space in place of each
outermost comment, and the depths, which are counted apart from that, come out as zero.
-/

import LineCensus.Proofs.Scanner.Braces
import LineCensus.Proofs.Scanner.Marks
import Mathlib.Logic.Function.Iterate

namespace LineCensus.Pascal

open Text

/-! ## Passes over a line -/

/-- What is asked of a pass over a text that takes the comments of a style out, the ends of which
are looked for by `after?`. -/
structure TakesOut (style : Style) (after? : List Char → Option (List Char))
    (pass : List Char → List Char) : Prop where
  nil : pass [] = []
  closed {rest beyond : List Char} : after? rest = some beyond →
    pass (style.opener ++ rest) = ' ' :: pass beyond
  kept {c : Char} {rest : List Char} :
    (∀ behind, c :: rest = style.opener ++ behind → after? behind = none) →
    pass (c :: rest) = c :: pass rest
  shorter {rest beyond : List Char} : after? rest = some beyond → beyond.length < rest.length
  suffix {rest beyond : List Char} : after? rest = some beyond → beyond <:+ rest
  afterCloser?_marks {rest : List Char} : '\n' ∉ rest →
    afterCloser? style (marks rest) = (after? rest).map marks

theorem afterBrace?_isSuffix {rest beyond : List Char} (h : afterBrace? rest = some beyond) :
    beyond <:+ rest := by
  fun_induction afterBrace? rest with
  | case1 => cases h
  | case2 =>
      cases h
      exact List.suffix_cons _ _
  | case3 => cases h
  | case4 c rest _ _ ih => exact (ih h).trans (List.suffix_cons c rest)

theorem afterStar?_isSuffix {rest beyond : List Char} (h : afterStar? rest = some beyond) :
    beyond <:+ rest := by
  fun_induction afterStar? rest with
  | case1 => cases h
  | case2 rest =>
      cases h
      exact List.suffix_append ['*', ')'] _
  | case3 => cases h
  | case4 => cases h
  | case5 c rest _ _ _ ih => exact (ih h).trans (List.suffix_cons c rest)

theorem ne_of_fits_plain {c : Char} {rest : List Char} (h : (Mark.plain c).Fits rest) :
    c ≠ '{' ∧ c ≠ '}' ∧ (∀ behind, ¬(c = '(' ∧ rest = '*' :: behind)) ∧
      ∀ behind, ¬(c = '*' ∧ rest = ')' :: behind) := by
  have hplain : beginsMark c rest.head? = false := h
  refine ⟨?_, ?_, ?_, ?_⟩
  · rintro rfl
    cases hplain
  · rintro rfl
    cases hplain
  · rintro behind ⟨rfl, rfl⟩
    cases hplain
  · rintro behind ⟨rfl, rfl⟩
    cases hplain

theorem afterCloser?_marks_brace (text : List Char) :
    afterCloser? .brace (marks text) = (afterBrace? text).map marks := by
  induction text using marks_induction with
  | nil => rfl
  | cons mark rest hfits ih =>
      have hrest := ih rest (Nat.le_refl _)
      rw [marks_text_append hfits]
      cases mark with
      | opener style => cases style <;> simp [afterCloser?, Mark.text, Style.opener, braceOpener,
          starOpener, afterBrace?, hrest]
      | closer style => cases style <;> simp [afterCloser?, Mark.text, Style.closer, braceCloser,
          starCloser, afterBrace?, hrest]
      | plain c =>
          obtain ⟨hopener, hcloser, _⟩ := ne_of_fits_plain hfits
          simp [afterCloser?, Mark.text, afterBrace?, hopener, hcloser, hrest]

theorem afterCloser?_marks_star {text : List Char} (h : '\n' ∉ text) :
    afterCloser? .star (marks text) = (afterStar? text).map marks := by
  induction text using marks_induction with
  | nil => rfl
  | cons mark rest hfits ih =>
      have hrest := ih rest (Nat.le_refl _) fun hmem => h (List.mem_append_right _ hmem)
      rw [marks_text_append hfits]
      cases mark with
      | opener style => cases style <;> simp [afterCloser?, Mark.text, Style.opener, braceOpener,
          starOpener, afterStar?, hrest]
      | closer style => cases style <;> simp [afterCloser?, Mark.text, Style.closer, braceCloser,
          starCloser, afterStar?, hrest]
      | plain c =>
          obtain ⟨_, _, hstar, hend⟩ := ne_of_fits_plain hfits
          have hc : c ≠ '\n' := fun hc => h (by simp [Mark.text, hc])
          rw [afterCloser?, hrest, Mark.text, List.singleton_append, afterStar?, if_neg hc]
          · exact fun behind hc hbehind => hend behind ⟨hc, hbehind⟩
          · exact fun behind hc hbehind => hstar behind ⟨hc, hbehind⟩

theorem takesOut_braces : TakesOut .brace afterBrace? withoutInnerBraces where
  nil := by rw [withoutInnerBraces]
  closed {rest beyond} h := by
    show withoutInnerBraces ('{' :: rest) = _
    rw [withoutInnerBraces, if_pos rfl]
    split
    · next found hfound =>
        rw [h, Option.some.injEq] at hfound
        rw [hfound]
    · next hnone =>
        rw [h] at hnone
        cases hnone
  kept {c rest} h := by
    rw [withoutInnerBraces]
    split
    · next hc =>
        split
        · next found hfound =>
            rw [h rest (by rw [hc]; rfl)] at hfound
            cases hfound
        · rfl
    · rfl
  shorter := length_afterBrace?
  suffix := afterBrace?_isSuffix
  afterCloser?_marks {rest} _ := afterCloser?_marks_brace rest

theorem takesOut_stars : TakesOut .star afterStar? withoutInnerStars where
  nil := by rw [withoutInnerStars]
  closed {rest beyond} h := by
    show withoutInnerStars ('(' :: '*' :: rest) = _
    have hstart : startsWith starOpener ('(' :: '*' :: rest) = true := rfl
    rw [withoutInnerStars, if_pos hstart]
    split
    · next found hfound =>
        have hfound' : afterStar? rest = some found := hfound
        rw [h, Option.some.injEq] at hfound'
        rw [hfound']
    · next hnone =>
        have hnone' : afterStar? rest = none := hnone
        rw [h] at hnone'
        cases hnone'
  kept {c rest} h := by
    rw [withoutInnerStars]
    split
    · next hstart =>
        obtain ⟨behind, hbehind⟩ := startsWith_iff_isPrefix.mp hstart
        have hrest : rest.drop 1 = behind := by
          have htail := congrArg (List.drop 2) hbehind
          simpa [starOpener] using htail.symm
        split
        · next found hfound =>
            rw [hrest, h behind hbehind.symm] at hfound
            cases hfound
        · rfl
    · rfl
  shorter := length_afterStar?
  suffix := afterStar?_isSuffix
  afterCloser?_marks := afterCloser?_marks_star

namespace TakesOut

variable {style : Style} {after? : List Char → Option (List Char)} {pass : List Char → List Char}
  (h : TakesOut style after? pass)

include h

theorem pass_text_append_of_not_closed {mark : Mark} {rest : List Char} (hfits : mark.Fits rest)
    (hopen : mark = .opener style → after? rest = none) :
    pass (mark.text ++ rest) = mark.text ++ pass rest := by
  cases mark with
  | opener other =>
      cases other with
      | brace =>
          refine h.kept fun behind hbehind => ?_
          cases style with
          | brace =>
              cases hbehind
              exact hopen rfl
          | star => cases hbehind
      | star =>
          show pass ('(' :: '*' :: rest) = '(' :: '*' :: pass rest
          rw [h.kept, h.kept]
          · intro behind hbehind
            cases style <;> cases hbehind
          · intro behind hbehind
            cases style with
            | brace => cases hbehind
            | star =>
                cases hbehind
                exact hopen rfl
  | closer other =>
      cases other with
      | brace =>
          refine h.kept fun behind hbehind => ?_
          cases style <;> cases hbehind
      | star =>
          show pass ('*' :: ')' :: rest) = '*' :: ')' :: pass rest
          rw [h.kept, h.kept]
          all_goals
            intro behind hbehind
            cases style <;> cases hbehind
  | plain c =>
      obtain ⟨hbrace, _, hstar, _⟩ := ne_of_fits_plain hfits
      refine h.kept fun behind hbehind => ?_
      cases style with
      | brace => exact absurd (List.cons.inj hbehind).1 hbrace
      | star => exact absurd (List.cons.inj hbehind) (hstar behind)

/-- What a pass does to the first mark of a text. -/
theorem pass_text_append {mark : Mark} {rest : List Char} (hfits : mark.Fits rest) :
    (∃ beyond, mark = .opener style ∧ after? rest = some beyond ∧
      pass (mark.text ++ rest) = ' ' :: pass beyond) ∨
    ((mark = .opener style → after? rest = none) ∧
      pass (mark.text ++ rest) = mark.text ++ pass rest) := by
  by_cases hmark : mark = .opener style
  · subst hmark
    cases hclosed : after? rest with
    | some beyond => exact .inl ⟨beyond, rfl, rfl, h.closed hclosed⟩
    | none => exact .inr ⟨fun _ => rfl, h.pass_text_append_of_not_closed hfits fun _ => hclosed⟩
  · have hopen : mark = .opener style → after? rest = none := fun hsame => absurd hsame hmark
    exact .inr ⟨hopen, h.pass_text_append_of_not_closed hfits hopen⟩

/-- A pass begins a text as it was or with a space. -/
theorem head?_pass (text : List Char) :
    (pass text).head? = text.head? ∨ (pass text).head? = some ' ' := by
  rcases eq_nil_or_exists_mark text with rfl | ⟨mark, rest, hfits, rfl⟩
  · exact .inl (by rw [h.nil])
  · rcases h.pass_text_append hfits with ⟨beyond, _, _, htext⟩ | ⟨_, htext⟩
    · exact .inr (by rw [htext]; rfl)
    · refine .inl ?_
      have hnonempty := List.ne_nil_of_length_pos mark.length_text_pos
      rw [htext, List.head?_append_of_ne_nil _ hnonempty, List.head?_append_of_ne_nil _ hnonempty]

theorem fits_pass {mark : Mark} {rest : List Char} (hfits : mark.Fits rest) :
    mark.Fits (pass rest) := by
  cases mark with
  | opener => trivial
  | closer => trivial
  | plain c =>
      have hplain : beginsMark c rest.head? = false := hfits
      show beginsMark c (pass rest).head? = false
      rcases h.head?_pass rest with hhead | hhead
      · rwa [hhead]
      · rw [hhead]
        simp only [beginsMark, Bool.or_eq_false_iff] at hplain ⊢
        exact ⟨⟨hplain.1.1, Bool.and_false _⟩, Bool.and_false _⟩

/-- To the marks of a text a pass does what its style says. -/
theorem marks_pass {text : List Char} (hfeed : '\n' ∉ text) :
    marks (pass text) = withoutInner style (marks text) := by
  induction text using marks_induction with
  | nil => rw [h.nil, marks, withoutInner]
  | cons mark rest hfits ih =>
      have hrest : '\n' ∉ rest := fun hmem => hfeed (List.mem_append_right _ hmem)
      have hafter := h.afterCloser?_marks hrest
      rw [marks_text_append hfits]
      rcases h.pass_text_append hfits with ⟨beyond, rfl, hclosed, htext⟩ | ⟨hopen, htext⟩
      · have hsuffix := h.suffix hclosed
        rw [hclosed, Option.map_some] at hafter
        rw [htext, marks_cons_blank rfl, withoutInner_of_closed hafter,
          ih beyond hsuffix.length_le fun hmem => hrest (hsuffix.subset hmem)]
      · have hnot : mark = .opener style → afterCloser? style (marks rest) = none := fun hmark => by
          rw [hafter, hopen hmark, Option.map_none]
        rw [htext, marks_text_append (h.fits_pass hfits), withoutInner_of_not_closed hnot,
          ih rest (Nat.le_refl _) hrest]

theorem pass_eq_self_or_length_lt (text : List Char) :
    pass text = text ∨ (pass text).length < text.length := by
  induction text using marks_induction with
  | nil => exact .inl h.nil
  | cons mark rest hfits ih =>
      rcases h.pass_text_append hfits with ⟨beyond, _, hclosed, htext⟩ | ⟨_, htext⟩
      · have hshorter := h.shorter hclosed
        have hpositive := mark.length_text_pos
        have hbeyond : (pass beyond).length ≤ beyond.length :=
          (ih beyond hshorter.le).elim (fun hsame => by rw [hsame]) Nat.le_of_lt
        right
        rw [htext, List.length_cons, List.length_append]
        omega
      · rw [htext, List.length_append, List.length_append]
        exact (ih rest (Nat.le_refl _)).imp (fun hsame => by rw [hsame]) fun hlt => by omega

theorem not_mem_pass {c : Char} (hc : c ≠ ' ') {text : List Char} (hmem : c ∉ text) :
    c ∉ pass text := by
  induction text using marks_induction with
  | nil => rwa [h.nil]
  | cons mark rest hfits ih =>
      have hrest : c ∉ rest := fun h => hmem (List.mem_append_right _ h)
      rcases h.pass_text_append hfits with ⟨beyond, _, hclosed, htext⟩ | ⟨_, htext⟩
      · have hsuffix := h.suffix hclosed
        rw [htext, List.mem_cons]
        exact not_or.mpr ⟨hc, ih beyond hsuffix.length_le fun h => hrest (hsuffix.subset h)⟩
      · rw [htext, List.mem_append]
        exact not_or.mpr ⟨fun h => hmem (List.mem_append_left _ h), ih rest (Nat.le_refl _) hrest⟩

end TakesOut

/-! ## Rounds -/

theorem withoutInnermost_eq_self_or_length_lt (text : List Char) :
    (withoutInnerBraces text = text ∧ withoutInnerStars text = text) ∨
      (withoutInnermost text).length < text.length := by
  rw [withoutInnermost]
  rcases takesOut_braces.pass_eq_self_or_length_lt text with hbraces | hbraces
  · rw [hbraces]
    exact (takesOut_stars.pass_eq_self_or_length_lt text).imp_left fun hstars => ⟨rfl, hstars⟩
  · right
    rcases takesOut_stars.pass_eq_self_or_length_lt (withoutInnerBraces text) with hstars | hstars
    · rwa [hstars]
    · exact hstars.trans hbraces

/-- The rounds end when a further one changes nothing. -/
theorem exists_iterate_withoutInnermost (text : List Char) :
    ∃ rounds, withoutInnermost^[rounds] text = withoutComments text ∧
      withoutInnermost (withoutComments text) = withoutComments text := by
  fun_induction withoutComments text with
  | case1 text _ ih =>
      obtain ⟨rounds, hrounds, hdone⟩ := ih
      exact ⟨rounds + 1, hrounds, hdone⟩
  | case2 text hlength =>
      refine ⟨0, rfl, ?_⟩
      obtain ⟨hbraces, hstars⟩ := (withoutInnermost_eq_self_or_length_lt text).resolve_right hlength
      rw [withoutInnermost, hbraces, hstars]

/-- Round by round the comments of a line go, and nothing else does. -/
theorem withoutComments_of_uncommented? {text rest : List Char} (hfeed : '\n' ∉ text)
    (h : uncommented? [] (marks text) = some rest) :
    withoutComments text = rest ∧ marks rest = rest.map .plain := by
  fun_induction withoutComments text with
  | case1 text _ ih =>
      have hfeedBraces := takesOut_braces.not_mem_pass (by decide) hfeed
      refine ih (takesOut_stars.not_mem_pass (by decide) hfeedBraces) ?_
      rw [withoutInnermost, takesOut_stars.marks_pass hfeedBraces, takesOut_braces.marks_pass hfeed]
      exact uncommented?_withoutInner .star (uncommented?_withoutInner .brace h)
  | case2 text hlength =>
      obtain ⟨hbraces, hstars⟩ := (withoutInnermost_eq_self_or_length_lt text).resolve_right hlength
      have hmarks : marks text = rest.map .plain := by
        refine eq_map_plain_of_uncommented? h fun style => ?_
        cases style with
        | brace => rw [← takesOut_braces.marks_pass hfeed, hbraces]
        | star => rw [← takesOut_stars.marks_pass hfeed, hstars]
      obtain rfl := eq_of_marks_eq_map_plain hmarks
      exact ⟨rfl, hmarks⟩

/-- Where no end of a comment is left there is no closer to leave out. -/
theorem withoutClosers_of_marks {text rest : List Char} (h : marks text = rest.map .plain) :
    withoutClosers text = text := by
  induction text using marks_induction generalizing rest with
  | nil => rfl
  | cons mark others hfits ih =>
      rw [marks_text_append hfits] at h
      obtain ⟨c, behind, rfl, rfl, hbehind⟩ := List.map_eq_cons_iff.mp h.symm
      obtain ⟨_, hcloser, _, hend⟩ := ne_of_fits_plain hfits
      have hothers := ih others (Nat.le_refl _) hbehind.symm
      show withoutClosers (c :: others) = c :: others
      rw [withoutClosers, hothers]
      · exact hcloser
      · exact fun behind hc hrest => hend behind ⟨hc, hrest⟩

theorem hasCode_of_uncommented? {text rest : List Char} (hfeed : '\n' ∉ text)
    (h : uncommented? [] (marks text) = some rest) :
    hasCode text = (!(trim rest).isEmpty && !startsWith ['/', '/'] (trim rest)) := by
  obtain ⟨hrest, hmarks⟩ := withoutComments_of_uncommented? hfeed h
  rw [hasCode, hrest, withoutClosers_of_marks hmarks]

/-! ## The depths behind a line -/

theorem startsWith_of_fits_plain {c : Char} {rest : List Char} (h : (Mark.plain c).Fits rest)
    (style : Style) :
    startsWith style.opener (c :: rest) = false ∧ startsWith style.closer (c :: rest) = false := by
  obtain ⟨hopener, hcloser, hstar, hend⟩ := ne_of_fits_plain h
  rw [← Bool.not_eq_true, ← Bool.not_eq_true, startsWith_iff_isPrefix, startsWith_iff_isPrefix]
  cases style with
  | brace =>
      exact ⟨fun ⟨behind, hbehind⟩ => hopener (List.cons.inj hbehind).1.symm,
        fun ⟨behind, hbehind⟩ => hcloser (List.cons.inj hbehind).1.symm⟩
  | star =>
      exact ⟨fun ⟨behind, hbehind⟩ => hstar behind (List.cons.inj hbehind.symm),
        fun ⟨behind, hbehind⟩ => hend behind (List.cons.inj hbehind.symm)⟩

/-- Every opener that is searched for is read as one. -/
theorem occurrences_opener (style : Style) (text : List Char) :
    occurrences style.opener text = (marks text).count (.opener style) := by
  induction text using marks_induction with
  | nil => rfl
  | cons mark rest hfits ih =>
      have hrest := ih rest (Nat.le_refl _)
      rw [marks_text_append hfits]
      cases mark with
      | opener other =>
          cases other <;> cases style <;>
            simpa [Mark.text, Style.opener, braceOpener, starOpener, occurrences, startsWith,
              List.isPrefixOf] using hrest
      | closer other =>
          cases other <;> cases style <;>
            simpa [Mark.text, Style.opener, Style.closer, braceOpener, braceCloser, starOpener,
              starCloser, occurrences, startsWith, List.isPrefixOf] using hrest
      | plain c =>
          simp [Mark.text, occurrences, (startsWith_of_fits_plain hfits style).1, hrest]

/-- Every closer that is read can be searched for, and one that shares its star with an opener can
be as well. -/
theorem count_closer_le_occurrences (style : Style) (text : List Char) :
    (marks text).count (.closer style) ≤ occurrences style.closer text := by
  induction text using marks_induction with
  | nil => exact Nat.le_refl _
  | cons mark rest hfits ih =>
      have hrest := ih rest (Nat.le_refl _)
      rw [marks_text_append hfits]
      cases mark with
      | plain c =>
          simpa [Mark.text, occurrences, (startsWith_of_fits_plain hfits style).2] using hrest
      | closer other =>
          cases other <;> cases style <;>
            simpa [Mark.text, Style.closer, braceCloser, starCloser, occurrences, startsWith,
              List.isPrefixOf] using hrest
      | opener other =>
          cases other <;> cases style <;>
            simp [Mark.text, Style.opener, Style.closer, braceOpener, starOpener, braceCloser,
              starCloser, occurrences, startsWith, List.isPrefixOf] at hrest ⊢ <;> omega

/-- No comment is open behind a line on which all are closed. -/
theorem after_of_uncommented? {text rest : List Char}
    (h : uncommented? [] (marks text) = some rest) : Depths.after .closed text = .closed := by
  have hclosed (style : Style) :
      0 + occurrences style.opener text - occurrences style.closer text = 0 := by
    have hcount := count_opener_add_count h style
    have hle := count_closer_le_occurrences style text
    rw [List.count_nil] at hcount
    rw [occurrences_opener]
    omega
  exact congrArg₂ Depths.mk (hclosed .brace) (hclosed .star)

theorem firstOpener?_cons (c : Char) (rest : List Char) :
    firstOpener? (c :: rest) =
      if startsWith braceOpener (c :: rest) || startsWith starOpener (c :: rest) then some 0
      else (firstOpener? rest).map (· + 1) := by
  simp only [firstOpener?, position?_cons]
  cases startsWith braceOpener (c :: rest) <;> cases startsWith starOpener (c :: rest) <;>
    cases position? braceOpener rest <;> cases position? starOpener rest <;>
    simp [Nat.add_min_add_right]

/-- What precedes the first opener of a line has no part in its comments. -/
theorem exists_uncommented?_drop {text rest : List Char} {position : Nat}
    (hfirst : firstOpener? text = some position) (h : uncommented? [] (marks text) = some rest) :
    ∃ behind, uncommented? [] (marks (text.drop position)) = some behind := by
  induction text using marks_induction generalizing rest position with
  | nil => cases hfirst
  | cons mark others hfits ih =>
      have hmarks := h
      rw [marks_text_append hfits] at hmarks
      cases mark with
      | closer style => cases hmarks
      | opener style =>
          have hzero : firstOpener? ((Mark.opener style).text ++ others) = some 0 := by
            cases style with
            | brace => exact firstOpener?_cons '{' others
            | star => exact firstOpener?_cons '(' ('*' :: others)
          obtain rfl := Option.some.inj (hzero.symm.trans hfirst)
          exact ⟨rest, h⟩
      | plain c =>
          rw [Mark.text, List.singleton_append, firstOpener?_cons,
            show startsWith braceOpener (c :: others) = false from
              (startsWith_of_fits_plain hfits .brace).1,
            show startsWith starOpener (c :: others) = false from
              (startsWith_of_fits_plain hfits .star).1] at hfirst
          obtain ⟨later, hlater, rfl⟩ := Option.map_eq_some_iff.mp hfirst
          obtain ⟨behind, hbehind, _⟩ := Option.map_eq_some_iff.mp hmarks
          exact ih others (Nat.le_refl _) hlater hbehind

theorem exists_firstOpener? {style : Style} {text : List Char}
    (h : .opener style ∈ marks text) : ∃ position, firstOpener? text = some position := by
  have hoccurs (mark : List Char) (hnone : position? mark text = none) :
      occurrences mark text = 0 :=
    occurrences_eq_zero (by rw [occursIn, hnone]; rfl)
  have hpositive : occurrences style.opener text ≠ 0 := by
    rw [occurrences_opener]
    exact (List.count_pos_iff.mpr h).ne'
  rw [firstOpener?]
  cases hbrace : position? braceOpener text with
  | some brace => cases position? starOpener text <;> exact ⟨_, rfl⟩
  | none =>
      cases hstar : position? starOpener text with
      | some star => exact ⟨star, rfl⟩
      | none =>
          cases style with
          | brace => exact absurd (hoccurs _ hbrace) hpositive
          | star => exact absurd (hoccurs _ hstar) hpositive

/-! ## Lines -/

/-- A line on which the last comment closes that opens there. -/
theorem readLine_of_uncommented? {style : Style} {text rest : List Char} (hfeed : '\n' ∉ text)
    (hslashes : startsWith ['/', '/'] text = false) (hopener : .opener style ∈ marks text)
    (h : uncommented? [] (marks text) = some rest) :
    readLine .closed text =
      (.commentAnd (!(trim rest).isEmpty && !startsWith ['/', '/'] (trim rest)), .closed) := by
  obtain ⟨position, hposition⟩ := exists_firstOpener? hopener
  obtain ⟨behind, hbehind⟩ := exists_uncommented?_drop hposition h
  rw [readLine, if_neg (by decide), if_neg (by rw [hslashes]; decide), hposition]
  simp only [after_of_uncommented? hbehind, hasCode_of_uncommented? hfeed h]
  rfl

instance : DecidableEq Scanner.pascal.State := inferInstanceAs (DecidableEq Depths)

/-- **Nested comments that close on their line.** A line that begins outside of comments, with
something that opens one and with every comment closed by its own closer in the right order, ends
outside of comments. It is a comment. It is code too exactly if what is left is more than white
space and a `//` comment, when each outermost comment is replaced by a space. The rounds of taking
innermost comments out come to just that text. -/
theorem classify_of_nested (before : List Line) {line : Line} {rest : List Char}
    (after : List Line) (hbefore : (Scanner.pascal.run (openBraces 0) before).2 = openBraces 0)
    (hfeed : '\n' ∉ line) (hslashes : startsWith ['/', '/'] (trim line) = false) {style : Style}
    (hopener : .opener style ∈ marks line) (hnested : uncommented? [] (marks line) = some rest) :
    (Scanner.pascal.classify (before ++ line :: after))[before.length]? =
        some (.commentAnd (!(trim rest).isEmpty && !startsWith ['/', '/'] (trim rest))) ∧
      (Scanner.pascal.run (openBraces 0) (before ++ [line])).2 = openBraces 0 ∧
      withoutComments line = rest ∧
      ∃ rounds, withoutInnermost^[rounds] line = rest ∧ withoutInnermost rest = rest := by
  obtain ⟨inside, hinside, htrim⟩ : ∃ inside, uncommented? [] (marks (trim line)) = some inside ∧
      trim inside = trim rest := by
    have hsame := map_trim_uncommented?_trim line
    rw [hnested, Option.map_some] at hsame
    exact Option.map_eq_some_iff.mp hsame
  have hopenerTrim : .opener style ∈ marks (trim line) := by
    rw [← List.count_pos_iff, count_opener_marks_trim, List.count_pos_iff]
    exact hopener
  have hblank : isBlankText line = false := by
    rw [← isEmpty_trim, ← Bool.not_eq_true, List.isEmpty_iff]
    intro hempty
    rw [hempty] at hopenerTrim
    cases hopenerTrim
  have hadvance : Scanner.pascal.advance (openBraces 0) line =
      (.commentAnd (!(trim rest).isEmpty && !startsWith ['/', '/'] (trim rest)),
        openBraces 0) := by
    have hfeedTrim : '\n' ∉ trim line := fun hmem => hfeed ((isInfix_trim line).subset hmem)
    have hread := readLine_of_uncommented? hfeedTrim hslashes hopenerTrim hinside
    rw [htrim] at hread
    exact (advance_of_not_blank hblank 0).trans hread
  obtain ⟨hrest, _⟩ := withoutComments_of_uncommented? hfeed hnested
  refine ⟨?_, ?_, hrest, ?_⟩
  · have hfile : Scanner.pascal.classify (before ++ line :: after) =
        (Scanner.pascal.run (openBraces 0) (before ++ line :: after)).1 :=
      Scanner.classify_eq_run_of_head rfl nofun
    rw [hfile, Scanner.getElem?_run_append_cons, hbefore, hadvance]
  · rw [Scanner.run_append, hbefore, Scanner.run_cons, hadvance]
    rfl
  · obtain ⟨rounds, hrounds, hdone⟩ := exists_iterate_withoutInnermost line
    rw [hrest] at hrounds hdone
    exact ⟨rounds, hrounds, hdone⟩

/-- Comments of both styles within each other, with code between two of them. -/
theorem classify_of_nested_between :
    let before := ["(* open".toList, "close *)".toList]
    let line := "\x7b a (* b \x7b c \x7d *) \x7d y (* d *)".toList
    let rest := "  y  ".toList
    (Scanner.pascal.run (openBraces 0) before).2 = openBraces 0 ∧ '\n' ∉ line ∧
    startsWith ['/', '/'] (trim line) = false ∧ .opener .star ∈ marks line ∧
    uncommented? [] (marks line) = some rest ∧
    (Scanner.pascal.classify (before ++ [line]))[2]? = some (.commentAnd true) := by
  intro before line rest
  have hbefore : (Scanner.pascal.run (openBraces 0) before).2 = openBraces 0 := by decide +kernel
  have hfeed : '\n' ∉ line := by decide +kernel
  have hslashes : startsWith ['/', '/'] (trim line) = false := by decide +kernel
  have hopener : .opener .star ∈ marks line := by decide +kernel
  have hnested : uncommented? [] (marks line) = some rest := by decide +kernel
  exact ⟨hbefore, hfeed, hslashes, hopener, hnested,
    (classify_of_nested before [] hbefore hfeed hslashes hopener hnested).1⟩

end LineCensus.Pascal
