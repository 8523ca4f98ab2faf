/-
# Depths by counting and by walking

Behind a line the scanner for Pascal knows the depth of a style from how often its opener
and its closer occur there. It does not look at their order, and it stops at zero once for
the whole line. Whoever walks along the line instead stops at zero wherever a closer is
met that has nothing to close, and what opens behind such a closer stays open.

So counting never gives more than walking, and it gives the same if every closer on the
walk has something to close. Where the line starts outside of comments the scanner counts
from the first opener only. This spares it the closers in front, which the walk ignores.

In `(*)` an opener and a closer share a star. Both occur there, so both are counted and
both are met on the walk. Marks that share no character are read in `Marks`. A walk over
these may end deeper, but only on a line with `(*)`.
-/

import LineCensus.Proofs.Scanner.Nesting

namespace LineCensus.Pascal

open Text

/-! ## Walking along a text -/

/-- How many comments of a style are open. -/
def Depths.of (depths : Depths) : Style → Nat
  | .brace => depths.brace
  | .star => depths.star

/-- The depth of a style behind the first place of a text: one more at an opener, one less at a
closer, but never below zero. -/
def walkStep (style : Style) (depth : Nat) (text : List Char) : Nat :=
  if startsWith style.opener text then depth + 1
  else if startsWith style.closer text then depth - 1
  else depth

/-- The depth of a style behind a text that is walked along from the left. -/
def walk (style : Style) (depth : Nat) : List Char → Nat
  | [] => depth
  | c :: rest => walk style (walkStep style depth (c :: rest)) rest

/-- Whether a walk along a text meets no closer of a style at depth zero. -/
def ClosesOnlyOpen (style : Style) : Nat → List Char → Prop
  | _, [] => True
  | depth, c :: rest =>
    (startsWith style.closer (c :: rest) = true → depth ≠ 0) ∧
      ClosesOnlyOpen style (walkStep style depth (c :: rest)) rest

instance decidableClosesOnlyOpen (style : Style) :
    (depth : Nat) → (text : List Char) → Decidable (ClosesOnlyOpen style depth text)
  | _, [] => isTrue trivial
  | depth, c :: rest =>
    have := decidableClosesOnlyOpen style (walkStep style depth (c :: rest)) rest
    inferInstanceAs (Decidable ((startsWith style.closer (c :: rest) = true → depth ≠ 0) ∧ _))

/-- A text from its first opener of either style on. -/
def fromOpener : List Char → List Char
  | [] => []
  | c :: rest =>
    if startsWith braceOpener (c :: rest) || startsWith starOpener (c :: rest) then c :: rest
    else fromOpener rest

/-- The part of a line whose openers and closers matter: all of it if some comment is open in front
of it, otherwise what begins with its first opener. -/
def Depths.relevant (depths : Depths) (line : List Char) : List Char :=
  if depths.isOpen then line else fromOpener line

/-! ## Counting against walking -/

theorem startsWith_closer_of_opener {style : Style} {text : List Char}
    (h : startsWith style.opener text = true) : startsWith style.closer text = false := by
  obtain ⟨rest, rfl⟩ := startsWith_iff_isPrefix.mp h
  cases style <;> rfl

/-- At one place the walk changes the depth by what is counted there, unless it stops at zero. -/
theorem walkStep_add (style : Style) (depth : Nat) (text : List Char) :
    depth + (if startsWith style.opener text then 1 else 0) ≤
        walkStep style depth text + (if startsWith style.closer text then 1 else 0) ∧
      ((startsWith style.closer text = true → depth ≠ 0) →
        walkStep style depth text + (if startsWith style.closer text then 1 else 0) =
          depth + (if startsWith style.opener text then 1 else 0)) := by
  cases hopener : startsWith style.opener text with
  | true => simp [walkStep, hopener, startsWith_closer_of_opener hopener]
  | false =>
      cases hcloser : startsWith style.closer text with
      | true =>
          simp only [walkStep, hopener, hcloser, Bool.false_eq_true, ↓reduceIte]
          exact ⟨by omega, fun hopen => by have := hopen trivial; omega⟩
      | false => simp [walkStep, hopener, hcloser]

/-- What is counted on a text is no more than the walk comes to. -/
theorem add_occurrences_le_walk (style : Style) (depth : Nat) (text : List Char) :
    depth + occurrences style.opener text ≤
      walk style depth text + occurrences style.closer text := by
  induction text generalizing depth with
  | nil => exact Nat.le_refl _
  | cons c rest ih =>
      have hstep := (walkStep_add style depth (c :: rest)).1
      have hrest := ih (walkStep style depth (c :: rest))
      rw [walk, occurrences, occurrences]
      omega

/-- A walk that never stops at zero comes to what is counted. -/
theorem walk_add_occurrences {style : Style} {depth : Nat} {text : List Char}
    (h : ClosesOnlyOpen style depth text) :
    walk style depth text + occurrences style.closer text =
      depth + occurrences style.opener text := by
  induction text generalizing depth with
  | nil => rfl
  | cons c rest ih =>
      have hstep := (walkStep_add style depth (c :: rest)).2 h.1
      have hrest := ih h.2
      rw [walk, occurrences, occurrences]
      omega

/-- The depth that is counted for a style. -/
theorem of_after (depths : Depths) (text : List Char) (style : Style) :
    (depths.after text).of style =
      depths.of style + occurrences style.opener text - occurrences style.closer text := by
  cases style <;> rfl

theorem of_after_le_walk (depths : Depths) (text : List Char) (style : Style) :
    (depths.after text).of style ≤ walk style (depths.of style) text := by
  have hcount := add_occurrences_le_walk style (depths.of style) text
  rw [of_after]
  omega

theorem of_after_eq_walk {depths : Depths} {text : List Char} {style : Style}
    (h : ClosesOnlyOpen style (depths.of style) text) :
    (depths.after text).of style = walk style (depths.of style) text := by
  have hcount := walk_add_occurrences h
  rw [of_after]
  omega

/-! ## What precedes the first opener -/

/-- Outside of comments nothing happens in front of the first opener. -/
theorem walk_fromOpener (style : Style) (text : List Char) :
    walk style 0 (fromOpener text) = walk style 0 text := by
  induction text with
  | nil => rfl
  | cons c rest ih =>
      rw [fromOpener]
      split
      · rfl
      · next hnone =>
          have hopener : startsWith style.opener (c :: rest) = false := by
            rw [Bool.or_eq_true, not_or, Bool.not_eq_true, Bool.not_eq_true] at hnone
            cases style
            · exact hnone.1
            · exact hnone.2
          have hstep : walkStep style 0 (c :: rest) = 0 := by simp [walkStep, hopener]
          rw [walk, hstep, ih]

theorem of_eq_zero {depths : Depths} (h : depths.isOpen = false) (style : Style) :
    depths.of style = 0 := by
  rw [Depths.isOpen, Bool.or_eq_false_iff, bne_eq_false_iff_eq, bne_eq_false_iff_eq] at h
  cases style
  · exact h.1
  · exact h.2

/-- It makes no difference to the walk whether it begins with the line or with what is counted. -/
theorem walk_relevant (depths : Depths) (style : Style) (line : List Char) :
    walk style (depths.of style) (depths.relevant line) = walk style (depths.of style) line := by
  rw [Depths.relevant]
  split
  · rfl
  · next hopen =>
      rw [Bool.not_eq_true] at hopen
      rw [of_eq_zero hopen, walk_fromOpener]

theorem fromOpener_eq (text : List Char) :
    fromOpener text = ((firstOpener? text).map text.drop).getD [] := by
  induction text with
  | nil => rfl
  | cons c rest ih =>
      rw [fromOpener, firstOpener?_cons, ih]
      split
      · rfl
      · cases firstOpener? rest <;> rfl

/-- The scanner counts what is relevant of a line, unless it takes all of it for a comment. -/
theorem readLine_eq_after {depths : Depths} {line : Line}
    (hread : depths.isOpen = true ∨ startsWith ['/', '/'] line = false) :
    (readLine depths line).2 = depths.after (depths.relevant line) := by
  rw [readLine, Depths.relevant]
  cases hopen : depths.isOpen with
  | true =>
      simp only [↓reduceIte]
      split <;> rfl
  | false =>
      have hslashes : startsWith ['/', '/'] line = false :=
        hread.resolve_left (by rw [hopen]; decide)
      rw [hslashes, fromOpener_eq]
      simp only [Bool.false_eq_true, ↓reduceIte]
      cases firstOpener? line with
      | none => rfl
      | some position =>
          simp only [Option.map_some, Option.getD_some]
          split <;> rfl

/-! ## White space at the edges -/

theorem Style.isSolid_opener (style : Style) : IsSolid style.opener := by
  cases style <;> decide

theorem Style.isSolid_closer (style : Style) : IsSolid style.closer := by
  cases style <;> decide

section

variable {c : Char} (hc : isBlank c = true)

include hc

theorem walkStep_cons_blank (style : Style) (depth : Nat) (text : List Char) :
    walkStep style depth (c :: text) = depth := by
  rw [walkStep, style.isSolid_opener.startsWith_cons hc, style.isSolid_closer.startsWith_cons hc]
  rfl

theorem walkStep_concat_blank (style : Style) (depth : Nat) (text : List Char) :
    walkStep style depth (text ++ [c]) = walkStep style depth text := by
  rw [walkStep, style.isSolid_opener.startsWith_concat hc,
    style.isSolid_closer.startsWith_concat hc, walkStep]

theorem walk_cons_blank (style : Style) (depth : Nat) (text : List Char) :
    walk style depth (c :: text) = walk style depth text := by
  rw [walk, walkStep_cons_blank hc]

theorem walk_concat_blank (style : Style) (depth : Nat) (text : List Char) :
    walk style depth (text ++ [c]) = walk style depth text := by
  induction text generalizing depth with
  | nil => exact walk_cons_blank hc style depth []
  | cons first rest ih =>
      rw [List.cons_append, walk, ← List.cons_append, walkStep_concat_blank hc, ih, walk]

theorem closesOnlyOpen_cons_blank (style : Style) (depth : Nat) (text : List Char) :
    ClosesOnlyOpen style depth (c :: text) ↔ ClosesOnlyOpen style depth text := by
  rw [ClosesOnlyOpen, walkStep_cons_blank hc, style.isSolid_closer.startsWith_cons hc]
  exact and_iff_right nofun

theorem closesOnlyOpen_concat_blank (style : Style) (depth : Nat) (text : List Char) :
    ClosesOnlyOpen style depth (text ++ [c]) ↔ ClosesOnlyOpen style depth text := by
  induction text generalizing depth with
  | nil => exact closesOnlyOpen_cons_blank hc style depth []
  | cons first rest ih =>
      rw [List.cons_append, ClosesOnlyOpen, ← List.cons_append, walkStep_concat_blank hc, ih,
        style.isSolid_closer.startsWith_concat hc, ClosesOnlyOpen]

theorem fromOpener_cons_blank (text : List Char) : fromOpener (c :: text) = fromOpener text := by
  have hbrace : startsWith braceOpener (c :: text) = false :=
    Style.brace.isSolid_opener.startsWith_cons hc text
  have hstar : startsWith starOpener (c :: text) = false :=
    Style.star.isSolid_opener.startsWith_cons hc text
  rw [fromOpener, hbrace, hstar]
  rfl

theorem fromOpener_concat_blank (text : List Char) :
    fromOpener (text ++ [c]) = if fromOpener text = [] then [] else fromOpener text ++ [c] := by
  induction text with
  | nil => exact fromOpener_cons_blank hc []
  | cons first rest ih =>
      have hbrace : startsWith braceOpener (first :: (rest ++ [c])) =
          startsWith braceOpener (first :: rest) :=
        Style.brace.isSolid_opener.startsWith_concat hc (first :: rest)
      have hstar : startsWith starOpener (first :: (rest ++ [c])) =
          startsWith starOpener (first :: rest) :=
        Style.star.isSolid_opener.startsWith_concat hc (first :: rest)
      rw [List.cons_append, fromOpener, hbrace, hstar, ih, fromOpener]
      split
      · rw [if_neg (List.cons_ne_nil _ _), List.cons_append]
      · rfl

end

theorem walk_trim (style : Style) (depth : Nat) (line : List Char) :
    walk style depth (trim line) = walk style depth line :=
  apply_trim (fun hc => walk_cons_blank hc style depth) (fun hc => walk_concat_blank hc style depth)
    line

/-- White space at the edges of a line closes nothing, so it may be counted with the rest. -/
theorem closesOnlyOpen_relevant_trim (depths : Depths) (style : Style) (line : List Char) :
    ClosesOnlyOpen style (depths.of style) (depths.relevant (trim line)) ↔
      ClosesOnlyOpen style (depths.of style) (depths.relevant line) := by
  refine iff_of_eq (apply_trim
    (f := fun text => ClosesOnlyOpen style (depths.of style) (depths.relevant text)) ?_ ?_ line)
  · intro c hc text
    cases hopen : depths.isOpen
    · simp only [Depths.relevant, hopen, Bool.false_eq_true, ↓reduceIte, fromOpener_cons_blank hc]
    · simp only [Depths.relevant, hopen, ↓reduceIte, closesOnlyOpen_cons_blank hc]
  · intro c hc text
    cases hopen : depths.isOpen
    · -- a blank at the end is relevant only if some opener precedes it
      simp only [Depths.relevant, hopen, Bool.false_eq_true, ↓reduceIte,
        fromOpener_concat_blank hc]
      split
      · next hnone => rw [hnone]
      · exact propext (closesOnlyOpen_concat_blank hc style _ _)
    · simp only [Depths.relevant, hopen, ↓reduceIte, closesOnlyOpen_concat_blank hc]

/-! ## Walking over marks -/

/-- The depth of a style behind a mark. -/
def Mark.walkStep (style : Style) (depth : Nat) : Mark → Nat
  | opener other => if other = style then depth + 1 else depth
  | closer other => if other = style then depth - 1 else depth
  | plain _ => depth

theorem walkStep_mono (style : Style) {depth deeper : Nat} (h : depth ≤ deeper)
    (text : List Char) : walkStep style depth text ≤ walkStep style deeper text := by
  rw [walkStep, walkStep]
  split
  · omega
  · split <;> omega

theorem walk_mono (style : Style) {depth deeper : Nat} (h : depth ≤ deeper) (text : List Char) :
    walk style depth text ≤ walk style deeper text := by
  induction text generalizing depth deeper with
  | nil => exact h
  | cons c rest ih => exact ih (walkStep_mono style h _)

/-- An opener and a closer with one star between them. -/
def sharedStar : List Char := ['(', '*', ')']

/-- A walk passes a mark as one walks over it, unless an opener shares its star with a closer. Then
nothing has changed behind it. -/
theorem walk_text_append {mark : Mark} {rest : List Char} (hfits : mark.Fits rest) (style : Style)
    (depth : Nat) :
    walk style depth (mark.text ++ rest) = walk style (mark.walkStep style depth) rest ∨
      startsWith sharedStar (mark.text ++ rest) = true ∧ mark.walkStep style depth = depth + 1 ∧
        walk style depth (mark.text ++ rest) = walk style depth rest := by
  cases mark with
  | plain c =>
      left
      obtain ⟨hopener, hcloser⟩ := startsWith_of_fits_plain hfits style
      rw [Mark.text, List.singleton_append, walk, Pascal.walkStep, hopener, hcloser]
      rfl
  | closer other =>
      left
      cases other <;> cases style <;> rfl
  | opener other =>
      cases other with
      | brace =>
          left
          cases style <;> rfl
      | star =>
          cases style with
          | brace => exact .inl rfl
          | star =>
              -- the star may be the beginning of a closer
              show walk .star (Pascal.walkStep .star (depth + 1) ('*' :: rest)) rest = _ ∨ _
              cases hshared : startsWith starCloser ('*' :: rest) with
              | false =>
                  left
                  rw [Pascal.walkStep, Style.closer, hshared]
                  rfl
              | true =>
                  right
                  refine ⟨hshared, rfl, ?_⟩
                  show walk .star (Pascal.walkStep .star (depth + 1) ('*' :: rest)) rest = _
                  rw [Pascal.walkStep, Style.closer, hshared]
                  rfl

/-- Walking over marks ends at least as deep. -/
theorem walk_le_foldl_marks (style : Style) (depth : Nat) (text : List Char) :
    walk style depth text ≤ (marks text).foldl (Mark.walkStep style) depth := by
  induction text using marks_induction generalizing depth with
  | nil => exact Nat.le_refl _
  | cons mark rest hfits ih =>
      have hrest := ih rest (Nat.le_refl _) (mark.walkStep style depth)
      rw [marks_text_append hfits, List.foldl_cons]
      rcases walk_text_append hfits style depth with hsame | ⟨_, hdeeper, hback⟩
      · rwa [hsame]
      · have hmono : walk style depth rest ≤ walk style (mark.walkStep style depth) rest :=
          walk_mono style (hdeeper ▸ Nat.le_succ depth) rest
        rw [hback]
        exact hmono.trans hrest

/-- Where no star is shared, walking along a text is walking over its marks. -/
theorem walk_eq_foldl_marks {text : List Char} (h : occursIn sharedStar text = false)
    (style : Style) (depth : Nat) :
    walk style depth text = (marks text).foldl (Mark.walkStep style) depth := by
  induction text using marks_induction generalizing depth with
  | nil => rfl
  | cons mark rest hfits ih =>
      have hrest := occursIn_eq_false_of_isInfix h (List.suffix_append mark.text rest).isInfix
      have hsame : walk style depth (mark.text ++ rest) =
          walk style (mark.walkStep style depth) rest := by
        refine (walk_text_append hfits style depth).resolve_right fun hshared => ?_
        rw [startsWith_eq_false h] at hshared
        cases hshared.1
      rw [hsame, marks_text_append hfits, List.foldl_cons, ih rest (Nat.le_refl _) hrest]

/-! ## Lines -/

/-- **Counting never gives more than walking.** Behind a line that is not blank, and that is not
taken for a `//` comment as a whole, the depth of each style is at most what a walk along the line
comes to. It is the same if the walk meets no closer at depth zero, where a walk from outside of
comments need only begin with the first opener. A walk over marks that share no character ends at
least as deep, and it ends in the same depth on a line without `(*)`. -/
theorem depths_advance_le_walk (depths : Depths) (line : Line) (hline : isBlankText line = false)
    (hread : depths.isOpen = true ∨ startsWith ['/', '/'] (trim line) = false) (style : Style) :
    let after : Depths := (Scanner.pascal.advance depths line).2
    let walked := walk style (depths.of style) line
    after.of style ≤ walked ∧
      (ClosesOnlyOpen style (depths.of style) (depths.relevant line) → after.of style = walked) ∧
      walk style (depths.of style) (depths.relevant line) = walked ∧
      walked ≤ (marks line).foldl (Mark.walkStep style) (depths.of style) ∧
      (occursIn sharedStar line = false →
        walked = (marks line).foldl (Mark.walkStep style) (depths.of style)) := by
  intro after walked
  have hafter : after = depths.after (depths.relevant (trim line)) := by
    rw [← readLine_eq_after hread]
    exact congrArg Prod.snd (if_neg (by rw [hline]; decide))
  have hwalked : walk style (depths.of style) (depths.relevant (trim line)) = walked := by
    rw [walk_relevant, walk_trim]
  refine ⟨?_, fun hcloses => ?_, walk_relevant depths style line, walk_le_foldl_marks style _ line,
    fun hshared => walk_eq_foldl_marks hshared style _⟩
  · rw [hafter, ← hwalked]
    exact of_after_le_walk depths _ style
  · rw [hafter, ← hwalked]
    exact of_after_eq_walk ((closesOnlyOpen_relevant_trim depths style line).mpr hcloses)

/-- A closing brace too many on a line that goes on: the brace that opens behind it is open on the
walk, but by the count it makes up for the one that closed nothing. The other style is counted as it
is walked. -/
theorem depths_advance_le_walk_of_stray :
    let depths : Depths := ⟨1, 0⟩
    let line : Line := " a (* \x7d \x7d b \x7b *) (* ".toList
    let after : Depths := (Scanner.pascal.advance depths line).2
    isBlankText line = false ∧ depths.isOpen = true ∧
    ¬ ClosesOnlyOpen .brace 1 (depths.relevant line) ∧
    ClosesOnlyOpen .star 0 (depths.relevant line) ∧
    after = ⟨0, 1⟩ ∧ after.of .brace ≤ walk .brace 1 line ∧ walk .brace 1 line = 1 ∧
    after.of .star = walk .star 0 line := by
  intro depths line after
  have hline : isBlankText line = false := by decide +kernel
  have hstar : ClosesOnlyOpen .star 0 (depths.relevant line) := by decide +kernel
  have hread : (readLine depths (trim line)).2 = ⟨0, 1⟩ := by decide +kernel
  have hafter : after = ⟨0, 1⟩ := (congrArg Prod.snd (if_neg (by rw [hline]; decide))).trans hread
  obtain ⟨hbrace, _⟩ := depths_advance_le_walk depths line hline (.inl rfl) .brace
  obtain ⟨_, hsame, _⟩ := depths_advance_le_walk depths line hline (.inl rfl) .star
  exact ⟨hline, rfl, by decide +kernel, hstar, hafter, hbrace, by decide +kernel, hsame hstar⟩

end LineCensus.Pascal
