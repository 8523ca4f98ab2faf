/-
# Pascal with braces for its only comments

In a file without the other comment syntax, and without a closing brace too many, the
depth that the scanner counts line by line is the number of braces that are open at the
end of the line. Where in a line they open and close is another matter. On a line that
starts or ends inside a comment the scanner looks for code at one edge alone: in front
of the first comment if the line starts outside, behind the last one if it ends outside.

Whatever stands between a comment that closes and another one that opens on such a line
is taken for a part of the comments.
-/

import LineCensus.Proofs.Scanner.Concatenation
import LineCensus.Proofs.Text.Search

namespace LineCensus.Pascal

open Text

/-! ## Braces by position -/

/-- Whether a text has no comment syntax but braces. -/
def IsBraceOnly (text : List Char) : Prop :=
  ∀ mark ∈ [starOpener, starCloser, ['/', '/']], occursIn mark text = false

/-- How many braces are open after a character. -/
def braceStep (depth : Nat) (c : Char) : Nat :=
  if c = '{' then depth + 1 else if c = '}' then depth - 1 else depth

/-- How many braces are open after a text. -/
def braceDepth (depth : Nat) (text : List Char) : Nat :=
  text.foldl braceStep depth

/-- Whether every closing brace of a text closes one that is open. -/
def IsNested : Nat → List Char → Prop
  | _, [] => True
  | depth, c :: rest => (c = '}' → depth ≠ 0) ∧ IsNested (braceStep depth c) rest

/-- What of a text is outside every comment, the braces left out. -/
def outside : Nat → List Char → List Char
  | _, [] => []
  | depth, c :: rest =>
    if depth = 0 ∧ c ≠ '{' ∧ c ≠ '}' then c :: outside (braceStep depth c) rest
    else outside (braceStep depth c) rest

/-- The part of a line in which code is looked for when the line starts or ends inside a comment:
what precedes its first comment or what follows its last. -/
def edge (depth : Nat) (line : Line) : List Char :=
  if depth = 0 then line.takeWhile (· != '{')
  else if braceDepth depth line = 0 then line.rtakeWhile (· != '}')
  else []

instance (text : List Char) : Decidable (IsBraceOnly text) :=
  inferInstanceAs (Decidable (∀ mark ∈ [starOpener, starCloser, ['/', '/']], _))

instance decidableIsNested : (depth : Nat) → (text : List Char) → Decidable (IsNested depth text)
  | _, [] => isTrue trivial
  | depth, c :: rest =>
    have := decidableIsNested (braceStep depth c) rest
    inferInstanceAs (Decidable ((c = '}' → depth ≠ 0) ∧ _))

theorem IsBraceOnly.of_isInfix {text whole : List Char} (h : IsBraceOnly whole)
    (hpart : text <:+: whole) : IsBraceOnly text :=
  fun mark hmem => occursIn_eq_false_of_isInfix (h mark hmem) hpart

theorem braceDepth_append (depth : Nat) (first second : List Char) :
    braceDepth depth (first ++ second) = braceDepth (braceDepth depth first) second :=
  List.foldl_append

theorem isNested_append {depth : Nat} {first second : List Char} :
    IsNested depth (first ++ second) ↔
      IsNested depth first ∧ IsNested (braceDepth depth first) second := by
  induction first generalizing depth with
  | nil => exact (and_iff_right trivial).symm
  | cons c first ih => rw [List.cons_append, IsNested, ih, IsNested, and_assoc]; rfl

theorem outside_append (depth : Nat) (first second : List Char) :
    outside depth (first ++ second) =
      outside depth first ++ outside (braceDepth depth first) second := by
  induction first generalizing depth with
  | nil => rfl
  | cons c first ih =>
      rw [List.cons_append, outside, outside, ih]
      split <;> rfl

theorem braceStep_add_count {depth : Nat} {c : Char} (h : c = '}' → depth ≠ 0) :
    braceStep depth c + (if c == '}' then 1 else 0) = depth + (if c == '{' then 1 else 0) := by
  by_cases hopener : c = '{'
  · simp [braceStep, hopener]
  · by_cases hcloser : c = '}'
    · obtain ⟨more, rfl⟩ := Nat.exists_eq_succ_of_ne_zero (h hcloser)
      simp [braceStep, hcloser]
    · simp [braceStep, hopener, hcloser]

/-- Braces that are open were opened and not closed. -/
theorem braceDepth_add_count {depth : Nat} {text : List Char} (h : IsNested depth text) :
    braceDepth depth text + text.count '}' = depth + text.count '{' := by
  induction text generalizing depth with
  | nil => rfl
  | cons c rest ih =>
      have hstep := braceStep_add_count h.1
      have hrest := ih h.2
      rw [braceDepth, List.foldl_cons, ← braceDepth, List.count_cons, List.count_cons]
      omega

/-! ## Texts without braces -/

section

variable {text : List Char} (hopener : '{' ∉ text) (hcloser : '}' ∉ text)

include hopener hcloser

theorem braceStep_of_mem {c : Char} (hmem : c ∈ text) (depth : Nat) :
    braceStep depth c = depth := by
  have hne : c ≠ '{' ∧ c ≠ '}' :=
    ⟨fun h => hopener (h ▸ hmem), fun h => hcloser (h ▸ hmem)⟩
  rw [braceStep, if_neg hne.1, if_neg hne.2]

theorem braceDepth_of_no_brace (depth : Nat) : braceDepth depth text = depth := by
  induction text with
  | nil => rfl
  | cons c rest ih =>
      rw [braceDepth, List.foldl_cons, braceStep_of_mem hopener hcloser List.mem_cons_self]
      exact ih (List.not_mem_of_not_mem_cons hopener) (List.not_mem_of_not_mem_cons hcloser)

theorem outside_of_no_brace : outside 0 text = text := by
  induction text with
  | nil => rfl
  | cons c rest ih =>
      have hstep := braceStep_of_mem hopener hcloser List.mem_cons_self 0
      rw [outside, hstep, if_pos
        ⟨rfl, (List.ne_of_not_mem_cons hopener).symm, (List.ne_of_not_mem_cons hcloser).symm⟩,
        ih (List.not_mem_of_not_mem_cons hopener) (List.not_mem_of_not_mem_cons hcloser)]

end

/-- Outside every comment nothing can close before something opens. -/
theorem closer_not_mem {text : List Char} (h : IsNested 0 text) (hopener : '{' ∉ text) :
    '}' ∉ text := by
  have hcount := braceDepth_add_count h
  rw [List.count_eq_zero.mpr hopener] at hcount
  exact List.count_eq_zero.mp (by omega)

theorem brace_not_mem_of_isBlankText {text : List Char} (h : isBlankText text = true) :
    '{' ∉ text ∧ '}' ∉ text := by
  have hblank := List.all_eq_true.mp h
  exact ⟨fun hmem => absurd (hblank _ hmem) (by decide),
    fun hmem => absurd (hblank _ hmem) (by decide)⟩

theorem braceDepth_trim (depth : Nat) (line : Line) :
    braceDepth depth (trim line) = braceDepth depth line := by
  obtain ⟨before, after, hbefore, hafter, hline⟩ := exists_eq_append_trim line
  obtain ⟨hopener, hcloser⟩ := brace_not_mem_of_isBlankText hbefore
  obtain ⟨hopener', hcloser'⟩ := brace_not_mem_of_isBlankText hafter
  conv_rhs => rw [hline]
  rw [braceDepth_append, braceDepth_append, braceDepth_of_no_brace hopener hcloser,
    braceDepth_of_no_brace hopener' hcloser']

theorem IsNested.trim {depth : Nat} {line : Line} (h : IsNested depth line) :
    IsNested depth (trim line) := by
  obtain ⟨before, after, hbefore, _, hline⟩ := exists_eq_append_trim line
  obtain ⟨hopener, hcloser⟩ := brace_not_mem_of_isBlankText hbefore
  rw [hline, isNested_append, isNested_append, braceDepth_of_no_brace hopener hcloser] at h
  exact h.1.2

/-! ## What the scanner makes of a line -/

/-- Taking comments out changes nothing where none can begin. -/
theorem withoutInnerBraces_eq_self {text : List Char} (hopener : '{' ∉ text) :
    withoutInnerBraces text = text := by
  induction text with
  | nil => rw [withoutInnerBraces]
  | cons c rest ih =>
      rw [withoutInnerBraces, if_neg (List.ne_of_not_mem_cons hopener).symm,
        ih (List.not_mem_of_not_mem_cons hopener)]

theorem withoutInnerStars_eq_self {text : List Char} (h : occursIn starOpener text = false) :
    withoutInnerStars text = text := by
  induction text with
  | nil => rw [withoutInnerStars]
  | cons c rest ih =>
      rw [occursIn_cons, Bool.or_eq_false_iff] at h
      rw [withoutInnerStars, if_neg (by rw [h.1]; decide), ih h.2]

theorem withoutClosers_eq_self {text : List Char} (hcloser : '}' ∉ text)
    (h : occursIn starCloser text = false) : withoutClosers text = text := by
  fun_induction withoutClosers text with
  | case1 => rfl
  | case2 rest => exact absurd List.mem_cons_self hcloser
  | case3 rest =>
      rw [occursIn_cons] at h
      cases h
  | case4 c rest _ _ ih =>
      rw [occursIn_cons, Bool.or_eq_false_iff] at h
      rw [ih (List.not_mem_of_not_mem_cons hcloser) h.2]

/-- Without comments, whatever is not white space is code. -/
theorem hasCode_of_no_brace {text : List Char} (hbraces : IsBraceOnly text) (hopener : '{' ∉ text)
    (hcloser : '}' ∉ text) : hasCode text = !isBlankText text := by
  have hstarOpener := hbraces starOpener (by simp)
  have hstarCloser := hbraces starCloser (by simp)
  have hslashes := (hbraces.of_isInfix (isInfix_trim text)) ['/', '/'] (by simp)
  have hinnermost : withoutInnermost text = text := by
    rw [withoutInnermost, withoutInnerBraces_eq_self hopener, withoutInnerStars_eq_self hstarOpener]
  have hcomments : withoutComments text = text := by
    rw [withoutComments, hinnermost, if_neg (Nat.lt_irrefl _)]
  simp only [hasCode, hcomments, withoutClosers_eq_self hcloser hstarCloser, isEmpty_trim,
    startsWith_eq_false hslashes, Bool.not_false, Bool.and_true]

section

variable {depth : Nat} {text : List Char} (hbraces : IsBraceOnly text)

include hbraces

/-- The depth that the scanner counts is the number of open braces. -/
theorem after_eq (hnested : IsNested depth text) :
    Depths.after ⟨depth, 0⟩ text = ⟨braceDepth depth text, 0⟩ := by
  have hcount := braceDepth_add_count hnested
  simp only [Depths.after, occurrences_eq_zero (hbraces starOpener (by simp)),
    occurrences_eq_zero (hbraces starCloser (by simp)), braceOpener, braceCloser,
    occurrences_singleton, Depths.mk.injEq, and_true]
  omega

theorem readLine_of_still_open (hnested : IsNested depth text) (hdepth : depth ≠ 0)
    (hstop : braceDepth depth text ≠ 0) :
    readLine ⟨depth, 0⟩ text = (.commentLine, ⟨braceDepth depth text, 0⟩) := by
  simp [readLine, after_eq hbraces hnested, Depths.isOpen, hdepth, hstop]

end

/-- A line on which the last open comment closes. -/
theorem readLine_of_closing {depth : Nat} {front rest : List Char}
    (hbraces : IsBraceOnly (front ++ '}' :: rest)) (hnested : IsNested depth (front ++ '}' :: rest))
    (hdepth : depth ≠ 0) (hstop : braceDepth depth (front ++ '}' :: rest) = 0)
    (hopener : '{' ∉ rest) (hcloser : '}' ∉ rest) :
    readLine ⟨depth, 0⟩ (front ++ '}' :: rest) = (.commentAnd (!isBlankText rest), ⟨0, 0⟩) := by
  have hafter := after_eq hbraces hnested
  rw [hstop] at hafter
  have htail : tailAfterClosing ⟨depth, 0⟩ ⟨0, 0⟩ (front ++ '}' :: rest) = rest := by
    have hshorter : rest.length < (front ++ '}' :: rest).length := by
      rw [List.length_append, List.length_cons]
      omega
    simp only [tailAfterClosing, braceCloser, afterLast_singleton_append hcloser, ne_eq, hdepth,
      not_false_eq_true, not_true_eq_false, and_self, and_true, ↓reduceIte]
    exact if_pos hshorter
  have hrest : IsBraceOnly rest :=
    hbraces.of_isInfix ((List.suffix_cons _ rest).trans (List.suffix_append front _)).isInfix
  have hopen : Depths.isOpen ⟨depth, 0⟩ = true := by simp [Depths.isOpen, hdepth]
  rw [readLine, if_pos hopen]
  simp only [hafter, htail, hasCode_of_no_brace hrest hopener hcloser]
  rfl

/-- A line outside every comment on which none begins. -/
theorem readLine_of_no_opener {text : List Char} (hbraces : IsBraceOnly text)
    (hopener : '{' ∉ text) : readLine ⟨0, 0⟩ text = (.codeLine, ⟨0, 0⟩) := by
  have hslashes := startsWith_eq_false (hbraces ['/', '/'] (by simp))
  have hnone : firstOpener? text = none := by
    have hbrace : occursIn braceOpener text = false := by
      rwa [← Bool.not_eq_true, braceOpener, occursIn_singleton]
    rw [firstOpener?, position?_eq_none hbrace, position?_eq_none (hbraces starOpener (by simp))]
  simp [readLine, Depths.isOpen, hslashes, hnone]

/-- A line outside every comment on which the first one begins. -/
theorem readLine_of_opening {front rest : List Char} (hbraces : IsBraceOnly (front ++ '{' :: rest))
    (hnested : IsNested 0 (front ++ '{' :: rest)) (hopener : '{' ∉ front) :
    readLine ⟨0, 0⟩ (front ++ '{' :: rest) =
      (.commentAnd (if braceDepth 0 (front ++ '{' :: rest) = 0 then hasCode (front ++ '{' :: rest)
        else !isBlankText front), ⟨braceDepth 0 (front ++ '{' :: rest), 0⟩) := by
  have hslashes := startsWith_eq_false (hbraces ['/', '/'] (by simp))
  have hfirst : firstOpener? (front ++ '{' :: rest) = some front.length := by
    rw [firstOpener?, braceOpener, position?_singleton_append hopener,
      position?_eq_none (hbraces starOpener (by simp))]
  obtain ⟨hfront, hrest⟩ := isNested_append.mp hnested
  have hstart : braceDepth 0 front = 0 :=
    braceDepth_of_no_brace hopener (closer_not_mem hfront hopener) 0
  have hafter : Depths.after ⟨0, 0⟩ ('{' :: rest) = ⟨braceDepth 0 (front ++ '{' :: rest), 0⟩ := by
    rw [hstart] at hrest
    rw [after_eq (hbraces.of_isInfix (List.suffix_append front _).isInfix) hrest, braceDepth_append,
      hstart]
  rw [readLine, if_neg (by decide), if_neg (by rw [hslashes]; decide), hfirst]
  simp only [List.drop_left, List.take_left, hafter, Depths.isOpen]
  by_cases hstop : braceDepth 0 (front ++ '{' :: rest) = 0 <;> simp [hstop]

/-- Whatever a line holds, the depth after it is the number of open braces. -/
theorem readLine_snd {depth : Nat} {text : List Char} (hbraces : IsBraceOnly text)
    (hnested : IsNested depth text) :
    (readLine ⟨depth, 0⟩ text).2 = ⟨braceDepth depth text, 0⟩ := by
  by_cases hdepth : depth = 0
  · subst hdepth
    by_cases hopener : '{' ∈ text
    · obtain ⟨front, rest, rfl, hfront⟩ := List.eq_append_cons_of_mem hopener
      rw [readLine_of_opening hbraces hnested hfront]
    · rw [readLine_of_no_opener hbraces hopener,
        braceDepth_of_no_brace hopener (closer_not_mem hnested hopener)]
  · have hopen : Depths.isOpen ⟨depth, 0⟩ = true := by simp [Depths.isOpen, hdepth]
    rw [readLine, if_pos hopen]
    simp only [after_eq hbraces hnested]
    split <;> rfl

/-! ## Lines that start or end inside a comment -/

/-- How a line that starts or ends inside a comment is divided. -/
inductive Crossing : Nat → List Char → Prop
  /-- It starts and ends inside. -/
  | goesOn {depth : Nat} {line : List Char} (hstart : depth ≠ 0)
      (hstop : braceDepth depth line ≠ 0) : Crossing depth line
  /-- It starts outside, and something precedes its first comment. -/
  | opens {front rest : List Char} (hopener : '{' ∉ front)
      (hstop : braceDepth 0 (front ++ '{' :: rest) ≠ 0) : Crossing 0 (front ++ '{' :: rest)
  /-- It ends outside, and something follows its last comment. -/
  | closes {depth : Nat} {front rest : List Char} (hstart : depth ≠ 0) (hopener : '{' ∉ rest)
      (hcloser : '}' ∉ rest) (hstop : braceDepth depth (front ++ '}' :: rest) = 0) :
      Crossing depth (front ++ '}' :: rest)

theorem edge_of_goesOn {depth : Nat} {line : Line} (hstart : depth ≠ 0)
    (hstop : braceDepth depth line ≠ 0) : edge depth line = [] := by
  rw [edge, if_neg hstart, if_neg hstop]

theorem edge_of_opens {front : List Char} (hopener : '{' ∉ front) (rest : List Char) :
    edge 0 (front ++ '{' :: rest) = front := by
  have hkeep : ∀ c ∈ front, (c != '{') = true := fun c hmem =>
    bne_iff_ne.mpr fun h => hopener (h ▸ hmem)
  rw [edge, if_pos rfl, List.takeWhile_append_of_pos hkeep, List.takeWhile_cons_of_neg (by decide),
    List.append_nil]

theorem edge_of_closes {depth : Nat} {front rest : List Char} (hstart : depth ≠ 0)
    (hcloser : '}' ∉ rest) (hstop : braceDepth depth (front ++ '}' :: rest) = 0) :
    edge depth (front ++ '}' :: rest) = rest := by
  have hkeep : ∀ c ∈ rest.reverse, (c != '}') = true := fun c hmem =>
    bne_iff_ne.mpr fun h => hcloser (h ▸ List.mem_reverse.mp hmem)
  have hreverse : (front ++ '}' :: rest).reverse = rest.reverse ++ '}' :: front.reverse := by
    simp
  rw [edge, if_neg hstart, if_pos hstop, List.rtakeWhile, hreverse,
    List.takeWhile_append_of_pos hkeep, List.takeWhile_cons_of_neg (by decide), List.append_nil,
    List.reverse_reverse]

section

variable {depth : Nat} {line : Line} (hnested : IsNested depth line)
  (hinside : depth ≠ 0 ∨ braceDepth depth line ≠ 0)

include hnested hinside

theorem crossing : Crossing depth line := by
  have hcount := braceDepth_add_count hnested
  by_cases hstart : depth = 0
  · subst hstart
    have hmem : '{' ∈ line := by
      rw [← List.count_pos_iff]
      omega
    obtain ⟨front, rest, rfl, hopener⟩ := List.eq_append_cons_of_mem hmem
    exact .opens hopener (hinside.resolve_left (not_not_intro rfl))
  · by_cases hstop : braceDepth depth line = 0
    · have hmem : '}' ∈ line.reverse := by
        rw [List.mem_reverse, ← List.count_pos_iff]
        omega
      obtain ⟨rest, front, hreverse, hcloser⟩ := List.eq_append_cons_of_mem hmem
      obtain rfl : line = front.reverse ++ '}' :: rest.reverse := by
        rw [← List.reverse_reverse line, hreverse]
        simp
      rw [← List.mem_reverse] at hcloser
      refine .closes hstart ?_ hcloser hstop
      -- what opens behind the last closing brace would still be open
      rw [List.append_cons, isNested_append] at hnested
      have hrest := braceDepth_add_count hnested.2
      rw [← braceDepth_append, ← List.append_cons, hstop, List.count_eq_zero.mpr hcloser] at hrest
      exact List.count_eq_zero.mp (by omega)
    · exact .goesOn hstart hstop

/-- The edge of a line is outside every comment. -/
theorem edge_sublist_outside : (edge depth line).Sublist (outside depth line) := by
  cases crossing hnested hinside with
  | goesOn hstart hstop =>
      rw [edge_of_goesOn hstart hstop]
      exact List.nil_sublist _
  | @opens front rest hopener hstop =>
      have hcloser := closer_not_mem (isNested_append.mp hnested).1 hopener
      rw [edge_of_opens hopener, outside_append, outside_of_no_brace hopener hcloser]
      exact List.sublist_append_left front _
  | @closes _ front rest hstart hopener hcloser hstop =>
      rw [edge_of_closes hstart hcloser hstop, List.append_cons, outside_append]
      rw [List.append_cons, braceDepth_append, braceDepth_of_no_brace hopener hcloser] at hstop
      rw [hstop, outside_of_no_brace hopener hcloser]
      exact List.sublist_append_right _ rest

/-- White space around a line makes no difference to whether there is code at its edge. -/
theorem isBlankText_edge_trim :
    isBlankText (edge depth (trim line)) = isBlankText (edge depth line) := by
  obtain ⟨before, after, hbefore, hafter, hline⟩ := exists_eq_append_trim line
  have hsame := braceDepth_trim depth line
  have hcrossing : Crossing depth (trim line) := crossing hnested.trim (by rwa [hsame])
  generalize trim line = text at hline hsame hcrossing ⊢
  subst hline
  cases hcrossing with
  | goesOn hstart hstop =>
      rw [edge_of_goesOn hstart hstop, edge_of_goesOn hstart (by rwa [← hsame])]
  | @opens front rest hopener hstop =>
      have hopener' : '{' ∉ before ++ front := fun h =>
        (List.mem_append.mp h).elim (brace_not_mem_of_isBlankText hbefore).1 hopener
      have hsplit : before ++ (front ++ '{' :: rest) ++ after =
          (before ++ front) ++ '{' :: (rest ++ after) := by
        simp
      rw [hsplit, edge_of_opens hopener, edge_of_opens hopener', isBlankText_append, hbefore,
        Bool.true_and]
  | @closes _ front rest hstart hopener hcloser hstop =>
      have hcloser' : '}' ∉ rest ++ after := fun h =>
        (List.mem_append.mp h).elim hcloser (brace_not_mem_of_isBlankText hafter).2
      have hsplit : before ++ (front ++ '}' :: rest) ++ after =
          (before ++ front) ++ '}' :: (rest ++ after) := by
        simp
      rw [hsplit] at hsame ⊢
      rw [edge_of_closes hstart hcloser hstop,
        edge_of_closes hstart hcloser' (hsame.symm.trans hstop), isBlankText_append, hafter,
        Bool.and_true]

/-- On a line that starts or ends inside a comment only the edge matters. -/
theorem readLine_fst (hbraces : IsBraceOnly line) :
    (readLine ⟨depth, 0⟩ line).1 = .commentAnd (!isBlankText (edge depth line)) := by
  cases crossing hnested hinside with
  | goesOn hstart hstop =>
      rw [edge_of_goesOn hstart hstop, readLine_of_still_open hbraces hnested hstart hstop]
      rfl
  | opens hopener hstop =>
      rw [edge_of_opens hopener, readLine_of_opening hbraces hnested hopener, if_neg hstop]
  | closes hstart hopener hcloser hstop =>
      rw [edge_of_closes hstart hcloser hstop,
        readLine_of_closing hbraces hnested hstart hstop hopener hcloser]

end

/-! ## Files -/

/-- What is known between two lines where some braces are open and nothing else is. -/
def openBraces (depth : Nat) : Scanner.pascal.State := Depths.mk depth 0

theorem advance_of_not_blank {line : Line} (hline : isBlankText line = false) (depth : Nat) :
    Scanner.pascal.advance (openBraces depth) line = readLine ⟨depth, 0⟩ (trim line) :=
  if_neg (by rw [hline]; decide)

/-- From one line to the next the scanner knows how many braces are open. -/
theorem advance_snd {depth : Nat} {line : Line} (hbraces : IsBraceOnly line)
    (hnested : IsNested depth line) :
    (Scanner.pascal.advance (openBraces depth) line).2 = openBraces (braceDepth depth line) := by
  cases hline : isBlankText line with
  | true =>
      obtain ⟨hopener, hcloser⟩ := brace_not_mem_of_isBlankText hline
      rw [braceDepth_of_no_brace hopener hcloser]
      exact congrArg Prod.snd (if_pos hline)
  | false =>
      rw [advance_of_not_blank hline, ← braceDepth_trim]
      exact readLine_snd (hbraces.of_isInfix (isInfix_trim line)) hnested.trim

theorem run_snd {depth : Nat} {lines : List Line} (hbraces : ∀ line ∈ lines, IsBraceOnly line)
    (hnested : IsNested depth lines.flatten) :
    (Scanner.pascal.run (openBraces depth) lines).2 =
      openBraces (braceDepth depth lines.flatten) := by
  induction lines generalizing depth with
  | nil => rfl
  | cons line rest ih =>
      obtain ⟨hline, hrest⟩ := List.forall_mem_cons.mp hbraces
      rw [List.flatten_cons, isNested_append] at hnested
      rw [Scanner.run_cons, List.flatten_cons, braceDepth_append, advance_snd hline hnested.1]
      exact ih hrest hnested.2

/-- **Between two comments code goes unseen.** In a file whose only comments are in braces, none of
them closed too often, a line that starts or ends inside a comment is a comment, and it is code too
if there is code at its edge. The edge is outside every comment, so a line is never wrongly taken
for code. It is rightly taken for none exactly if it has no code outside its comments but at the
edge. -/
theorem classify_sees_edge (before : List Line) (line : Line) (after : List Line)
    (hbraces : ∀ other ∈ before ++ line :: after, IsBraceOnly other)
    (hnested : IsNested 0 (before ++ line :: after).flatten) (hline : isBlankText line = false)
    (hinside : braceDepth 0 before.flatten ≠ 0 ∨ braceDepth 0 (before ++ [line]).flatten ≠ 0) :
    let depth := braceDepth 0 before.flatten
    let kind := LineKind.commentAnd (!isBlankText (edge depth line))
    (Scanner.pascal.classify (before ++ line :: after))[before.length]? = some kind ∧
      kind.comment = true ∧
      (edge depth line).Sublist (outside depth line) ∧
      ((kind.code = true ↔ isBlankText (outside depth line) = false) ↔
        (isBlankText (outside depth line) = false → isBlankText (edge depth line) = false)) := by
  intro depth kind
  rw [List.flatten_append, List.flatten_cons, isNested_append, isNested_append] at hnested
  obtain ⟨hnestedBefore, hnestedLine, _⟩ := hnested
  have hinsideLine : depth ≠ 0 ∨ braceDepth depth line ≠ 0 := by
    rwa [List.flatten_append, List.flatten_singleton, braceDepth_append] at hinside
  have hbracesBefore : ∀ other ∈ before, IsBraceOnly other := fun other hmem =>
    hbraces other (List.mem_append_left _ hmem)
  have hbracesText : IsBraceOnly (trim line) :=
    (hbraces line (by simp)).of_isInfix (isInfix_trim line)
  have hkind : (Scanner.pascal.advance (openBraces depth) line).1 = kind := by
    rw [advance_of_not_blank hline, readLine_fst hnestedLine.trim
      (by rwa [braceDepth_trim]) hbracesText, isBlankText_edge_trim hnestedLine hinsideLine]
  have hsublist := edge_sublist_outside hnestedLine hinsideLine
  refine ⟨?_, rfl, hsublist, ?_⟩
  · have hfile : Scanner.pascal.classify (before ++ line :: after) =
        (Scanner.pascal.run (openBraces 0) (before ++ line :: after)).1 :=
      Scanner.classify_eq_run_of_head rfl nofun
    have hlength := Scanner.length_run Scanner.pascal (openBraces 0) before
    rw [hfile, Scanner.run_append, run_snd hbracesBefore hnestedBefore, Scanner.run_cons]
    dsimp only
    rw [List.getElem?_append_right hlength.le, hlength, Nat.sub_self, List.getElem?_cons_zero,
      hkind]
  · have hcode : kind.code = !isBlankText (edge depth line) := rfl
    have hseen : isBlankText (edge depth line) = false →
        isBlankText (outside depth line) = false := by
      rw [← Bool.not_eq_true, ← Bool.not_eq_true, isBlankText, isBlankText]
      exact mt fun hall => List.all_eq_true.mpr fun c hmem =>
        List.all_eq_true.mp hall c (hsublist.subset hmem)
    rw [hcode, Bool.not_eq_true']
    exact ⟨fun h => h.mpr, fun h => ⟨hseen, h⟩⟩

/-- Code behind a comment that closes and in front of another on the same line. -/
theorem classify_sees_edge_not_between :
    let before := ["\x7b open".toList]
    let line := "\x7d y \x7b z \x7d".toList
    (∀ other ∈ before ++ [line], IsBraceOnly other) ∧ IsNested 0 (before ++ [line]).flatten ∧
    isBlankText (outside (braceDepth 0 before.flatten) line) = false ∧
    (Scanner.pascal.classify (before ++ [line]))[1]? = some .commentLine := by
  intro before line
  have hbraces : ∀ other ∈ before ++ [line], IsBraceOnly other := by decide +kernel
  have hnested : IsNested 0 (before ++ [line]).flatten := by decide +kernel
  have hedge : isBlankText (edge (braceDepth 0 before.flatten) line) = true := by decide +kernel
  obtain ⟨hkind, _⟩ := classify_sees_edge before line [] hbraces hnested (by decide +kernel)
    (.inl (by decide +kernel))
  rw [hedge] at hkind
  exact ⟨hbraces, hnested, by decide +kernel, hkind⟩

end LineCensus.Pascal
