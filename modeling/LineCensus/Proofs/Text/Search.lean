/-
# What a search finds

A text occurs in another exactly if it is a part of it, so it occurs in no part of a
text in which it does not occur, and a character that it does not hold divides the text
into two that can be searched one by one. Trimming takes white space off at both ends
and nothing else.
-/

import LineCensus.Text.Search
import Mathlib.Data.List.DropRight

namespace LineCensus.Text

/-! ## Occurrences -/

theorem startsWith_iff_isPrefix {piece text : List Char} :
    startsWith piece text = true ↔ piece <+: text := by
  rw [startsWith, List.isPrefixOf_iff_prefix]

theorem occursIn_cons (piece : List Char) (c : Char) (rest : List Char) :
    occursIn piece (c :: rest) = (startsWith piece (c :: rest) || occursIn piece rest) := by
  rw [occursIn, position?_cons]
  cases hstart : startsWith piece (c :: rest) <;> simp [occursIn]

theorem occursIn_iff_isInfix {piece text : List Char} :
    occursIn piece text = true ↔ piece <:+: text := by
  induction text with
  | nil => simp [occursIn, position?, positionFrom?]
  | cons c rest ih =>
      rw [occursIn_cons, Bool.or_eq_true, startsWith_iff_isPrefix, ih, List.infix_cons_iff]

/-- What does not occur in a text occurs in no part of it. -/
theorem occursIn_eq_false_of_isInfix {piece text whole : List Char}
    (h : occursIn piece whole = false) (hpart : text <:+: whole) : occursIn piece text = false := by
  rw [← Bool.not_eq_true, occursIn_iff_isInfix] at h ⊢
  exact fun hoccurs => h (hoccurs.trans hpart)

theorem startsWith_eq_false {piece text : List Char} (h : occursIn piece text = false) :
    startsWith piece text = false := by
  rw [← Bool.not_eq_true, occursIn_iff_isInfix] at h
  rw [← Bool.not_eq_true, startsWith_iff_isPrefix]
  exact fun hprefix => h hprefix.isInfix

/-- What begins with one character does not begin a text that begins with another. -/
theorem startsWith_cons_eq_false {piece : List Char} {first c : Char}
    (hfirst : piece.head? = some first) (hne : first ≠ c) (rest : List Char) :
    startsWith piece (c :: rest) = false := by
  obtain ⟨more, rfl⟩ := List.head?_eq_some_iff.mp hfirst
  rw [startsWith, List.isPrefixOf, beq_false_of_ne hne, Bool.false_and]

theorem occurrences_eq_zero {piece text : List Char} (h : occursIn piece text = false) :
    occurrences piece text = 0 := by
  induction text with
  | nil => rfl
  | cons c rest ih =>
      rw [occursIn_cons, Bool.or_eq_false_iff] at h
      rw [occurrences, ih h.2, h.1]
      rfl

theorem position?_eq_none {piece text : List Char} (h : occursIn piece text = false) :
    position? piece text = none := by
  rwa [occursIn, Option.isSome_eq_false_iff, Option.isNone_iff_eq_none] at h

/-! ## One character -/

theorem startsWith_singleton_cons (mark c : Char) (rest : List Char) :
    startsWith [mark] (c :: rest) = (mark == c) := by
  simp [startsWith, List.isPrefixOf]

theorem occurrences_singleton (mark : Char) (text : List Char) :
    occurrences [mark] text = text.count mark := by
  induction text with
  | nil => rfl
  | cons c rest ih =>
      rw [occurrences, startsWith_singleton_cons, ih, List.count_cons]
      by_cases h : mark = c
      · simp [h]
      · simp [h, Ne.symm h]

theorem occursIn_singleton {mark : Char} {text : List Char} :
    occursIn [mark] text = true ↔ mark ∈ text := by
  induction text with
  | nil => simp [occursIn, position?_nil]
  | cons c rest ih => simp [occursIn_cons, startsWith_singleton_cons, ih]

theorem position?_singleton_append {mark : Char} {front : List Char} (h : mark ∉ front)
    (rest : List Char) : position? [mark] (front ++ mark :: rest) = some front.length := by
  induction front with
  | nil => rw [List.nil_append, position?_cons, startsWith_singleton_cons, beq_self_eq_true]; rfl
  | cons c front ih =>
      have hc : mark ≠ c := List.ne_of_not_mem_cons h
      rw [List.cons_append, position?_cons, startsWith_singleton_cons, beq_false_of_ne hc,
        ih (List.not_mem_of_not_mem_cons h)]
      rfl

theorem afterLast_singleton_append {mark : Char} {rest : List Char} (h : mark ∉ rest)
    (front : List Char) : afterLast [mark] (front ++ mark :: rest) = rest := by
  have hposition : position? [mark] (front ++ mark :: rest).reverse = some rest.length := by
    rw [List.reverse_append, List.reverse_cons, List.append_assoc, List.singleton_append,
      position?_singleton_append (by rwa [List.mem_reverse]), List.length_reverse]
  rw [afterLast, List.reverse_singleton, hposition]
  have hlength : (front ++ mark :: rest).length - rest.length = (front ++ [mark]).length := by
    simp only [List.length_append, List.length_cons, List.length_nil]
    omega
  show (front ++ mark :: rest).drop _ = rest
  rw [hlength, List.append_cons front mark rest, List.drop_left]

/-! ## Marks that are not asked for -/

section

variable {piece : List Char} {mark : Char} (h : mark ∉ piece)

include h

/-- What has no mark in it begins a text in front of the mark if at all. -/
theorem startsWith_append_cons (front rest : List Char) :
    startsWith piece (front ++ mark :: rest) = startsWith piece front := by
  induction front generalizing piece with
  | nil =>
      cases piece with
      | nil => rfl
      | cons p piece => simp [startsWith, List.isPrefixOf, (List.ne_of_not_mem_cons h).symm]
  | cons c front ih =>
      cases piece with
      | nil => rfl
      | cons p piece =>
          have hrest := ih (List.not_mem_of_not_mem_cons h)
          simp only [startsWith] at hrest
          simp [startsWith, List.isPrefixOf, hrest]

/-- What has no mark in it occurs on one side of the mark if at all. -/
theorem occursIn_append_cons (front rest : List Char) :
    occursIn piece (front ++ mark :: rest) = (occursIn piece front || occursIn piece rest) := by
  induction front with
  | nil =>
      have hstart := startsWith_append_cons h [] rest
      have hnil : occursIn piece [] = startsWith piece [] := by
        cases piece <;> rfl
      rw [List.nil_append] at hstart ⊢
      rw [occursIn_cons, hstart, hnil]
  | cons c front ih =>
      have hstart := startsWith_append_cons h (c :: front) rest
      rw [List.cons_append] at hstart ⊢
      rw [occursIn_cons, hstart, ih, occursIn_cons, Bool.or_assoc]

end

/-! ## Splitting -/

/-- The pieces between separators are those that the library finds. -/
theorem splitOn_eq_splitOn (separator : Char) (text : List Char) :
    splitOn separator text = text.splitOn separator := by
  induction text with
  | nil => rfl
  | cons c rest ih =>
      rw [splitOn, ih, List.splitOn, List.splitOn, List.splitOnP_cons_eq_if_modifyHead]
      by_cases hc : c = separator
      · rw [if_pos hc, if_pos (beq_iff_eq.mpr hc)]
      · rw [if_neg hc, if_neg (mt beq_iff_eq.mp hc)]
        cases hpieces : rest.splitOnP (· == separator) with
        | nil => exact absurd hpieces (List.splitOnP_ne_nil _ _)
        | cons first others => rfl

/-! ## Trimming -/

theorem isBlankText_append (first second : List Char) :
    isBlankText (first ++ second) = (isBlankText first && isBlankText second) :=
  List.all_append

/-- Trimming takes white space off at either end. -/
theorem exists_eq_append_trim (text : List Char) : ∃ before after,
    isBlankText before = true ∧ isBlankText after = true ∧ text = before ++ trim text ++ after := by
  refine ⟨text.takeWhile isBlank, (trimLeft text).rtakeWhile isBlank, List.all_takeWhile,
    List.all_eq_true.mpr fun c hmem => List.mem_rtakeWhile_imp hmem, ?_⟩
  have hright : trim text ++ (trimLeft text).rtakeWhile isBlank = trimLeft text :=
    List.rdropWhile_append_rtakeWhile
  rw [List.append_assoc, hright]
  exact List.takeWhile_append_dropWhile.symm

/-- What is cut off the end of a text stops at the first character at the latest, if that is to
stay. -/
theorem rdropWhile_cons (p : Char → Bool) (c : Char) (rest : List Char) :
    (c :: rest).rdropWhile p =
      if p c = true ∧ rest.rdropWhile p = [] then [] else c :: rest.rdropWhile p := by
  simp only [List.rdropWhile, List.reverse_cons, List.dropWhile_append, List.reverse_eq_nil_iff]
  by_cases hrest : rest.reverse.dropWhile p = []
  · by_cases hc : p c = true <;> simp [hrest, hc]
  · simp [hrest]

/-- What comes first in a text stays when white space is cut off its end. -/
theorem trimRight_cons {c : Char} (h : isBlank c = false) (rest : List Char) :
    trimRight (c :: rest) = c :: trimRight rest := by
  have hcut := rdropWhile_cons isBlank c rest
  rwa [if_neg (by simp [h])] at hcut

theorem isBlankText_singleton (c : Char) : isBlankText [c] = isBlank c :=
  Bool.and_true _

theorem isInfix_trim (text : List Char) : trim text <:+: text := by
  obtain ⟨before, after, _, _, htext⟩ := exists_eq_append_trim text
  exact ⟨before, after, htext.symm⟩

theorem trimLeft_of_isBlankText {text : List Char} (h : isBlankText text = true) :
    trimLeft text = [] :=
  List.dropWhile_eq_nil_iff.mpr (List.all_eq_true.mp h)

/-- Only white space leaves nothing when it is trimmed. -/
theorem isEmpty_trim (text : List Char) : (trim text).isEmpty = isBlankText text := by
  cases hblank : isBlankText text with
  | true =>
      rw [trim, trimLeft_of_isBlankText hblank]
      rfl
  | false =>
      obtain ⟨before, after, hbefore, hafter, htext⟩ := exists_eq_append_trim text
      rw [← Bool.not_eq_true, List.isEmpty_iff]
      intro hempty
      rw [hempty, List.append_nil] at htext
      rw [htext, isBlankText_append, hbefore, hafter] at hblank
      cases hblank

end LineCensus.Text
