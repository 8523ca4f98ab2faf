/-
# White space at the edges of a text

What a search for something solid, that is without white space in it, comes to is the
same with and without white space at either end of the text, apart from where positions
are counted from. It is enough to say this for one more character of white space in front
and one more behind: whatever does not notice these does not notice that a text is trimmed.
-/

import LineCensus.Proofs.Text.Search
import Mathlib.Data.List.Induction

namespace LineCensus.Text

variable {c : Char} (hc : isBlank c = true)

/-! ## Trimming -/

section

include hc

theorem isBlankText_cons (text : List Char) : isBlankText (c :: text) = isBlankText text := by
  rw [isBlankText, List.all_cons, hc, Bool.true_and, isBlankText]

theorem isBlankText_concat (text : List Char) :
    isBlankText (text ++ [c]) = isBlankText text := by
  rw [isBlankText_append, isBlankText_cons hc]
  exact Bool.and_true _

theorem trimLeft_cons (text : List Char) : trimLeft (c :: text) = trimLeft text :=
  List.dropWhile_cons_of_pos hc

theorem trimLeft_concat (text : List Char) :
    trimLeft (text ++ [c]) = if isBlankText text then [] else trimLeft text ++ [c] := by
  have hempty : (text.dropWhile isBlank).isEmpty = isBlankText text := by
    rw [Bool.eq_iff_iff, List.isEmpty_iff, List.dropWhile_eq_nil_iff, isBlankText,
      List.all_eq_true]
  have hlast : [c].dropWhile isBlank = [] := by rw [List.dropWhile_cons_of_pos hc]; rfl
  rw [trimLeft, List.dropWhile_append, hempty, hlast, trimLeft]

theorem trim_cons (text : List Char) : trim (c :: text) = trim text := by
  rw [trim, trimLeft_cons hc, trim]

theorem trim_concat (text : List Char) : trim (text ++ [c]) = trim text := by
  rw [trim, trimLeft_concat hc]
  cases htext : isBlankText text with
  | true =>
      have hnothing := isEmpty_trim text
      rw [htext, List.isEmpty_iff] at hnothing
      rw [hnothing]
      rfl
  | false => simp [trim, trimRight, hc]

end

/-- What does not notice one more character of white space at either end of a text does not notice
that the text is trimmed. -/
theorem apply_trim {α : Type} {f : List Char → α}
    (hfront : ∀ {c}, isBlank c = true → ∀ text, f (c :: text) = f text)
    (hback : ∀ {c}, isBlank c = true → ∀ text, f (text ++ [c]) = f text) (text : List Char) :
    f (trim text) = f text := by
  obtain ⟨before, after, hbefore, hafter, htext⟩ := exists_eq_append_trim text
  generalize trim text = core at htext
  subst htext
  rw [List.append_assoc]
  induction before with
  | nil =>
      rw [List.nil_append]
      induction after using List.reverseRecOn with
      | nil => rw [List.append_nil]
      | append_singleton rest c ih =>
          rw [isBlankText_append, Bool.and_eq_true] at hafter
          have hlast : isBlank c = true := by simpa [isBlankText] using hafter.2
          rw [← List.append_assoc, hback hlast, ih hafter.1]
  | cons c rest ih =>
      rw [isBlankText, List.all_cons, Bool.and_eq_true] at hbefore
      rw [List.cons_append, hfront hbefore.1, ih hbefore.2]

@[simp]
theorem trim_trim (text : List Char) : trim (trim text) = trim text :=
  apply_trim trim_cons trim_concat text

@[simp]
theorem isBlankText_trim (text : List Char) : isBlankText (trim text) = isBlankText text :=
  apply_trim isBlankText_cons isBlankText_concat text

/-! ## Searching for something solid -/

/-- Something to search for that has no white space in it. -/
def IsSolid (piece : List Char) : Prop :=
  piece ≠ [] ∧ ∀ c ∈ piece, isBlank c = false

instance : DecidablePred IsSolid := fun piece =>
  decidable_of_iff (piece ≠ [] ∧ piece.all (fun c => !isBlank c) = true) (by simp [IsSolid])

theorem positionFrom?_congr_succ {accepts others : Nat → Bool}
    (h : ∀ position, accepts (position + 1) = others position) (piece text : List Char)
    (here : Nat) :
    positionFrom? accepts piece text (here + 1) =
      (positionFrom? others piece text here).map (· + 1) := by
  induction text generalizing here with
  | nil =>
      simp only [positionFrom?, h]
      split <;> rfl
  | cons c rest ih =>
      simp only [positionFrom?, h]
      split
      · rfl
      · exact ih (here + 1)

/-- Where something is found, it is. -/
theorem isPrefix_of_positionFrom? {accepts : Nat → Bool} {piece text : List Char}
    {here found : Nat} (h : positionFrom? accepts piece text here = some found) :
    ∃ position ≤ text.length, found = here + position ∧ piece <+: text.drop position := by
  induction text generalizing here with
  | nil =>
      rw [positionFrom?, Option.ite_none_right_eq_some, Bool.and_eq_true, List.isEmpty_iff] at h
      obtain ⟨⟨rfl, _⟩, hhere⟩ := h
      cases hhere
      exact ⟨0, Nat.le_refl 0, rfl, List.nil_prefix⟩
  | cons c rest ih =>
      rw [positionFrom?] at h
      split at h
      · next hstarts =>
          cases h
          exact ⟨0, Nat.zero_le _, rfl,
            startsWith_iff_isPrefix.mp (Bool.and_eq_true_iff.mp hstarts).1⟩
      · obtain ⟨position, hposition, rfl, hprefix⟩ := ih h
        exact ⟨position + 1, Nat.succ_le_succ hposition, by omega, hprefix⟩

namespace IsSolid

variable {piece : List Char} (h : IsSolid piece)

include h hc

theorem startsWith_cons (text : List Char) : startsWith piece (c :: text) = false := by
  rw [← Bool.not_eq_true, startsWith_iff_isPrefix]
  intro hprefix
  obtain ⟨first, rest, rfl⟩ := List.exists_cons_of_ne_nil h.1
  obtain ⟨rfl, _⟩ := List.cons_prefix_cons.mp hprefix
  rw [h.2 first List.mem_cons_self] at hc
  cases hc

theorem startsWith_concat (text : List Char) :
    startsWith piece (text ++ [c]) = startsWith piece text := by
  rw [Bool.eq_iff_iff, startsWith_iff_isPrefix, startsWith_iff_isPrefix, List.prefix_concat_iff,
    or_iff_right]
  rintro rfl
  rw [h.2 c (by simp)] at hc
  cases hc

theorem positionFrom?_cons {accepts others : Nat → Bool}
    (hothers : ∀ position, accepts (position + 1) = others position) (text : List Char) :
    positionFrom? accepts piece (c :: text) 0 =
      (positionFrom? others piece text 0).map (· + 1) := by
  rw [positionFrom?, h.startsWith_cons hc, Bool.false_and, if_neg Bool.false_ne_true,
    positionFrom?_congr_succ hothers]

theorem positionFrom?_concat {accepts others : Nat → Bool} {text : List Char} {here : Nat}
    (hothers : ∀ position < here + text.length, accepts position = others position) :
    positionFrom? accepts piece (text ++ [c]) here = positionFrom? others piece text here := by
  induction text generalizing here with
  | nil =>
      simp [positionFrom?, h.startsWith_cons hc, h.1]
  | cons first rest ih =>
      rw [List.length_cons] at hothers
      have hrest : ∀ position < here + 1 + rest.length, accepts position = others position :=
        fun position hlt => hothers position (by omega)
      have hstarts := h.startsWith_concat hc (first :: rest)
      rw [List.cons_append] at hstarts
      rw [List.cons_append, positionFrom?, hstarts, hothers here (by omega), ih hrest,
        positionFrom?]

theorem after?_cons (text : List Char) : after? piece (c :: text) = after? piece text := by
  rw [Text.after?_cons, h.startsWith_cons hc, if_neg Bool.false_ne_true]

theorem after?_concat (text : List Char) :
    after? piece (text ++ [c]) = (after? piece text).map (· ++ [c]) := by
  induction text with
  | nil =>
      rw [List.nil_append, h.after?_cons hc]
      simp [after?, position?_nil h.1]
  | cons first rest ih =>
      have hstarts := h.startsWith_concat hc (first :: rest)
      rw [List.cons_append] at hstarts
      rw [List.cons_append, Text.after?_cons, Text.after?_cons, hstarts, ih]
      cases hfound : startsWith piece (first :: rest) with
      | false => rfl
      | true =>
          have hlength := (startsWith_iff_isPrefix.mp hfound).length_le
          rw [if_pos rfl, if_pos rfl, Option.map_some, ← List.cons_append,
            List.drop_append_of_le_length hlength]

end IsSolid

end LineCensus.Text
