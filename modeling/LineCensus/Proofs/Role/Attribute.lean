/-
# What is read off the text of an attribute

An attribute is found by its words, without regard to what they are part of. This module
says how far that goes: a character which cannot be part of a word divides the text into
two that are read one by one.

The first use is a line comment behind an attribute. The tracker stops at it when it
follows the braces of the line, but the words of a condition are looked for up to the
end of the line. So the comment is heard together with the condition, and what it can
change is given by one equation.
-/

import LineCensus.Proofs.Role.Mask
import LineCensus.Proofs.Text.Search

namespace LineCensus.Attribute

open Text

/-! ## Finding the atom -/

theorem hasTestAtom_cons_of_ne {c : Char} (h : c ≠ 't') (previous : Option Char)
    (rest : List Char) : hasTestAtom previous (c :: rest) = hasTestAtom (some c) rest := by
  simp [hasTestAtom, startsWith, testAtom, List.isPrefixOf, h.symm]

/-- Where `test` does not occur it does not occur as an atom. -/
theorem hasTestAtom_eq_false {text : List Char} (h : occursIn testAtom text = false)
    (previous : Option Char) : hasTestAtom previous text = false := by
  induction text generalizing previous with
  | nil => rfl
  | cons c rest ih =>
      rw [occursIn_cons, Bool.or_eq_false_iff] at h
      simp [hasTestAtom, h.1, ih h.2]

/-- A character that is no part of the atom divides a text. It can still be the one that stands
behind the atom or in front of it. -/
theorem hasTestAtom_append_cons {mark : Char} (h : mark ∉ testAtom) (previous : Option Char)
    (front rest : List Char) :
    hasTestAtom previous (front ++ mark :: rest) =
      (hasTestAtom previous (front ++ [mark]) || hasTestAtom (some mark) rest) := by
  induction front generalizing previous with
  | nil =>
      have hne : mark ≠ 't' := List.ne_of_not_mem_cons h
      rw [List.nil_append, List.nil_append, hasTestAtom_cons_of_ne hne,
        hasTestAtom_cons_of_ne hne]
      simp [hasTestAtom]
  | cons c front ih =>
      have hstart := startsWith_append_cons h (c :: front)
      simp only [List.cons_append] at hstart
      rw [List.cons_append, List.cons_append, hasTestAtom, hasTestAtom, ih, hstart, hstart,
        ← Bool.or_assoc]
      congr 2
      cases hfound : startsWith testAtom (c :: front) with
      | false => simp
      | true =>
          -- the atom lies in front of the mark, so what stands behind it is the mark at the latest
          have hlength := (startsWith_iff_isPrefix.mp hfound).length_le
          have hbound : 3 ≤ front.length := Nat.le_of_succ_le_succ hlength
          have hnext : (front ++ mark :: rest)[3]? = (front ++ [mark])[3]? := by
            rw [List.append_cons, List.getElem?_append_left]
            simpa using Nat.lt_succ_of_le hbound
          simp only [List.head?_drop, hnext]

/-- What takes the mark of a test away once spaces are left out. -/
def denial : List Char := ['n', 'o', 't', '('] ++ testAtom

/-- A text without its spaces. -/
def compact (text : List Char) : List Char := text.filter (· != ' ')

theorem conditionMeaning_eq (arguments : List Char) :
    conditionMeaning arguments =
      if occursIn denial (compact arguments) then .notTest
      else if startsWith ('(' :: testAtom) (compact arguments) || hasTestAtom none arguments then
        .test
      else .unrelated := rfl

theorem occursIn_denial_eq_false {text : List Char} (h : occursIn testAtom text = false) :
    occursIn denial text = false := by
  rw [← Bool.not_eq_true, occursIn_iff_isInfix] at h ⊢
  exact fun hoccurs => h ((List.suffix_append _ _).isInfix.trans hoccurs)

/-! ## A comment behind an attribute -/

namespace Meaning

/-- What a condition says together with what is said behind it. -/
def heeding : Meaning → Meaning → Meaning
  | .notTest, _ | _, .notTest => .notTest
  | .test, _ | _, .test => .test
  | .unrelated, .unrelated => .unrelated

end Meaning

/-- What a text says by its words alone, when it stands behind a condition. -/
def overheard (text : List Char) : Meaning :=
  if occursIn denial (compact text) then .notTest
  else if hasTestAtom none text then .test else .unrelated

/-- Whether a condition is looked for behind this beginning of a line. -/
def asksCondition (front : List Char) : Bool :=
  (path? (trimLeft front)).any (·.1 == ['c', 'f', 'g'])

/-- A slash is next to no atom. -/
theorem hasTestAtom_slash (previous : Option Char) (front rest : List Char) :
    hasTestAtom previous (front ++ '/' :: rest) =
      (hasTestAtom previous front || hasTestAtom none rest) := by
  have hbefore : hasTestAtom (some '/') rest = hasTestAtom none rest := by
    cases rest with
    | nil => rfl
    | cons c rest => simp [hasTestAtom]
  have hbehind : hasTestAtom previous (front ++ ['/']) = hasTestAtom previous front := by
    induction front generalizing previous with
    | nil => simp [hasTestAtom_cons_of_ne, hasTestAtom]
    | cons c front ih =>
        have hstart := startsWith_append_cons (show '/' ∉ testAtom by decide) (c :: front) []
        rw [List.cons_append] at hstart
        rw [List.cons_append, hasTestAtom, hasTestAtom, ih, hstart]
        congr 2
        rw [List.head?_drop, List.head?_drop, List.getElem?_append]
        split
        · rfl
        · next hend =>
            rw [List.getElem?_eq_none (Nat.le_of_not_lt hend)]
            cases 3 - front.length <;> rfl
  rw [hasTestAtom_append_cons (by decide), hbehind, hbefore]

theorem conditionMeaning_slashes (arguments comment : List Char) :
    conditionMeaning (arguments ++ '/' :: '/' :: comment) =
      (conditionMeaning arguments).heeding (overheard comment) := by
  have hcompact : compact (arguments ++ '/' :: '/' :: comment) =
      compact arguments ++ '/' :: '/' :: compact comment := by
    simp [compact]
  have hdenial : occursIn denial (compact arguments ++ '/' :: '/' :: compact comment) =
      (occursIn denial (compact arguments) || occursIn denial (compact comment)) := by
    rw [occursIn_append_cons (by decide), occursIn_cons]
    rfl
  have hatom : hasTestAtom none (arguments ++ '/' :: '/' :: comment) =
      (hasTestAtom none arguments || hasTestAtom none comment) := by
    rw [hasTestAtom_slash]
    congr 1
    exact hasTestAtom_slash none [] comment
  rw [conditionMeaning_eq, conditionMeaning_eq, overheard, hcompact, hdenial, hatom,
    startsWith_append_cons (by decide)]
  cases occursIn denial (compact arguments) <;> cases occursIn denial (compact comment) <;>
    cases startsWith ('(' :: testAtom) (compact arguments) <;>
    cases hasTestAtom none arguments <;> cases hasTestAtom none comment <;> rfl

/-- The path of an attribute, once its opening brackets are read. -/
def pathIn? (body : List Char) : Option (List Char × List Char) :=
  if (trimLeft body).head?.any isIdentifierStart then
    some ((trimLeft body).takeWhile isPathChar, (trimLeft body).dropWhile isPathChar)
  else none

theorem path?_eq (line : List Char) :
    path? line =
      if startsWith ['#', '['] line then pathIn? (line.drop 2)
      else if startsWith ['#', '!', '['] line then pathIn? (line.drop 3) else none := by
  unfold path?
  split
  · rfl
  · rfl
  · next houter hinner =>
      rw [if_neg, if_neg]
      · intro hstart
        obtain ⟨rest, rfl⟩ := startsWith_iff_isPrefix.mp hstart
        exact hinner rest rfl
      · intro hstart
        obtain ⟨rest, rfl⟩ := startsWith_iff_isPrefix.mp hstart
        exact houter rest rfl

theorem takeWhile_slash {p : Char → Bool} (h : p '/' = false) (front rest : List Char) :
    (front ++ '/' :: rest).takeWhile p = front.takeWhile p := by
  induction front with
  | nil => exact List.takeWhile_cons_of_neg (by simp [h])
  | cons c front ih => rw [List.cons_append, List.takeWhile_cons, List.takeWhile_cons, ih]

theorem dropWhile_slash {p : Char → Bool} (h : p '/' = false) (front rest : List Char) :
    (front ++ '/' :: rest).dropWhile p = front.dropWhile p ++ '/' :: rest := by
  have hslash : ('/' :: rest).dropWhile p = '/' :: rest :=
    List.dropWhile_cons_of_neg (by simp [h])
  rw [List.dropWhile_append, hslash]
  split
  · next hempty => rw [List.isEmpty_iff.mp hempty, List.nil_append]
  · rfl

theorem pathIn?_slash (front rest : List Char) :
    pathIn? (front ++ '/' :: rest) =
      (pathIn? front).map fun found => (found.1, found.2 ++ '/' :: rest) := by
  have hslash : isPathChar '/' = false := by decide +kernel
  rw [pathIn?, pathIn?, trimLeft, dropWhile_slash rfl, ← trimLeft]
  cases htrim : trimLeft front with
  | nil => rfl
  | cons c body =>
      rw [List.cons_append, List.head?_cons, List.head?_cons]
      split
      · rw [← List.cons_append, takeWhile_slash hslash, dropWhile_slash hslash]
        rfl
      · rfl

theorem path?_slash (front rest : List Char) :
    path? (front ++ '/' :: rest) =
      (path? front).map fun found => (found.1, found.2 ++ '/' :: rest) := by
  rw [path?_eq, path?_eq, startsWith_append_cons (by decide), startsWith_append_cons (by decide)]
  split
  · next hstart =>
      have hlength : 2 ≤ front.length := (startsWith_iff_isPrefix.mp hstart).length_le
      rw [List.drop_append_of_le_length hlength, pathIn?_slash]
  · split
    · next hstart =>
        have hlength : 3 ≤ front.length := (startsWith_iff_isPrefix.mp hstart).length_le
        rw [List.drop_append_of_le_length hlength, pathIn?_slash]
    · rfl

/-- White space is cut off in front of a slash and behind it. -/
theorem trim_slash (front rest : List Char) :
    trim (front ++ '/' :: rest) = trimLeft front ++ '/' :: trimRight rest := by
  have hreverse : ((trimLeft front ++ '/' :: rest).reverse).dropWhile isBlank =
      rest.reverse.dropWhile isBlank ++ '/' :: (trimLeft front).reverse := by
    rw [List.reverse_append, List.reverse_cons, List.append_assoc, List.singleton_append,
      dropWhile_slash rfl]
  rw [trim, trimLeft, dropWhile_slash rfl, ← trimLeft, trimRight, hreverse, trimRight]
  simp

/-- What a line with a comment says is what it says without the comment, together with the words
of the comment if there is a condition in front of it. -/
theorem meaning_lineComment (front comment : List Char) :
    meaning (trim (front ++ '/' :: '/' :: comment)) =
      if asksCondition front then
        (meaning (trimLeft front)).heeding (overheard (trimRight comment))
      else meaning (trimLeft front) := by
  have htrim : trim (front ++ '/' :: '/' :: comment) =
      trimLeft front ++ '/' :: '/' :: trimRight comment := by
    rw [trim_slash, trimRight_cons rfl]
  rw [htrim, meaning, path?_slash, asksCondition, meaning]
  cases path? (trimLeft front) with
  | none => rfl
  | some found =>
      obtain ⟨path, arguments⟩ := found
      simp only [Option.map_some, Option.any_some]
      by_cases hcfg : path = ['c', 'f', 'g']
      · subst hcfg
        exact conditionMeaning_slashes arguments (trimRight comment)
      · rw [beq_false_of_ne hcfg]
        rfl

end LineCensus.Attribute
