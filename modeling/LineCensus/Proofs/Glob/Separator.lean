/-
# Globs across a separator

A glob matches a text with a certain character in it by matching the character with one of
its items, and what is on either side with the items on either side. Only an item for any
text goes on matching on both sides.

Nothing in a glob keeps an item from matching a separator. So a rule that is bound to the
root of a scan matches what is further down exactly if something in its pattern can match
a slash.
-/

import LineCensus.Ignore
import LineCensus.Proofs.Text.Edges

namespace LineCensus

open Text

namespace GlobItem

/-- Whether an item can match a character. -/
def takes : GlobItem → Char → Bool
  | anyText, _ | anyChar, _ => true
  | oneOf chars, c => chars.holds c
  | exactly expected, c => expected == c

/-- What is left of an item on either side of a character that it matches. -/
def leaves : GlobItem → Glob
  | anyText => [anyText]
  | anyChar | oneOf _ | exactly _ => []

end GlobItem

namespace Glob

/-- Whether a glob matches two texts with a character between them: an item matches the character,
and what is on either side of the item, with what is left of it, matches the text on that side. -/
def MatchesAcross (glob : Glob) (c : Char) (first second : List Char) : Prop :=
  ∃ before item after, glob = before ++ item :: after ∧ item.takes c = true ∧
    isMatch (before ++ item.leaves) first = true ∧ isMatch (item.leaves ++ after) second = true

theorem matchesAcross_cons_iff {item : GlobItem} {rest : Glob} {c : Char}
    {first second : List Char} :
    MatchesAcross (item :: rest) c first second ↔
      item.takes c = true ∧ isMatch item.leaves first = true ∧
          isMatch (item.leaves ++ rest) second = true ∨
        ∃ before next after, rest = before ++ next :: after ∧ next.takes c = true ∧
          isMatch (item :: (before ++ next.leaves)) first = true ∧
          isMatch (next.leaves ++ after) second = true := by
  constructor
  · rintro ⟨before, next, after, hglob, htakes, hfirst, hsecond⟩
    cases before with
    | nil =>
        cases hglob
        exact .inl ⟨htakes, hfirst, hsecond⟩
    | cons _ before =>
        cases hglob
        exact .inr ⟨before, next, after, rfl, htakes, hfirst, hsecond⟩
  · rintro (⟨htakes, hfirst, hsecond⟩ | ⟨before, next, after, rfl, htakes, hfirst, hsecond⟩)
    · exact ⟨[], item, rest, rfl, htakes, hfirst, hsecond⟩
    · exact ⟨item :: before, next, after, rfl, htakes, hfirst, hsecond⟩

/-- An item for a single character matches the next one. -/
theorem isMatch_cons_cons {item : GlobItem} (h : item ≠ .anyText) (rest : Glob) (c : Char)
    (text : List Char) :
    isMatch (item :: rest) (c :: text) = (item.takes c && isMatch rest text) := by
  cases item with
  | anyText => exact absurd rfl h
  | anyChar => rw [isMatch_anyChar_cons, GlobItem.takes, Bool.true_and]
  | oneOf chars => rw [isMatch_oneOf_cons, GlobItem.takes]
  | exactly expected => rw [isMatch_exactly_cons, GlobItem.takes]

theorem isMatch_anyText_only (text : List Char) : isMatch [.anyText] text = true := by
  induction text with
  | nil => rw [isMatch_anyText_nil, isMatch_nil]; rfl
  | cons c rest ih => rw [isMatch_anyText_cons, ih, Bool.or_true]

/-- A glob matches a text by matching each of its characters with an item. -/
theorem isMatch_append_cons_iff {glob : Glob} {first : List Char} {c : Char}
    {second : List Char} :
    isMatch glob (first ++ c :: second) = true ↔ glob.MatchesAcross c first second := by
  induction glob generalizing first with
  | nil => simp [isMatch_nil, MatchesAcross]
  | cons item rest ih =>
      rw [matchesAcross_cons_iff]
      by_cases hany : item = .anyText
      · subst hany
        simp only [GlobItem.takes, GlobItem.leaves, isMatch_anyText_only, true_and]
        induction first with
        | nil =>
            rw [List.nil_append, isMatch_anyText_cons, Bool.or_eq_true, or_comm]
            refine or_congr_right ?_
            simp only [isMatch_anyText_nil]
            exact @ih []
        | cons d first ihfirst =>
            have hrest : isMatch rest (d :: (first ++ c :: second)) = true ↔
                MatchesAcross rest c (d :: first) second := @ih (d :: first)
            rw [List.cons_append, isMatch_anyText_cons, Bool.or_eq_true, hrest, ihfirst,
              or_left_comm]
            refine or_congr_right ?_
            -- any text in front of a character takes the character too, or is over before it
            simp only [isMatch_anyText_cons, Bool.or_eq_true, or_and_right, and_or_left, exists_or]
            rfl
      · have hleaves : item.leaves = [] := by
          cases item with
          | anyText => exact absurd rfl hany
          | anyChar | oneOf _ | exactly _ => rfl
        rw [hleaves]
        cases first with
        | nil => simp [isMatch_cons_cons hany, isMatch_cons_nil hany, isMatch_nil]
        | cons d first =>
            rw [List.cons_append, isMatch_cons_cons hany, Bool.and_eq_true, ih]
            simp only [isMatch_cons_cons hany, Bool.and_eq_true, isMatch_nil, List.isEmpty_cons,
              Bool.false_eq_true, false_and, and_false, false_or]
            constructor
            · rintro ⟨hd, before, next, after, hglob, htakes, hfirst, hsecond⟩
              exact ⟨before, next, after, hglob, htakes, ⟨hd, hfirst⟩, hsecond⟩
            · rintro ⟨before, next, after, hglob, htakes, ⟨hd, hfirst⟩, hsecond⟩
              exact ⟨hd, before, next, after, hglob, htakes, hfirst, hsecond⟩

theorem not_matchesAcross {glob : Glob} {c : Char} (h : ∀ item ∈ glob, item.takes c = false)
    (first second : List Char) : ¬ glob.MatchesAcross c first second := by
  rintro ⟨before, item, after, rfl, htakes, _⟩
  rw [h item (by simp)] at htakes
  cases htakes

end Glob

/-! ## Rules that are bound to the root -/

namespace IgnoreRule

/-- A pattern as rules are made from it: without white space at its ends, and with slashes for
backslashes. -/
def normalized (text : List Char) : List Char :=
  (trim text).map fun c => if c = '\\' then '/' else c

theorem normalized_slash (text : List Char) :
    normalized ('/' :: text) =
      '/' :: (trimRight text).map fun c => if c = '\\' then '/' else c := by
  have htrim : trim ('/' :: text) = '/' :: trimRight text := trimRight_cons rfl text
  rw [normalized, htrim]
  rfl

/-- A rule as it is made from a normalized pattern. -/
theorem ofPattern?_eq (negated : Bool) (text : List Char) :
    ofPattern? negated text =
      let pattern := normalized text
      if pattern.isEmpty then none
      else
        let core := pattern.rdropWhile (· == '/')
        let anchored := core.head? == some '/'
        let rest := if anchored then core.drop 1 else core
        some ⟨rest, pattern.getLast? == some '/', anchored, negated, rest.contains '/'⟩ := rfl

/-- A text that begins with a slash spells a rule. Its pattern is the text without that slash and
those at its end, and only an empty one is not bound to the root. -/
theorem exists_ofPattern?_slash (negated : Bool) (text : List Char) :
    ∃ rule slashes, ofPattern? negated ('/' :: text) = some rule ∧
      normalized ('/' :: text) = '/' :: (rule.pattern ++ slashes) ∧ (∀ c ∈ slashes, c = '/') ∧
      (rule.pattern = [] ∨ rule.anchored = true) := by
  rw [ofPattern?_eq, normalized_slash]
  generalize (trimRight text).map (fun c => if c = '\\' then '/' else c) = body
  have hslashes : ∀ c ∈ body.rtakeWhile (· == '/'), c = '/' :=
    fun c hmem => by simpa using List.mem_rtakeWhile_imp hmem
  have hcut := rdropWhile_cons (· == '/') '/' body
  by_cases hcore : body.rdropWhile (· == '/') = []
  · rw [if_pos ⟨rfl, hcore⟩] at hcut
    have hbody : body.rtakeWhile (· == '/') = body := by
      simpa [hcore] using List.rdropWhile_append_rtakeWhile (p := (· == '/')) (l := body)
    refine ⟨_, body.rtakeWhile (· == '/'), rfl, ?_, hslashes, .inl ?_⟩
    · simp [hcut, hbody]
    · simp [hcut]
  · rw [if_neg fun h => hcore h.2] at hcut
    refine ⟨_, body.rtakeWhile (· == '/'), rfl, ?_, hslashes, .inr ?_⟩
    · simp [hcut]
    · simp [hcut]

/-- A rule whose pattern is bound to the root, or empty, has to match the whole of a path. -/
theorem isMatch_iff_of_anchored {rule : IgnoreRule} (h : rule.pattern = [] ∨ rule.anchored = true)
    {way : List Char} (hway : way ≠ []) (isDirectory : Bool) :
    rule.isMatch way isDirectory = true ↔
      (rule.directoryOnly = true → isDirectory = true) ∧
        (Glob.parse rule.pattern).isMatch way = true := by
  by_cases hpattern : rule.pattern = []
  · have hempty : (Glob.parse []).isMatch way = false := by
      rw [Glob.parse, Glob.isMatch_nil, List.isEmpty_eq_false_iff]
      exact hway
    simp [isMatch, hpattern, hempty]
  · have hanchored := h.resolve_left hpattern
    cases hdirectory : rule.directoryOnly <;> cases isDirectory <;>
      simp [isMatch, hpattern, hdirectory, hanchored, globMatches]

/-- **A rule that is bound to the root matches what is further down exactly if something in its
pattern matches a slash.** What is in front of that slash and behind it has to be matched by the
pattern on either side. -/
theorem ofPattern?_slash_isMatch_iff (negated : Bool) (text : List Char) :
    ∃ rule slashes, ofPattern? negated ('/' :: text) = some rule ∧
      normalized ('/' :: text) = '/' :: (rule.pattern ++ slashes) ∧ (∀ c ∈ slashes, c = '/') ∧
      (∀ first second isDirectory, rule.isMatch (first ++ '/' :: second) isDirectory = true ↔
        (rule.directoryOnly = true → isDirectory = true) ∧
          (Glob.parse rule.pattern).MatchesAcross '/' first second) ∧
      ((∀ item ∈ Glob.parse rule.pattern, item.takes '/' = false) →
        ∀ first second isDirectory, rule.isMatch (first ++ '/' :: second) isDirectory = false) := by
  obtain ⟨rule, slashes, hrule, hnormal, hslashes, hanchored⟩ :=
    exists_ofPattern?_slash negated text
  have hacross : ∀ first second isDirectory,
      rule.isMatch (first ++ '/' :: second) isDirectory = true ↔
        (rule.directoryOnly = true → isDirectory = true) ∧
          (Glob.parse rule.pattern).MatchesAcross '/' first second := by
    intro first second isDirectory
    rw [isMatch_iff_of_anchored hanchored (by simp), Glob.isMatch_append_cons_iff]
  refine ⟨rule, slashes, hrule, hnormal, hslashes, hacross, fun h first second isDirectory => ?_⟩
  rw [← Bool.not_eq_true, hacross]
  exact fun hmatch => Glob.not_matchesAcross h first second hmatch.2

/-- A pattern that stays at the root, and one that does not. -/
theorem ofPattern?_slash_isMatch_iff_of_digits :
    let numbered : IgnoreRule := ⟨"build[0-9]".toList, true, true, false, false⟩
    let all : IgnoreRule := ⟨"*".toList, false, true, false, false⟩
    ofPattern? false ('/' :: "build[0-9]/ ".toList) = some numbered ∧
    ofPattern? false ('/' :: "*".toList) = some all ∧
    (∀ item ∈ Glob.parse numbered.pattern, item.takes '/' = false) ∧
    (∀ first second isDirectory, numbered.isMatch (first ++ '/' :: second) isDirectory = false) ∧
    all.isMatch ("a".toList ++ '/' :: "b".toList) false = true := by
  intro numbered all
  have hnumbered : ofPattern? false ('/' :: "build[0-9]/ ".toList) = some numbered := by decide
  have hall : ofPattern? false ('/' :: "*".toList) = some all := by decide
  have hkept : ∀ item ∈ Glob.parse numbered.pattern, item.takes '/' = false := by decide +kernel
  have hacross : (Glob.parse all.pattern).MatchesAcross '/' "a".toList "b".toList :=
    ⟨[], .anyText, [], by decide +kernel, rfl, by decide, by decide⟩
  refine ⟨hnumbered, hall, hkept, ?_, ?_⟩
  · obtain ⟨rule, _, hrule, _, _, _, hstays⟩ :=
      ofPattern?_slash_isMatch_iff false "build[0-9]/ ".toList
    cases hnumbered.symm.trans hrule
    exact hstays hkept
  · obtain ⟨rule, _, hrule, _, _, hmatch, _⟩ := ofPattern?_slash_isMatch_iff false "*".toList
    cases hall.symm.trans hrule
    exact (hmatch _ _ _).mpr ⟨fun h => h, hacross⟩

end IgnoreRule

end LineCensus
