/-
# Where a comment statement ends

A comment statement is open behind some lines exactly if one of them begins it and no
semicolon has come since. The line on which it ends is read on behind the semicolon, and a
line with a comment between two words `co` behind the second of them, in either case to
see whether there is code.

Not quite behind it, though: the place is counted off in the lower-case form of the line.
Each capital I with a dot in front of the place moves it on by one character, and that
much of the line is passed over unread.
-/

import LineCensus.Proofs.Scanner.Concatenation
import LineCensus.Proofs.Text.Edges
import LineCensus.Proofs.Text.LowerCase

namespace LineCensus.Algol

open Text

/-! ## What a line holds -/

/-- Whether a text begins a comment statement. -/
def BeginsStatement (text : List Char) : Prop :=
  StartsInAnyCase ['c', 'o', 'm', 'm', 'e', 'n', 't'] text

/-- Whether a comment statement is open behind some lines: one of them begins it, and there is no
semicolon from there on. -/
def IsOpenAfter (lines : List Line) : Prop :=
  ∃ before line after, lines = before ++ line :: after ∧ BeginsStatement (trim line) ∧
    ∀ other ∈ line :: after, ';' ∉ other

/-- Whether what follows a comment on its line is code. -/
def HasCode (rest : List Char) : Prop :=
  trim rest ≠ [] ∧ ¬ ['#'] <+: trim rest

/-- A place in a text where a word `co` stands by itself, with what precedes and what follows it.
What is next to it is judged by its lower-case form. -/
structure HasCo (text front word rest : List Char) : Prop where
  eq_append : text = front ++ word ++ rest
  spells : word.map Char.toLower = ['c', 'o']
  before : ∀ c ∈ (lower front).getLast?, isWordChar c = false
  after : ∀ c ∈ (lower rest).head?, isWordChar c = false

/-- A line that holds a comment between two words `co`, with what precedes the second of them, the
three characters at the start apart, and what follows it. -/
structure IsBetweenCo (text front word rest : List Char) : Prop where
  opens : StartsInAnyCase ['c', 'o', ' '] text
  closes : HasCo (text.drop 3) front word rest
  first : ∀ {front' word' rest'}, HasCo (text.drop 3) front' word' rest' →
    front.length ≤ front'.length

instance : DecidablePred BeginsStatement := fun text =>
  inferInstanceAs (Decidable (StartsInAnyCase _ text))

instance : DecidablePred HasCode := fun rest =>
  inferInstanceAs (Decidable (trim rest ≠ [] ∧ ¬ ['#'] <+: trim rest))

theorem kindAfterComment_eq (rest : List Char) :
    kindAfterComment rest = .commentAnd (decide (HasCode rest)) := by
  rw [kindAfterComment]
  congr 1
  rw [Bool.eq_iff_iff, decide_eq_true_iff, HasCode, Bool.and_eq_true, Bool.not_eq_true',
    Bool.not_eq_true', ← Bool.not_eq_true, ← Bool.not_eq_true, startsWith_iff_isPrefix,
    List.isEmpty_iff]

/-! ## The semicolon -/

theorem semicolon_mem_lower_iff {text : List Char} : ';' ∈ lower text ↔ ';' ∈ text := by
  have hmark : IsLoweredPlainly ';' := by decide
  simp only [mem_lower_iff hmark, toLower_eq_iff (show ';'.toNat < 'A'.toNat by decide),
    exists_eq_right]

/-- A line is read on behind its first semicolon, and further on for each letter in front of it
that is longer in lower case. -/
theorem kindAtSemicolon?_append {front : List Char} (h : ';' ∉ front) (rest : List Char) :
    kindAtSemicolon? (front ++ ';' :: rest) =
      some (.commentAnd (decide (HasCode (rest.drop (front.count 'İ'))))) := by
  have hlower : lower (front ++ ';' :: rest) = lower front ++ ';' :: lower rest := by
    rw [lower_append, lower_cons]
    rfl
  have hdrop : (front ++ ';' :: rest).drop ((lower front).length + 1) =
      rest.drop (front.count 'İ') := by
    rw [length_lower, Nat.add_assoc, List.drop_length_add_append, List.drop_succ_cons]
  rw [kindAtSemicolon?, hlower, position?_singleton_append (mt semicolon_mem_lower_iff.mp h),
    Option.map_some, hdrop, kindAfterComment_eq]

theorem kindAtSemicolon?_eq_none_iff {line : Line} : kindAtSemicolon? line = none ↔ ';' ∉ line := by
  rw [kindAtSemicolon?, Option.map_eq_none_iff, ← Option.isNone_iff_eq_none,
    ← Option.not_isSome, Bool.not_eq_true', ← Bool.not_eq_true]
  exact not_congr (occursIn_singleton.trans semicolon_mem_lower_iff)

/-! ## The second `co` -/

/-- Whether a word `co` between two texts in lower case stands by itself. `inWord` says whether a
word goes on in front of both. -/
def IsFree (inWord : Bool) (front rest : List Char) : Prop :=
  (front.getLast?.map isWordChar).getD inWord = false ∧ rest.head?.any isWordChar = false

theorem isFree_cons (inWord : Bool) (c : Char) (front rest : List Char) :
    IsFree inWord (c :: front) rest ↔ IsFree (isWordChar c) front rest := by
  cases front with
  | nil => rfl
  | cons next front => rw [IsFree, IsFree, List.getLast?_cons_cons]; rfl

theorem isFree_false_iff {front rest : List Char} :
    IsFree false front rest ↔
      (∀ c ∈ front.getLast?, isWordChar c = false) ∧ ∀ c ∈ rest.head?, isWordChar c = false := by
  rw [IsFree]
  cases front.getLast? <;> cases rest.head? <;> simp

/-- A search for `co` ends behind the first one that stands by itself, and finds nothing only if
there is none. -/
theorem coEnd?_cases (inWord : Bool) (here : Nat) (text : List Char) :
    (coEnd? inWord here text = none ∧
      ∀ front rest, text = front ++ 'c' :: 'o' :: rest → ¬ IsFree inWord front rest) ∨
    ∃ front rest, coEnd? inWord here text = some (here + front.length + 2) ∧
      text = front ++ 'c' :: 'o' :: rest ∧ IsFree inWord front rest ∧
      ∀ front' rest', text = front' ++ 'c' :: 'o' :: rest' → IsFree inWord front' rest' →
        front.length ≤ front'.length := by
  induction text generalizing inWord here with
  | nil => exact .inl ⟨rfl, by simp⟩
  | cons c text ih =>
      by_cases hhere : ∃ rest, c :: text = 'c' :: 'o' :: rest ∧ IsFree inWord [] rest
      · obtain ⟨rest, hco, hfree⟩ := hhere
        cases hco
        obtain ⟨hbefore, hafter⟩ := hfree
        refine .inr ⟨[], rest, ?_, rfl, ⟨hbefore, hafter⟩, fun _ _ _ _ => Nat.zero_le _⟩
        have hword : inWord = false := hbefore
        simp [coEnd?, hword, hafter, startsWith]
      · have hpassed : coEnd? inWord here (c :: text) = coEnd? (isWordChar c) (here + 1) text := by
          rw [coEnd?, if_neg]
          simp only [Bool.and_eq_true, Bool.not_eq_true', startsWith_iff_isPrefix]
          rintro ⟨⟨hbefore, rest, hco⟩, hafter⟩
          cases hco
          exact hhere ⟨rest, rfl, hbefore, hafter⟩
        -- a word `co` in the text is one behind its first character
        have hbehind {front rest : List Char} (heq : c :: text = front ++ 'c' :: 'o' :: rest)
            (hfree : IsFree inWord front rest) : ∃ front', front = c :: front' ∧
              text = front' ++ 'c' :: 'o' :: rest ∧ IsFree (isWordChar c) front' rest := by
          cases front with
          | nil => exact absurd ⟨rest, heq, hfree⟩ hhere
          | cons first front' =>
              obtain ⟨rfl, htext⟩ := List.cons.inj heq
              exact ⟨front', rfl, htext, (isFree_cons ..).mp hfree⟩
        rw [hpassed]
        rcases ih (isWordChar c) (here + 1) with
          ⟨hnone, hnowhere⟩ | ⟨front, rest, hsome, rfl, hfree, hfirst⟩
        · refine .inl ⟨hnone, fun front rest heq hfree => ?_⟩
          obtain ⟨front', _, htext, hfree'⟩ := hbehind heq hfree
          exact hnowhere front' rest htext hfree'
        · refine .inr ⟨c :: front, rest, ?_, rfl, (isFree_cons ..).mpr hfree, ?_⟩
          · rw [hsome, List.length_cons]
            congr 1
            omega
          · intro front' rest' heq hfree'
            obtain ⟨front'', rfl, htext, hfree''⟩ := hbehind heq hfree'
            exact Nat.succ_le_succ (hfirst front'' rest' htext hfree'')

theorem lower_co {word : List Char} (h : word.map Char.toLower = ['c', 'o']) :
    lower word = ['c', 'o'] := by
  obtain ⟨first, rest, rfl, hfirst, hrest⟩ := List.map_eq_cons_iff.mp h
  obtain ⟨second, rest, rfl, hsecond, hnone⟩ := List.map_eq_cons_iff.mp hrest
  rw [List.map_eq_nil_iff] at hnone
  rw [hnone, lower_cons, lower_cons, lowerChar_of_toLower_eq (by decide) hfirst,
    lowerChar_of_toLower_eq (by decide) hsecond]
  rfl

namespace HasCo

variable {text front word rest : List Char}

theorem lower_eq (h : HasCo text front word rest) :
    lower text = lower front ++ 'c' :: 'o' :: lower rest ∧
      IsFree false (lower front) (lower rest) := by
  refine ⟨?_, isFree_false_iff.mpr ⟨h.before, h.after⟩⟩
  rw [h.eq_append, lower_append, lower_append, lower_co h.spells, List.append_assoc]
  rfl

theorem length_word (h : HasCo text front word rest) : word.length = 2 := by
  rw [← List.length_map Char.toLower, h.spells]
  rfl

/-- A word `co` in the lower-case form of a text is one in the text. -/
theorem exists_of_lower_eq {lowerFront lowerRest : List Char}
    (h : lower text = lowerFront ++ 'c' :: 'o' :: lowerRest)
    (hfree : IsFree false lowerFront lowerRest) :
    ∃ front word rest, HasCo text front word rest ∧ lower front = lowerFront := by
  obtain ⟨front, first, behind, rfl, rfl, hfirst, hbehind⟩ :=
    exists_of_lower_eq_append_cons (by decide) h
  rw [← List.nil_append ('o' :: lowerRest)] at hbehind
  obtain ⟨between, second, rest, rfl, hbetween, hsecond, rfl⟩ :=
    exists_of_lower_eq_append_cons (by decide) hbehind
  obtain rfl : between = [] := lower_eq_nil_iff.mp hbetween
  obtain ⟨hbefore, hafter⟩ := isFree_false_iff.mp hfree
  refine ⟨front, [first, second], rest, ⟨by simp, ?_, hbefore, hafter⟩, rfl⟩
  rw [List.map_cons, List.map_cons, hfirst, hsecond]
  rfl

end HasCo

/-- Where in a text the search for `co` ends that goes through its lower-case form. -/
theorem coEnd?_lower_cases (here : Nat) (text : List Char) :
    (coEnd? false here (lower text) = none ∧ ∀ front word rest, ¬ HasCo text front word rest) ∨
    ∃ front word rest, HasCo text front word rest ∧
      (∀ {front' word' rest'}, HasCo text front' word' rest' → front.length ≤ front'.length) ∧
      coEnd? false here (lower text) = some (here + (front.length + front.count 'İ') + 2) := by
  rcases coEnd?_cases false here (lower text) with
    ⟨hnone, hnowhere⟩ | ⟨lowerFront, lowerRest, hsome, heq, hfree, hfirst⟩
  · exact .inl ⟨hnone, fun front word rest h => hnowhere _ _ h.lower_eq.1 h.lower_eq.2⟩
  · obtain ⟨front, word, rest, hco, rfl⟩ := HasCo.exists_of_lower_eq heq hfree
    rw [length_lower] at hsome
    refine .inr ⟨front, word, rest, hco, fun {front' word' rest'} h => ?_, hsome⟩
    -- more characters in lower case cannot be fewer in the text
    by_contra hless
    have hlower := hfirst _ _ h.lower_eq.1 h.lower_eq.2
    have hprefix : front' <+: front :=
      List.prefix_of_prefix_length_le
        ⟨word' ++ rest', (List.append_assoc ..).symm.trans h.eq_append.symm⟩
        ⟨word ++ rest, (List.append_assoc ..).symm.trans hco.eq_append.symm⟩ (by omega)
    obtain ⟨more, rfl⟩ := hprefix
    rw [lower_append, List.length_append] at hlower
    have hnone : lower more = [] := List.length_eq_zero_iff.mp (by omega)
    rw [lower_eq_nil_iff] at hnone
    rw [hnone, List.append_nil] at hless
    omega

/-! ## Lines -/

theorem startsWith_comment_iff {text : List Char} :
    startsWith ['c', 'o', 'm', 'm', 'e', 'n', 't'] (lower text) = true ↔ BeginsStatement text :=
  startsWith_lower_iff (by decide)

theorem startsWith_number_iff {text : List Char} :
    startsWith ['#'] (lower text) = true ↔ ['#'] <+: text := by
  rw [startsWith_lower_iff (by decide), StartsInAnyCase]
  cases text with
  | nil => simp
  | cons c text =>
      simp only [List.length_singleton, List.take_succ_cons, List.take_zero, List.map_cons,
        List.map_nil, List.cons.injEq, and_true, List.cons_prefix_cons, List.nil_prefix,
        toLower_eq_iff (show '#'.toNat < 'A'.toNat by decide)]
      exact eq_comm

/-- A line of a comment statement ends at its semicolon, or not at all. -/
theorem readLine_of_statement {inComment : Bool} {line : Line}
    (h : inComment = true ∨ BeginsStatement line) :
    readLine inComment line =
      match kindAtSemicolon? line with
      | some kind => (kind, false)
      | none => (.commentLine, true) := by
  rw [← startsWith_comment_iff, ← Bool.or_eq_true] at h
  exact if_pos h

theorem readLine_of_not_statement {line : Line} (h : ¬ BeginsStatement line) :
    readLine false line =
      match (if startsWith ['c', 'o', ' '] (lower line) then coEnd? false 3 ((lower line).drop 3)
        else none) with
      | some stop => (kindAfterComment (line.drop stop), false)
      | none => (if startsWith ['#'] (lower line) then .commentLine else .codeLine, false) := by
  rw [← startsWith_comment_iff, Bool.not_eq_true] at h
  rw [readLine, h]
  rfl

/-- Behind the first three characters the lower-case form of a line goes on as that of the rest. -/
theorem drop_lower_of_opens {line : Line} (h : StartsInAnyCase ['c', 'o', ' '] line) :
    (lower line).drop 3 = lower (line.drop 3) := by
  have hco : (line.take 3).map Char.toLower = ['c', 'o', ' '] := h
  have hlength : (line.take 3).length = 3 := by
    rw [← List.length_map Char.toLower, hco]
    rfl
  have hdotted : 'İ' ∉ line.take 3 := fun hmem => by
    have hlowered := List.mem_map_of_mem (f := Char.toLower) hmem
    rw [hco] at hlowered
    exact absurd hlowered (by decide)
  have hlower : (lower (line.take 3)).length = 3 := by
    rw [length_lower, List.count_eq_zero.mpr hdotted, hlength]
  conv_lhs => rw [← List.take_append_drop 3 line, lower_append]
  exact List.drop_left' hlower

theorem readLine_of_isBetweenCo {line front word rest : List Char} (hno : ¬ BeginsStatement line)
    (h : IsBetweenCo line front word rest) :
    readLine false line =
      (.commentAnd (decide (HasCode (rest.drop (front.count 'İ')))), false) := by
  obtain ⟨hopens, hco, hfirst⟩ := h
  rw [readLine_of_not_statement hno, if_pos ((startsWith_lower_iff (by decide)).mpr hopens),
    drop_lower_of_opens hopens]
  rcases coEnd?_lower_cases 3 (line.drop 3) with
    ⟨_, hnowhere⟩ | ⟨front', word', rest', hco', hfirst', hend⟩
  · exact absurd hco (hnowhere front word rest)
  · -- the first `co` is in one place only
    have hlength : front'.length = front.length := Nat.le_antisymm (hfirst' hco) (hfirst hco')
    have heq := hco'.eq_append.symm.trans hco.eq_append
    rw [List.append_assoc, List.append_assoc] at heq
    obtain ⟨rfl, hbehind⟩ := List.append_inj heq hlength
    obtain ⟨rfl, rfl⟩ := List.append_inj hbehind (hco'.length_word.trans hco.length_word.symm)
    have hdrop : line.drop (3 + (front'.length + front'.count 'İ') + 2) =
        rest'.drop (front'.count 'İ') := by
      rw [show 3 + (front'.length + front'.count 'İ') + 2 =
          3 + ((front' ++ word').length + front'.count 'İ') by
        rw [List.length_append, hco'.length_word]; omega]
      rw [← List.drop_drop, hco'.eq_append, List.drop_length_add_append]
    simp only [hend, hdrop, kindAfterComment_eq]

theorem readLine_of_no_comment {line : Line} (hno : ¬ BeginsStatement line)
    (h : ∀ front word rest, ¬ IsBetweenCo line front word rest) :
    readLine false line = (if ['#'] <+: line then .commentLine else .codeLine, false) := by
  have hclosing : (if startsWith ['c', 'o', ' '] (lower line) then
      coEnd? false 3 ((lower line).drop 3) else none) = none := by
    split
    · next hstart =>
        have hopens := (startsWith_lower_iff (by decide)).mp hstart
        rw [drop_lower_of_opens hopens]
        rcases coEnd?_lower_cases 3 (line.drop 3) with
          ⟨hnone, _⟩ | ⟨front, word, rest, hco, hfirst, _⟩
        · exact hnone
        · exact absurd ⟨hopens, hco, hfirst⟩ (h front word rest)
    · rfl
  rw [readLine_of_not_statement hno, hclosing]
  simp only [startsWith_number_iff]

/-! ## Files -/

theorem semicolon_not_mem_of_isBlankText {text : List Char} (h : isBlankText text = true) :
    ';' ∉ text :=
  fun hmem => absurd (List.all_eq_true.mp h ';' hmem) (by decide)

theorem semicolon_mem_trim_iff {line : Line} : ';' ∈ trim line ↔ ';' ∈ line := by
  obtain ⟨before, after, hbefore, hafter, htext⟩ := exists_eq_append_trim line
  conv_rhs => rw [htext]
  simp [semicolon_not_mem_of_isBlankText hbefore, semicolon_not_mem_of_isBlankText hafter]

theorem not_beginsStatement_of_isBlankText {line : Line} (h : isBlankText line = true) :
    ¬ BeginsStatement (trim line) := by
  rw [List.isEmpty_iff.mp ((isEmpty_trim line).trans h)]
  decide

/-- Behind a line a comment statement is open if it was in front of the line or is begun by it, and
the line has no semicolon. -/
theorem advance_snd_iff (inComment : Bool) (line : Line) :
    (Scanner.algol.advance inComment line).2 = true ↔
      (inComment = true ∨ BeginsStatement (trim line)) ∧ ';' ∉ line := by
  cases hline : isBlankText line with
  | true =>
      have hadvance : Scanner.algol.advance inComment line = (.blankLine, inComment) := if_pos hline
      have hsemicolon : ';' ∉ line := semicolon_not_mem_of_isBlankText hline
      rw [hadvance, or_iff_left (not_beginsStatement_of_isBlankText hline)]
      exact (and_iff_left hsemicolon).symm
  | false =>
      have hadvance : Scanner.algol.advance inComment line = readLine inComment (trim line) :=
        if_neg (by rw [hline]; decide)
      rw [hadvance]
      by_cases hinside : inComment = true ∨ BeginsStatement (trim line)
      · rw [readLine_of_statement hinside, and_iff_right hinside, ← semicolon_mem_trim_iff,
          ← kindAtSemicolon?_eq_none_iff]
        cases kindAtSemicolon? (trim line) with
        | none => exact iff_of_true rfl rfl
        | some kind => exact iff_of_false nofun nofun
      · obtain ⟨hclosed, hno⟩ := not_or.mp hinside
        rw [Bool.eq_false_iff.mpr hclosed, readLine_of_not_statement hno]
        split <;> simp [hno]

theorem isOpenAfter_concat {lines : List Line} {line : Line} :
    IsOpenAfter (lines ++ [line]) ↔
      (IsOpenAfter lines ∨ BeginsStatement (trim line)) ∧ ';' ∉ line := by
  constructor
  · rintro ⟨before, first, after, heq, hbegins, hclean⟩
    cases after using List.reverseRecOn with
    | nil =>
        obtain ⟨rfl, hlast⟩ := List.append_inj' heq rfl
        obtain ⟨rfl, _⟩ := List.cons.inj hlast
        exact ⟨.inr hbegins, hclean line List.mem_cons_self⟩
    | append_singleton after last _ =>
        rw [← List.cons_append, ← List.append_assoc] at heq
        obtain ⟨rfl, hlast⟩ := List.append_inj' heq rfl
        obtain ⟨rfl, _⟩ := List.cons.inj hlast
        rw [← List.cons_append, List.forall_mem_append] at hclean
        exact ⟨.inl ⟨before, first, after, rfl, hbegins, hclean.1⟩,
          hclean.2 line List.mem_cons_self⟩
  · rintro ⟨⟨before, first, after, rfl, hbegins, hclean⟩ | hbegins, hline⟩
    · refine ⟨before, first, after ++ [line], by simp, hbegins, ?_⟩
      rw [← List.cons_append, List.forall_mem_append]
      exact ⟨hclean, by simpa using hline⟩
    · exact ⟨lines, line, [], rfl, hbegins, by simpa using hline⟩

/-- From one line to the next the scanner knows whether a comment statement is open. -/
theorem carried_iff (lines : List Line) :
    Scanner.algol.carried lines = true ↔ IsOpenAfter lines := by
  induction lines using List.reverseRecOn with
  | nil => exact iff_of_false nofun fun ⟨_, _, _, heq, _⟩ => by simp at heq
  | append_singleton lines line ih =>
      rw [Scanner.carried_concat rfl, isOpenAfter_concat, ← ih]
      exact advance_snd_iff _ line

/-- **Behind the end of a comment, and further on.** A line that is in an open comment statement or
begins one is a comment. Without a semicolon it leaves the statement open, and with one it is code
too if there is code behind the first semicolon, passing over one character for each capital I with
a dot in front of it. On other lines the same is true of the second of two words `co`. Where no such
letter is in front, this is all of what is behind. Lines without a comment of either form are
comments if they begin with `#`, and code if not. -/
theorem classify_reads_behind_comment (before : List Line) (line : Line) (after : List Line)
    (hline : isBlankText line = false) :
    let text := trim line
    let kind? := (Scanner.algol.classify (before ++ line :: after))[before.length]?
    let inside := IsOpenAfter before ∨ BeginsStatement text
    (Scanner.algol.carried before = true ↔ IsOpenAfter before) ∧
    (Scanner.algol.carried (before ++ [line]) = true ↔ inside ∧ ';' ∉ text) ∧
    (inside →
      (';' ∉ text → kind? = some .commentLine) ∧
      ∀ front rest, text = front ++ ';' :: rest → ';' ∉ front →
        kind? = some (.commentAnd (decide (HasCode (rest.drop (front.count 'İ')))))) ∧
    (¬ inside →
      (∀ front word rest, IsBetweenCo text front word rest →
        kind? = some (.commentAnd (decide (HasCode (rest.drop (front.count 'İ')))))) ∧
      ((∀ front word rest, ¬ IsBetweenCo text front word rest) →
        kind? = some (if ['#'] <+: text then .commentLine else .codeLine))) := by
  intro text kind? inside
  have hcarry : Scanner.algol.carried before = true ↔ IsOpenAfter before := carried_iff before
  have hadvance : Scanner.algol.advance (Scanner.algol.carried before) line =
      readLine (Scanner.algol.carried before) text := if_neg (by rw [hline]; decide)
  have hkind : kind? = some (readLine (Scanner.algol.carried before) text).1 := by
    rw [← hadvance]
    exact Scanner.getElem?_classify_append_cons rfl rfl before line after
  refine ⟨hcarry, ?_, fun hinside => ?_, fun houtside => ?_⟩
  · rw [carried_iff, isOpenAfter_concat, semicolon_mem_trim_iff]
  · rw [hkind, readLine_of_statement (hinside.imp_left hcarry.mpr)]
    refine ⟨fun hsemicolon => ?_, fun front rest htext hfront => ?_⟩
    · rw [kindAtSemicolon?_eq_none_iff.mpr hsemicolon]
    · rw [htext, kindAtSemicolon?_append hfront]
  · obtain ⟨hclosed, hno⟩ := not_or.mp houtside
    rw [hkind, Bool.eq_false_iff.mpr (mt hcarry.mp hclosed)]
    refine ⟨fun front word rest hco => ?_, fun hnowhere => ?_⟩
    · rw [readLine_of_isBetweenCo hno hco]
    · rw [readLine_of_no_comment hno hnowhere]

/-- Code of one character behind a comment that holds the letter: it is passed over. -/
theorem classify_reads_behind_comment_dotted :
    let front := "comment İ".toList
    let rest := "x".toList
    let line := front ++ ';' :: rest
    isBlankText line = false ∧ BeginsStatement (trim line) ∧ ';' ∉ front ∧ HasCode rest ∧
      (Scanner.algol.classify [line])[0]? = some .commentLine := by
  intro front rest line
  have hline : isBlankText line = false := by decide +kernel
  have hbegins : BeginsStatement (trim line) := by decide +kernel
  have hfront : ';' ∉ front := by decide +kernel
  have htrim : trim line = front ++ ';' :: rest := by decide +kernel
  have hnothing : ¬ HasCode (rest.drop (front.count 'İ')) := by decide +kernel
  obtain ⟨_, _, hinside, _⟩ := classify_reads_behind_comment [] line [] hline
  have hkind := (hinside (.inr hbegins)).2 front rest htrim hfront
  rw [decide_eq_false hnothing] at hkind
  exact ⟨hline, hbegins, hfront, by decide +kernel, hkind⟩

end LineCensus.Algol
