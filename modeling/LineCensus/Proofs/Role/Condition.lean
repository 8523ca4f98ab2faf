/-
# Conditions of attributes

The condition of a `cfg` attribute is built with `all`, `any` and `not` and says of an
item when it is compiled. The tracker does not build it up. It looks for the atom `test`
between the marks of the condition as it is written, and for `not(test` in it once its
spaces are left out. For conditions as they are written in practice, with whatever
spaces around their marks, this module says what comes of that:

* a condition without `not` makes a test of the item exactly if the atom occurs in it,
  however deep.
* a condition in which every `test` is negated an odd number of times still makes a test
  of the item, unless it has no `test` at all or a `not` stands directly in front of one.
-/

import LineCensus.Proofs.Role.Attribute

namespace LineCensus.Attribute

open Text

/-! ## Conditions and how they are written -/

/-- Whether all parts of a condition have to hold or any one of them. -/
inductive Connective where
  | all
  | any
deriving DecidableEq

/-- The word for a connective. -/
def Connective.word : Connective → List Char
  | all => ['a', 'l', 'l']
  | any => ['a', 'n', 'y']

/-- The condition of a `cfg` attribute. -/
inductive Condition where
  /-- An option that is set or not. The atom `test` is one. -/
  | option (name : List Char)
  /-- An option that has a certain value. -/
  | setting (name value : List Char)
  | combine (connective : Connective) (parts : List Condition)
  | negation (part : Condition)

namespace Condition

mutual

/-- What holds of a condition once it holds of its parts holds of every condition. -/
@[elab_as_elim]
theorem inductionOn {motive : Condition → Prop} (condition : Condition)
    (option : ∀ name, motive (.option name)) (setting : ∀ name value, motive (.setting name value))
    (combine : ∀ connective parts, (∀ part ∈ parts, motive part) →
      motive (.combine connective parts))
    (negation : ∀ part, motive part → motive (.negation part)) : motive condition :=
  match condition with
  | .option name => option name
  | .setting name value => setting name value
  | .combine connective parts =>
    combine connective parts (inductionOnEach parts option setting combine negation)
  | .negation part => negation part (inductionOn part option setting combine negation)

theorem inductionOnEach {motive : Condition → Prop} (parts : List Condition)
    (option : ∀ name, motive (.option name)) (setting : ∀ name value, motive (.setting name value))
    (combine : ∀ connective parts, (∀ part ∈ parts, motive part) →
      motive (.combine connective parts))
    (negation : ∀ part, motive part → motive (.negation part)) : ∀ part ∈ parts, motive part :=
  match parts with
  | [] => fun _ h => absurd h List.not_mem_nil
  | part :: rest =>
    List.forall_mem_cons.mpr ⟨inductionOn part option setting combine negation,
      inductionOnEach rest option setting combine negation⟩

end

/-- A word with arguments in parentheses. -/
def call (word : List Char) (arguments : List (List Char)) : List (List Char) :=
  word :: ['('] :: (arguments ++ [[')']])

mutual

/-- The words and marks with which a condition is written. -/
def words : Condition → List (List Char)
  | .option name => [name]
  | .setting name value => [name, ['='], '"' :: (value ++ ['"'])]
  | .combine connective parts => call connective.word (wordsEach parts)
  | .negation part => call ['n', 'o', 't'] part.words

/-- The words and marks with which conditions are written, commas between them. -/
def wordsEach : List Condition → List (List Char)
  | [] => []
  | [part] => part.words
  | part :: next :: rest => part.words ++ [','] :: wordsEach (next :: rest)

end

mutual

/-- A condition and the conditions within it. -/
def within : Condition → List Condition
  | .combine connective parts => .combine connective parts :: withinEach parts
  | .negation part => .negation part :: part.within
  | condition => [condition]

def withinEach : List Condition → List Condition
  | [] => []
  | part :: rest => part.within ++ withinEach rest

end

mutual

/-- How many negations each occurrence of the atom `test` is under. -/
def testNegations : Condition → List Nat
  | .option name => if name = testAtom then [0] else []
  | .setting _ _ => []
  | .combine _ parts => testNegationsEach parts
  | .negation part => part.testNegations.map (· + 1)

def testNegationsEach : List Condition → List Nat
  | [] => []
  | part :: rest => part.testNegations ++ testNegationsEach rest

end

/-! ## The atom and its negations -/

/-- Whether a condition is the atom `test`. -/
def isTest : Condition → Bool
  | .option name => name == testAtom
  | _ => false

/-- Whether a condition is the atom `test` with a `not` in front of it. -/
def isTestDenial : Condition → Bool
  | .negation part => part.isTest
  | _ => false

def isNegation : Condition → Bool
  | .negation _ => true
  | _ => false

/-- Whether a condition is a `not` in front of `all` or `any`. -/
def isCombinationDenial : Condition → Bool
  | .negation (.combine _ _) => true
  | _ => false

/-- Whether the atom `test` occurs in a condition. -/
def mentionsTest (condition : Condition) : Bool :=
  condition.within.any isTest

/-- Whether the atom `test` occurs in a condition with a `not` directly in front of it. -/
def deniesTest (condition : Condition) : Bool :=
  condition.within.any isTestDenial

/-- Whether a condition has no `not` in it. -/
def IsPositive (condition : Condition) : Prop :=
  ∀ part ∈ condition.within, part.isNegation = false

/-- Whether every `test` in a condition is under an odd number of negations. -/
def IsNegative (condition : Condition) : Prop :=
  ∀ negations ∈ condition.testNegations, negations % 2 = 1

/-- Whether a name is of characters that words are made of. -/
def IsName (name : List Char) : Prop := ∀ c ∈ name, isWordChar c = true

/-- What is asked of the names and values of a condition: `test` occurs nowhere but as the atom, and
a value has no white space in it. -/
def IsPlainPart : Condition → Prop
  | .option name => IsName name ∧ (name = testAtom ∨ occursIn testAtom name = false)
  | .setting name value =>
    IsName name ∧ occursIn testAtom name = false ∧ occursIn testAtom value = false ∧
      ∀ c ∈ value, isBlank c = false
  | _ => True

/-- Whether all names and values of a condition are as they are asked to be. -/
def IsPlain (condition : Condition) : Prop :=
  ∀ part ∈ condition.within, part.IsPlainPart

instance : DecidablePred IsName := fun name =>
  decidable_of_iff (name.all isWordChar = true) List.all_eq_true

instance : DecidablePred IsPlainPart
  | .option name => inferInstanceAs (Decidable (IsName name ∧ _))
  | .setting name value =>
    have : Decidable (∀ c ∈ value, isBlank c = false) :=
      decidable_of_iff (value.all (!isBlank ·) = true) (by simp)
    inferInstanceAs (Decidable (IsName name ∧ _))
  | .combine _ _ => isTrue trivial
  | .negation _ => isTrue trivial

instance : DecidablePred IsPlain := fun condition =>
  List.decidableBAll _ condition.within

instance : DecidablePred IsPositive := fun condition =>
  List.decidableBAll _ condition.within

instance : DecidablePred IsNegative := fun condition =>
  List.decidableBAll _ condition.testNegations

theorem withinEach_eq (parts : List Condition) : withinEach parts = parts.flatMap within := by
  induction parts with
  | nil => rfl
  | cons part rest ih => rw [withinEach, ih, List.flatMap_cons]

theorem mem_within_combine {connective : Connective} {parts : List Condition}
    {part inner : Condition} (hpart : part ∈ parts) (hinner : inner ∈ part.within) :
    inner ∈ (combine connective parts).within := by
  rw [within, withinEach_eq]
  exact List.mem_cons_of_mem _ (List.mem_flatMap.mpr ⟨part, hpart, hinner⟩)

theorem testNegationsEach_eq (parts : List Condition) :
    testNegationsEach parts = parts.flatMap testNegations := by
  induction parts with
  | nil => rfl
  | cons part rest ih => rw [testNegationsEach, ih, List.flatMap_cons]

theorem mentionsTest_option (name : List Char) :
    (option name).mentionsTest = (name == testAtom) := Bool.or_false _

theorem mentionsTest_combine (connective : Connective) (parts : List Condition) :
    (combine connective parts).mentionsTest = parts.any mentionsTest := by
  rw [mentionsTest, within, withinEach_eq, List.any_cons, List.any_flatMap]
  rfl

theorem mentionsTest_negation (part : Condition) :
    (negation part).mentionsTest = part.mentionsTest := rfl

theorem deniesTest_combine (connective : Connective) (parts : List Condition) :
    (combine connective parts).deniesTest = parts.any deniesTest := by
  rw [deniesTest, within, withinEach_eq, List.any_cons, List.any_flatMap]
  rfl

theorem deniesTest_negation (part : Condition) :
    (negation part).deniesTest = (part.isTest || part.deniesTest) := rfl

theorem IsPlain.of_combine {connective : Connective} {parts : List Condition}
    (h : (combine connective parts).IsPlain) : ∀ part ∈ parts, part.IsPlain :=
  fun _ hpart inner hinner => h inner (mem_within_combine hpart hinner)

theorem IsPlain.of_negation {part : Condition} (h : (negation part).IsPlain) : part.IsPlain :=
  fun inner hinner => h inner (List.mem_cons_of_mem _ hinner)

end Condition

/-! ## Words with spaces between them -/

/-- A text made of words with any number of spaces in front of each and behind the last. -/
inductive Spaced : List (List Char) → List Char → Prop
  | nil (n : Nat) : Spaced [] (List.replicate n ' ')
  | cons (n : Nat) {word : List Char} {words : List (List Char)} {text : List Char}
      (h : Spaced words text) : Spaced (word :: words) (List.replicate n ' ' ++ (word ++ text))

namespace Spaced

theorem exists_of_cons {word text : List Char} {words : List (List Char)}
    (h : Spaced (word :: words) text) :
    ∃ n rest, text = List.replicate n ' ' ++ (word ++ rest) ∧ Spaced words rest := by
  cases h with
  | cons n h => exact ⟨n, _, rfl, h⟩

theorem exists_of_append {first second : List (List Char)} {text : List Char}
    (h : Spaced (first ++ second) text) :
    ∃ before after, text = before ++ after ∧ Spaced first before ∧ Spaced second after := by
  induction first generalizing text with
  | nil => exact ⟨[], text, rfl, .nil 0, h⟩
  | cons word words ih =>
      obtain ⟨n, rest, rfl, hrest⟩ := h.exists_of_cons
      obtain ⟨before, after, rfl, hbefore, hafter⟩ := ih hrest
      exact ⟨List.replicate n ' ' ++ (word ++ before), after, by simp, .cons n hbefore, hafter⟩

theorem exists_of_call {word text : List Char} {arguments : List (List Char)}
    (h : Spaced (Condition.call word arguments) text) :
    ∃ front gap inside before behind, Spaced arguments inside ∧
      text = List.replicate front ' ' ++ (word ++ List.replicate gap ' ') ++
        '(' :: (inside ++ (List.replicate before ' ' ++ ')' :: List.replicate behind ' ')) := by
  obtain ⟨front, _, rfl, hopening⟩ := h.exists_of_cons
  obtain ⟨gap, _, rfl, hbehind⟩ := hopening.exists_of_cons
  obtain ⟨inside, _, rfl, hinside, hclosing⟩ := hbehind.exists_of_append
  obtain ⟨before, _, rfl, hlast⟩ := hclosing.exists_of_cons
  cases hlast with
  | nil behind => exact ⟨front, gap, inside, before, behind, hinside, by simp⟩

/-- Without its spaces a text is the words one after the other. -/
theorem compact_eq {words : List (List Char)} {text : List Char} (h : Spaced words text)
    (hwords : ∀ word ∈ words, ' ' ∉ word) : compact text = words.flatten := by
  induction h with
  | nil n => simp [compact]
  | @cons n word words text _ ih =>
      obtain ⟨hword, hrest⟩ := List.forall_mem_cons.mp hwords
      have hkept : ∀ c ∈ word, (c != ' ') = true :=
        fun c hc => bne_iff_ne.mpr fun h => hword (h ▸ hc)
      have htext := ih hrest
      rw [compact] at htext ⊢
      rw [List.filter_append, List.filter_append, htext, List.filter_eq_self.mpr hkept]
      simp

end Spaced

/-! ## Spaces around words -/

/-- What can stand in front of an atom. -/
def opensAtom (c : Char) : Bool := ['(', ',', ' '].contains c

/-- What can stand behind an atom. -/
def closesAtom (c : Char) : Bool := [')', ',', ' '].contains c

theorem not_mem_testAtom_of_closesAtom {c : Char} (h : closesAtom c = true) : c ∉ testAtom := by
  simp only [closesAtom, List.contains_iff_mem, List.mem_cons, List.not_mem_nil, or_false] at h
  rcases h with rfl | rfl | rfl <;> decide

theorem hasTestAtom_spaces (n : Nat) {c : Char} (hc : opensAtom c = true) :
    ∃ before, opensAtom before = true ∧ ∀ text,
      hasTestAtom (some c) (List.replicate n ' ' ++ text) = hasTestAtom (some before) text := by
  induction n generalizing c with
  | zero => exact ⟨c, hc, fun _ => rfl⟩
  | succ n ih =>
      obtain ⟨before, hbefore, hsame⟩ := ih (c := ' ') rfl
      refine ⟨before, hbefore, fun text => ?_⟩
      rw [List.replicate_succ, List.cons_append, hasTestAtom_cons_of_ne (by decide), hsame]

theorem hasTestAtom_spaces_of_ne {c : Char} (hc : c ≠ 't') (n : Nat) (previous : Option Char)
    (rest : List Char) :
    hasTestAtom previous (List.replicate n ' ' ++ c :: rest) = hasTestAtom (some c) rest := by
  induction n generalizing previous with
  | zero => exact hasTestAtom_cons_of_ne hc previous rest
  | succ n ih =>
      rw [List.replicate_succ, List.cons_append, hasTestAtom_cons_of_ne (by decide), ih]

theorem hasTestAtom_append_spaces (n : Nat) {c : Char} (hc : closesAtom c = true) :
    ∃ behind, closesAtom behind = true ∧ ∀ previous front rest,
      hasTestAtom previous (front ++ (List.replicate n ' ' ++ c :: rest)) =
        (hasTestAtom previous (front ++ [behind]) || hasTestAtom (some c) rest) := by
  cases n with
  | zero =>
      exact ⟨c, hc, fun previous front rest =>
        hasTestAtom_append_cons (not_mem_testAtom_of_closesAtom hc) previous front rest⟩
  | succ n =>
      refine ⟨' ', rfl, fun previous front rest => ?_⟩
      rw [List.replicate_succ, List.cons_append, hasTestAtom_append_cons (by decide)]
      rw [hasTestAtom_spaces_of_ne
        (List.ne_of_not_mem_cons (not_mem_testAtom_of_closesAtom hc))]

/-! ## Occurrences in words -/

theorem occursIn_testAtom_spaces (n : Nat) (text : List Char) :
    occursIn testAtom (List.replicate n ' ' ++ text) = occursIn testAtom text := by
  induction n with
  | zero => rfl
  | succ n ih =>
      rw [List.replicate_succ, List.cons_append, occursIn_cons, ih]
      rfl

/-- Spaces and a mark keep apart what is on either side of them. -/
theorem occursIn_testAtom_append_spaces {mark : Char} (hmark : mark ∉ testAtom) (n : Nat)
    (front rest : List Char) :
    occursIn testAtom (front ++ (List.replicate n ' ' ++ mark :: rest)) =
      (occursIn testAtom front || occursIn testAtom rest) := by
  cases n with
  | zero => exact occursIn_append_cons hmark front rest
  | succ n =>
      have hrest : occursIn testAtom (mark :: rest) = occursIn testAtom rest :=
        occursIn_append_cons hmark [] rest
      rw [List.replicate_succ, List.cons_append, occursIn_append_cons (by decide),
        occursIn_testAtom_spaces, hrest]

namespace Condition

theorem occursIn_testAtom_setting {name value text : List Char}
    (hname : occursIn testAtom name = false) (hvalue : occursIn testAtom value = false)
    (h : Spaced (setting name value).words text) : occursIn testAtom text = false := by
  obtain ⟨front, _, rfl, hequals⟩ := h.exists_of_cons
  obtain ⟨gap, _, rfl, hvalues⟩ := hequals.exists_of_cons
  obtain ⟨before, _, rfl, hlast⟩ := hvalues.exists_of_cons
  cases hlast with
  | nil behind =>
      have hquoted : occursIn testAtom ('"' :: (value ++ ['"']) ++ List.replicate behind ' ') =
          false := by
        have hbehind := occursIn_testAtom_spaces behind []
        rw [List.append_nil] at hbehind
        rw [List.cons_append, List.append_assoc, occursIn_cons, List.singleton_append,
          occursIn_append_cons (by decide), hvalue, hbehind]
        rfl
      rw [occursIn_testAtom_spaces, List.singleton_append,
        occursIn_testAtom_append_spaces (by decide), hname, occursIn_testAtom_spaces, hquoted]
      rfl

/-- Only the arguments of a call matter, which stand between its parentheses. -/
theorem hasTestAtom_call {word text : List Char} {arguments : List (List Char)}
    (hword : occursIn testAtom word = false) (h : Spaced (call word arguments) text)
    (before : Char) {behind : Char} (hbehind : closesAtom behind = true) :
    ∃ inside next, Spaced arguments inside ∧ closesAtom next = true ∧
      hasTestAtom (some before) (text ++ [behind]) =
        hasTestAtom (some '(') (inside ++ [next]) := by
  obtain ⟨front, gap, inside, fill, rear, hinside, rfl⟩ := h.exists_of_call
  obtain ⟨next, hnext, hclosing⟩ := hasTestAtom_append_spaces fill (c := ')') rfl
  refine ⟨inside, next, hinside, hnext, ?_⟩
  have hfront : occursIn testAtom
      (List.replicate front ' ' ++ (word ++ List.replicate gap ' ') ++ ['(']) = false := by
    rw [List.append_assoc, List.append_assoc, occursIn_testAtom_spaces,
      occursIn_testAtom_append_spaces (by decide), hword]
    rfl
  have hrear : hasTestAtom (some ')') (List.replicate rear ' ' ++ [behind]) = false := by
    rw [hasTestAtom_spaces_of_ne
      (List.ne_of_not_mem_cons (not_mem_testAtom_of_closesAtom hbehind))]
    rfl
  have hshape : inside ++ (List.replicate fill ' ' ++ ')' :: List.replicate rear ' ') ++ [behind] =
      inside ++ (List.replicate fill ' ' ++ ')' :: (List.replicate rear ' ' ++ [behind])) := by
    simp
  rw [List.append_assoc, List.cons_append, hshape, hasTestAtom_append_cons (by decide),
    hasTestAtom_eq_false hfront, hclosing, hrear, Bool.false_or, Bool.or_false]

theorem hasTestAtom_wordsEach {parts : List Condition}
    (h : ∀ part ∈ parts, ∀ {text : List Char}, Spaced part.words text → ∀ {before behind : Char},
      opensAtom before = true → closesAtom behind = true →
      hasTestAtom (some before) (text ++ [behind]) = part.mentionsTest)
    {text : List Char} (htext : Spaced (wordsEach parts) text) {before behind : Char}
    (hbefore : opensAtom before = true) (hbehind : closesAtom behind = true) :
    hasTestAtom (some before) (text ++ [behind]) = parts.any mentionsTest := by
  induction parts generalizing text before with
  | nil =>
      cases htext with
      | nil n =>
        rw [hasTestAtom_spaces_of_ne
          (List.ne_of_not_mem_cons (not_mem_testAtom_of_closesAtom hbehind))]
        rfl
  | cons part rest ih =>
      obtain ⟨hpart, hrest⟩ := List.forall_mem_cons.mp h
      cases rest with
      | nil =>
          rw [hpart htext hbefore hbehind, List.any_cons, List.any_nil, Bool.or_false]
      | cons following rest =>
          obtain ⟨first, _, rfl, hfirst, hcomma⟩ := htext.exists_of_append
          obtain ⟨n, others, rfl, hothers⟩ := hcomma.exists_of_cons
          obtain ⟨next, hnext, hclosing⟩ := hasTestAtom_append_spaces n (c := ',') rfl
          rw [List.append_assoc, List.append_assoc, List.singleton_append, List.cons_append,
            hclosing, hpart hfirst hbefore hnext, ih hrest hothers rfl]
          rfl

theorem hasTestAtom_name {name : List Char} (hplain : (option name).IsPlainPart)
    {before : Char} (hbefore : opensAtom before = true)
    {behind : Char} (hbehind : closesAtom behind = true) :
    hasTestAtom (some before) (name ++ [behind]) = (name == testAtom) := by
  obtain ⟨_, rfl | hname⟩ := hplain
  · have hhere : (opensAtom before && true && closesAtom behind) = true := by
      rw [hbefore, hbehind]
      rfl
    rw [show testAtom ++ [behind] = 't' :: ['e', 's', 't', behind] from rfl, hasTestAtom]
    exact Bool.or_eq_true_iff.mpr (.inl hhere)
  · have hnone : occursIn testAtom (name ++ [behind]) = false := by
      rw [occursIn_append_cons (not_mem_testAtom_of_closesAtom hbehind), hname]
      rfl
    have hne : name ≠ testAtom := by
      rintro rfl
      cases hname
    rw [hasTestAtom_eq_false hnone, beq_false_of_ne hne]

/-- The atom is found among the words of a condition exactly if it is one of them. -/
theorem hasTestAtom_words {condition : Condition} (hplain : condition.IsPlain) {text : List Char}
    (h : Spaced condition.words text) {before behind : Char} (hbefore : opensAtom before = true)
    (hbehind : closesAtom behind = true) :
    hasTestAtom (some before) (text ++ [behind]) = condition.mentionsTest := by
  induction condition using inductionOn generalizing text before behind with
  | option name =>
      obtain ⟨front, _, rfl, hlast⟩ := h.exists_of_cons
      cases hlast with
      | nil rear =>
          obtain ⟨previous, hprevious, hfront⟩ := hasTestAtom_spaces front hbefore
          obtain ⟨next, hnext, hrear⟩ := hasTestAtom_append_spaces rear hbehind
          have hname := hasTestAtom_name (hplain (.option name) List.mem_cons_self) hprevious hnext
          rw [List.append_assoc, hfront, List.append_assoc, hrear, hname, mentionsTest_option]
          exact Bool.or_false _
  | setting name value =>
      obtain ⟨_, hname, hvalue, _⟩ := hplain (.setting name value) List.mem_cons_self
      have hnone : occursIn testAtom (text ++ [behind]) = false := by
        rw [occursIn_append_cons (not_mem_testAtom_of_closesAtom hbehind),
          occursIn_testAtom_setting hname hvalue h]
        rfl
      rw [hasTestAtom_eq_false hnone]
      rfl
  | combine connective parts ih =>
      have hword : occursIn testAtom connective.word = false := by cases connective <;> rfl
      obtain ⟨inside, next, hinside, hnext, hsame⟩ := hasTestAtom_call hword h before hbehind
      rw [hsame, mentionsTest_combine]
      exact hasTestAtom_wordsEach (fun part hpart => ih part hpart (hplain.of_combine part hpart))
        hinside rfl hnext
  | negation part ih =>
      obtain ⟨inside, next, hinside, hnext, hsame⟩ := hasTestAtom_call rfl h before hbehind
      rw [hsame, mentionsTest_negation]
      exact ih hplain.of_negation hinside rfl hnext

/-! ## Conditions without their spaces -/

theorem flatten_call (word : List Char) (arguments : List (List Char)) :
    (call word arguments).flatten = word ++ '(' :: (arguments.flatten ++ [')']) := by
  simp [call]

theorem space_not_mem_of_isName {name : List Char} (h : IsName name) : ' ' ∉ name :=
  fun hmem => absurd (h ' ' hmem) (by decide +kernel)

theorem mem_wordsEach {parts : List Condition} {word : List Char} (h : word ∈ wordsEach parts) :
    word = [','] ∨ ∃ part ∈ parts, word ∈ part.words := by
  induction parts with
  | nil => exact absurd h List.not_mem_nil
  | cons part rest ih =>
      cases rest with
      | nil => exact .inr ⟨part, List.mem_cons_self, h⟩
      | cons next rest =>
          rw [wordsEach, List.mem_append, List.mem_cons] at h
          rcases h with hpart | hcomma | hrest
          · exact .inr ⟨part, List.mem_cons_self, hpart⟩
          · exact .inl hcomma
          · exact (ih hrest).imp_right fun ⟨other, hother, hword⟩ =>
              ⟨other, List.mem_cons_of_mem _ hother, hword⟩

theorem space_not_mem_call {word : List Char} {arguments : List (List Char)} (hword : ' ' ∉ word)
    (h : ∀ argument ∈ arguments, ' ' ∉ argument) : ∀ part ∈ call word arguments, ' ' ∉ part := by
  rw [call, List.forall_mem_cons, List.forall_mem_cons, List.forall_mem_append,
    List.forall_mem_singleton]
  exact ⟨hword, by decide, h, by decide⟩

theorem space_not_mem_words {condition : Condition} (hplain : condition.IsPlain) :
    ∀ word ∈ condition.words, ' ' ∉ word := by
  induction condition using inductionOn with
  | option name =>
      obtain ⟨hname, _⟩ := hplain (.option name) List.mem_cons_self
      exact List.forall_mem_singleton.mpr (space_not_mem_of_isName hname)
  | setting name value =>
      obtain ⟨hname, _, _, hvalue⟩ := hplain (.setting name value) List.mem_cons_self
      have hspace : ' ' ∉ value := fun hmem => absurd (hvalue ' ' hmem) (by decide)
      rw [words, List.forall_mem_cons, List.forall_mem_cons, List.forall_mem_singleton]
      exact ⟨space_not_mem_of_isName hname, by decide, by simp [hspace]⟩
  | combine connective parts ih =>
      refine space_not_mem_call (by cases connective <;> decide) fun word hword => ?_
      rcases mem_wordsEach hword with rfl | ⟨part, hpart, hword⟩
      · decide
      · exact ih part hpart (hplain.of_combine part hpart) word hword
  | negation part ih => exact space_not_mem_call (by decide) (ih hplain.of_negation)

theorem startsWith_testAtom_words {condition : Condition} (hplain : condition.IsPlain) :
    startsWith testAtom condition.words.flatten = condition.isTest := by
  cases condition with
  | option name =>
      obtain ⟨_, rfl | hname⟩ := hplain (.option name) List.mem_cons_self
      · rfl
      · have hne : name ≠ testAtom := by
          rintro rfl
          cases hname
        rw [words, List.flatten_singleton, startsWith_eq_false hname, isTest, beq_false_of_ne hne]
  | setting name value =>
      obtain ⟨_, hname, _⟩ := hplain (.setting name value) List.mem_cons_self
      rw [words, List.flatten_cons, List.flatten_cons, List.singleton_append,
        startsWith_append_cons (by decide), startsWith_eq_false hname]
      rfl
  | combine connective parts =>
      rw [words, flatten_call]
      cases connective <;> rfl
  | negation part => rfl

theorem occursIn_denial_wordsEach {parts : List Condition}
    (h : ∀ part ∈ parts, occursIn denial part.words.flatten = part.deniesTest) :
    occursIn denial (wordsEach parts).flatten = parts.any deniesTest := by
  induction parts with
  | nil => rfl
  | cons part rest ih =>
      obtain ⟨hpart, hrest⟩ := List.forall_mem_cons.mp h
      cases rest with
      | nil => rw [wordsEach, hpart, List.any_cons, List.any_nil, Bool.or_false]
      | cons next rest =>
          rw [wordsEach, List.flatten_append, List.flatten_cons, List.singleton_append,
            occursIn_append_cons (by decide), hpart, ih hrest]
          rfl

theorem occursIn_denial_words {condition : Condition} (hplain : condition.IsPlain) :
    occursIn denial condition.words.flatten = condition.deniesTest := by
  induction condition using inductionOn with
  | option name =>
      rw [words, List.flatten_singleton]
      obtain ⟨_, rfl | hname⟩ := hplain (.option name) List.mem_cons_self
      · rfl
      · exact occursIn_denial_eq_false hname
  | setting name value =>
      obtain ⟨_, hname, hvalue, _⟩ := hplain (.setting name value) List.mem_cons_self
      have hquoted : occursIn denial ('"' :: (value ++ ['"'])) = false := by
        rw [occursIn_cons, occursIn_append_cons (by decide), occursIn_denial_eq_false hvalue]
        rfl
      rw [words, List.flatten_cons, List.flatten_cons, List.flatten_singleton,
        List.singleton_append, occursIn_append_cons (by decide), occursIn_denial_eq_false hname,
        hquoted]
      rfl
  | combine connective parts ih =>
      have hparts := occursIn_denial_wordsEach fun part hpart =>
        ih part hpart (hplain.of_combine part hpart)
      have hinside : occursIn denial (connective.word ++ '(' :: (wordsEach parts).flatten) =
          occursIn denial (wordsEach parts).flatten := by
        cases connective <;>
          simp only [Connective.word, List.cons_append, List.nil_append, occursIn_cons] <;> rfl
      rw [words, flatten_call, ← List.cons_append, ← List.append_assoc,
        occursIn_append_cons (by decide), hinside, hparts, deniesTest_combine]
      exact Bool.or_false _
  | negation part ih =>
      have hinside : occursIn denial (['n', 'o', 't'] ++ '(' :: part.words.flatten) =
          (startsWith testAtom part.words.flatten || occursIn denial part.words.flatten) := by
        simp only [List.cons_append, List.nil_append, occursIn_cons]
        rfl
      rw [words, flatten_call, ← List.cons_append, ← List.append_assoc,
        occursIn_append_cons (by decide), hinside, startsWith_testAtom_words hplain.of_negation,
        ih hplain.of_negation, deniesTest_negation]
      exact Bool.or_false _

/-! ## What an attribute with a condition says -/

/-- A `cfg` attribute, by the text of its condition. -/
def cfgAttribute (text : List Char) : List Char :=
  ['#', '[', 'c', 'f', 'g', '('] ++ (text ++ [')', ']'])

theorem path?_cfgAttribute (text : List Char) :
    path? (cfgAttribute text) = some (['c', 'f', 'g'], '(' :: (text ++ [')', ']'])) := by
  have hblank : isBlank 'c' = false := rfl
  have hstart : isIdentifierStart 'c' = true := rfl
  have hword : isPathChar 'c' = true ∧ isPathChar 'f' = true ∧ isPathChar 'g' = true ∧
      isPathChar '(' = false := by decide +kernel
  simp [cfgAttribute, path?, trimLeft, hblank, hstart, hword]

theorem mentionsTest_of_isTest {condition : Condition} (h : condition.isTest = true) :
    condition.mentionsTest = true := by
  cases condition with
  | option name =>
      rw [mentionsTest_option]
      rw [isTest] at h
      exact h
  | setting | combine | negation => cases h

/-- What an attribute says, by the atoms of its condition. -/
theorem meaning_cfgAttribute {condition : Condition} (hplain : condition.IsPlain) {text : List Char}
    (h : Spaced condition.words text) :
    meaning (cfgAttribute text) =
      if condition.deniesTest then .notTest
      else if condition.mentionsTest then .test else .unrelated := by
  have hcompact : compact ('(' :: (text ++ [')', ']'])) =
      '(' :: (condition.words.flatten ++ [')', ']']) := by
    rw [compact, List.filter_cons_of_pos rfl, List.filter_append, ← compact,
      h.compact_eq (space_not_mem_words hplain)]
    rfl
  have hdenial : occursIn denial ('(' :: (condition.words.flatten ++ [')', ']'])) =
      condition.deniesTest := by
    rw [occursIn_cons, occursIn_append_cons (by decide), occursIn_denial_words hplain]
    exact Bool.or_false _
  have hstart : startsWith ('(' :: testAtom) ('(' :: (condition.words.flatten ++ [')', ']'])) =
      condition.isTest := by
    have hclosing : ')' ∉ testAtom := by decide
    rw [← startsWith_testAtom_words hplain,
      ← startsWith_append_cons hclosing condition.words.flatten [']']]
    rfl
  have hatom : hasTestAtom none ('(' :: (text ++ [')', ']'])) = condition.mentionsTest := by
    rw [hasTestAtom_cons_of_ne (by decide), hasTestAtom_append_cons (by decide),
      hasTestAtom_words hplain h rfl rfl]
    exact Bool.or_false _
  have hmentions : (condition.isTest || condition.mentionsTest) = condition.mentionsTest := by
    cases htest : condition.isTest with
    | false => rfl
    | true => rw [mentionsTest_of_isTest htest, Bool.or_self]
  have hdecided : conditionMeaning ('(' :: (text ++ [')', ']'])) =
      if condition.deniesTest then .notTest
      else if condition.mentionsTest then .test else .unrelated := by
    rw [conditionMeaning_eq, hcompact, hdenial, hstart, hatom, hmentions]
  rw [meaning, path?_cfgAttribute]
  exact hdecided

/-! ## Where the negations stand -/

/-- Only conditions without the atom have no negations of it to count. -/
theorem testNegations_eq_nil_iff {condition : Condition} :
    condition.testNegations = [] ↔ condition.mentionsTest = false := by
  induction condition using inductionOn with
  | option name =>
      rw [testNegations, mentionsTest_option]
      by_cases h : name = testAtom <;> simp [h]
  | setting => exact iff_of_true rfl rfl
  | combine connective parts ih =>
      rw [testNegations, testNegationsEach_eq, List.flatMap_eq_nil_iff, mentionsTest_combine,
        List.any_eq_false]
      exact forall₂_congr fun part hpart => by rw [ih part hpart, Bool.not_eq_true]
  | negation part ih => rw [testNegations, List.map_eq_nil_iff, ih, mentionsTest_negation]

/-- Where `not` never stands in front of `all` or `any`, a negated atom is negated directly. -/
theorem eq_zero_or_deniesTest {condition : Condition}
    (h : ∀ part ∈ condition.within, part.isCombinationDenial = false) {negations : Nat}
    (hmem : negations ∈ condition.testNegations) :
    negations = 0 ∨ condition.deniesTest = true := by
  induction condition using inductionOn generalizing negations with
  | option name =>
      rw [testNegations] at hmem
      split at hmem
      · exact .inl (List.mem_singleton.mp hmem)
      · cases hmem
  | setting => cases hmem
  | combine connective parts ih =>
      rw [testNegations, testNegationsEach_eq, List.mem_flatMap] at hmem
      obtain ⟨part, hpart, hmem⟩ := hmem
      have hwithin : ∀ inner ∈ part.within, inner.isCombinationDenial = false := fun inner hinner =>
        h inner (mem_within_combine hpart hinner)
      rw [deniesTest_combine, List.any_eq_true]
      exact (ih part hpart hwithin hmem).imp_right fun hdenies => ⟨part, hpart, hdenies⟩
  | negation part ih =>
      rw [testNegations, List.mem_map] at hmem
      obtain ⟨fewer, hfewer, rfl⟩ := hmem
      have hwithin : ∀ inner ∈ part.within, inner.isCombinationDenial = false := fun inner hinner =>
        h inner (List.mem_cons_of_mem _ hinner)
      rw [deniesTest_negation, Bool.or_eq_true]
      refine .inr ?_
      cases part with
      | option name =>
          rw [testNegations] at hfewer
          split at hfewer
          · next htest => exact .inl (beq_iff_eq.mpr htest)
          · cases hfewer
      | setting => cases hfewer
      | combine => cases h _ List.mem_cons_self
      | negation part =>
          refine .inr ((ih hwithin hfewer).resolve_left ?_)
          rw [testNegations, List.mem_map] at hfewer
          obtain ⟨fewest, _, rfl⟩ := hfewer
          exact Nat.succ_ne_zero fewest

/-- **Only a `not` directly in front of `test` is heard.** An attribute in whose condition every
`test` is negated an odd number of times makes no test of the item exactly if some `not` stands
directly in front of one of them. That is always so where no `not` stands in front of `all` or
`any`. -/
theorem meaning_cfgAttribute_ne_test_iff {condition : Condition} (hplain : condition.IsPlain)
    {text : List Char} (h : Spaced condition.words text) (hnegative : condition.IsNegative) :
    (meaning (cfgAttribute text) ≠ .test ↔
      (condition.mentionsTest = true → condition.deniesTest = true)) ∧
    ((∀ part ∈ condition.within, part.isCombinationDenial = false) →
      meaning (cfgAttribute text) ≠ .test) := by
  have hexact : meaning (cfgAttribute text) ≠ .test ↔
      (condition.mentionsTest = true → condition.deniesTest = true) := by
    rw [meaning_cfgAttribute hplain h]
    cases condition.deniesTest <;> cases condition.mentionsTest <;> simp
  refine ⟨hexact, fun hnone => hexact.mpr fun hmentions => ?_⟩
  have hnonempty : condition.testNegations ≠ [] := by
    rw [Ne, testNegations_eq_nil_iff, hmentions]
    exact Bool.noConfusion
  obtain ⟨negations, hmem⟩ := List.exists_mem_of_ne_nil _ hnonempty
  refine (eq_zero_or_deniesTest hnone hmem).resolve_left fun hzero => ?_
  have hodd := hnegative negations hmem
  rw [hzero] at hodd
  cases hodd

/-- Two negations, one of the atom itself and one of an alternative that holds it. -/
theorem meaning_cfgAttribute_negated_twice :
    let condition := combine .all [.option "unix".toList, .negation (.option testAtom),
      .negation (.combine .any [.option "windows".toList, .option testAtom])]
    let text := "all( unix,not (test ), not(any(windows,test)))".toList
    condition.IsPlain ∧ Spaced condition.words text ∧ condition.IsNegative ∧
    meaning (cfgAttribute text) ≠ .test := by
  intro condition text
  have hplain : condition.IsPlain := by decide +kernel
  have hspaced : Spaced condition.words text :=
    .cons 0 (.cons 0 (.cons 1 (.cons 0 (.cons 0 (.cons 1 (.cons 0 (.cons 1 (.cons 0 (.cons 1
      (.cons 0 (.cons 0 (.cons 0 (.cons 0 (.cons 0 (.cons 0 (.cons 0 (.cons 0 (.cons 0
        (.nil 0)))))))))))))))))))
  have hnegative : condition.IsNegative := by decide +kernel
  have hdenied : condition.mentionsTest = true → condition.deniesTest = true := by decide +kernel
  exact ⟨hplain, hspaced, hnegative,
    (meaning_cfgAttribute_ne_test_iff hplain hspaced hnegative).1.mpr hdenied⟩

/-- A negated alternative of which the atom is one part makes a test of the item. -/
theorem meaning_cfgAttribute_negated_any :
    let condition := negation (.combine .any [.option "unix".toList, .option testAtom])
    let text := "not(any(unix, test))".toList
    condition.IsPlain ∧ Spaced condition.words text ∧ condition.IsNegative ∧
    meaning (cfgAttribute text) = .test := by
  intro condition text
  have hspaced : Spaced condition.words text :=
    .cons 0 (.cons 0 (.cons 0 (.cons 0 (.cons 0 (.cons 0 (.cons 1 (.cons 0 (.cons 0 (.nil 0)))))))))
  exact ⟨by decide +kernel, hspaced, by decide +kernel, by decide +kernel⟩

/-- **Conditions without `not`.** An attribute in whose condition nothing is negated makes a test of
the item if the atom `test` occurs in the condition, wherever that is and whatever spaces are
around it. Otherwise it has nothing to do with tests. -/
theorem meaning_cfgAttribute_of_isPositive {condition : Condition}
    (hpositive : condition.IsPositive) (hplain : condition.IsPlain) {text : List Char}
    (h : Spaced condition.words text) :
    meaning (cfgAttribute text) = if condition.mentionsTest then .test else .unrelated := by
  have hdenies : condition.deniesTest = false := by
    rw [deniesTest, List.any_eq_false]
    intro part hpart
    cases part with
    | negation part => cases hpositive _ hpart
    | option | setting | combine => exact Bool.false_ne_true
  rw [meaning_cfgAttribute hplain h, hdenies, if_neg Bool.false_ne_true]

/-- An atom that is not the first part, next to a value that looks like a negation. -/
theorem meaning_cfgAttribute_nested_any :
    let condition := combine .all [.option "unix".toList,
      .combine .any [.setting "feature".toList "not(".toList, .option testAtom]]
    let text := "all( unix,any (feature = \"not(\" , test))".toList
    condition.IsPositive ∧ condition.IsPlain ∧ Spaced condition.words text ∧
    meaning (cfgAttribute text) = .test := by
  intro condition text
  have hpositive : condition.IsPositive := by decide +kernel
  have hplain : condition.IsPlain := by decide +kernel
  have hspaced : Spaced condition.words text :=
    .cons 0 (.cons 0 (.cons 1 (.cons 0 (.cons 0 (.cons 1 (.cons 0 (.cons 1 (.cons 1 (.cons 1
      (.cons 1 (.cons 0 (.cons 0 (.nil 0)))))))))))))
  have hmentions : condition.mentionsTest = true := by decide +kernel
  refine ⟨hpositive, hplain, hspaced, ?_⟩
  rw [meaning_cfgAttribute_of_isPositive hpositive hplain hspaced, if_pos hmentions]

end Condition

end LineCensus.Attribute
