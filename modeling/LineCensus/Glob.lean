/-
# Globs

Patterns for names and paths. An asterisk stands for any text and a question mark for
any character, separators and line feeds included, and brackets enclose a class of
characters. Everything else stands for itself, and so does a bracket that is never
closed.

A class may begin with an exclamation mark, which inverts it. A closing bracket right
at its start belongs to it, and an opening bracket anywhere in it is an ordinary
character. A hyphen between two characters denotes a range. A range whose ends are in
the wrong order drops out together with them, which can leave a class without any
character.
-/

import LineCensus.Text.Search

namespace LineCensus

open Text

/-- What one character may be. -/
structure CharClass where
  inverted : Bool
  /-- Closed intervals of characters. -/
  ranges : List (Char × Char)
deriving DecidableEq, Repr

def CharClass.holds (chars : CharClass) (c : Char) : Bool :=
  chars.ranges.any (fun range => range.1 ≤ c && c ≤ range.2) != chars.inverted

namespace CharClass

/-- The parts of a class between the hyphens that denote ranges. The first such hyphen follows at
least `lead` characters, and each other at least two after the one before. -/
def parts (lead : Nat) (body : List Char) : List (List Char) :=
  match h : position? ['-'] (body.drop lead) with
  | none => [body]
  | some offset =>
    if body.drop (lead + offset) = [] then [body]
    else body.take (lead + offset) :: parts 2 (body.drop (lead + offset + 1))
termination_by body.length
decreasing_by
  have := List.length_pos_iff.2 ‹_›
  simp only [List.length_drop] at this ⊢
  omega

/-- The parts of a class, with a hyphen at its end taken as a character. -/
def withFinalHyphen (parts : List (List Char)) : List (List Char) :=
  match parts.reverse with
  | [] :: last :: others => ((last ++ ['-']) :: others).reverse
  | _ => parts

/-- Whether the range between two neighbouring parts has its ends in the wrong order. -/
def isEmptyRange (left right : List Char) : Bool :=
  match left.getLast?, right.head? with
  | some low, some high => high < low
  | _, _ => false

/-- The parts of a class without the ranges that hold no character, from the last to the first. -/
def withoutEmptyRanges : List (List Char) → List (List Char)
  | [] => []
  | part :: others =>
    match withoutEmptyRanges others with
    | [] => [part]
    | next :: beyond =>
      if isEmptyRange part next then (part.dropLast ++ next.drop 1) :: beyond
      else part :: next :: beyond

/-- A character of a class, or the hyphen of a range. -/
inductive Token where
  | character (c : Char)
  | hyphen
deriving DecidableEq, Repr

/-- The tokens of a class. -/
def tokens (parts : List (List Char)) : List Token :=
  List.intercalate [.hyphen] (parts.map (·.map .character))

/-- The ranges that tokens denote. A hyphen with nothing before it is a character. -/
def rangesOf : List Token → List (Char × Char)
  | .character low :: .hyphen :: .character high :: rest => (low, high) :: rangesOf rest
  | .character c :: rest => (c, c) :: rangesOf rest
  | .hyphen :: rest => ('-', '-') :: rangesOf rest
  | [] => []

/-- The class that a text between brackets denotes. -/
def ofBody (body : List Char) : CharClass :=
  let lead := if body.head? = some '!' then 2 else 1
  match tokens (withoutEmptyRanges (withFinalHyphen (parts lead body))) with
  | .character '!' :: rest => ⟨true, rangesOf rest⟩
  | all => ⟨false, rangesOf all⟩

end CharClass

/-- A piece of a glob. -/
inductive GlobItem where
  | anyText
  | anyChar
  | oneOf (chars : CharClass)
  /-- A character that stands for itself. -/
  | exactly (c : Char)
deriving DecidableEq, Repr

/-- Whether an item and what follows it match the endings of a text, the longest ending first.
`found` are the answers for what follows the item. -/
def GlobItem.onEndings (item : GlobItem) : List Char → List Bool → List Bool
  | [], found => if item = .anyText then found.take 1 else [false]
  | c :: text, found =>
    let later := item.onEndings text found.tail
    let answer := match item with
      | .anyText => found.headD false || later.headD false
      | .anyChar => found.tail.headD false
      | .oneOf chars => chars.holds c && found.tail.headD false
      | .exactly expected => expected == c && found.tail.headD false
    answer :: later

/-- A pattern for texts. -/
abbrev Glob := List GlobItem

namespace Glob

/-- The text of a class after its opening bracket up to its closing one, and what follows. -/
def classBody? (text : List Char) : Option (List Char × List Char) :=
  let bang := if text.head? = some '!' then 1 else 0
  let bracket := if text[bang]? = some ']' then 1 else 0
  (position? [']'] (text.drop (bang + bracket))).map fun offset =>
    (text.take (bang + bracket + offset), text.drop (bang + bracket + offset + 1))

theorem length_classBody? {text body beyond : List Char}
    (h : classBody? text = some (body, beyond)) : beyond.length ≤ text.length := by
  simp only [classBody?, Option.map_eq_some_iff, Prod.mk.injEq] at h
  obtain ⟨_, _, _, rfl⟩ := h
  simp only [List.length_drop]
  omega

/-- The glob that a text spells. Every text spells one. -/
def parse : List Char → Glob
  | [] => []
  | c :: rest =>
    if c = '*' then .anyText :: parse rest
    else if c = '?' then .anyChar :: parse rest
    else if c = '[' then
      match h : classBody? rest with
      | some (body, beyond) =>
        have := length_classBody? h
        .oneOf (.ofBody body) :: parse beyond
      | none => .exactly c :: parse rest
    else .exactly c :: parse rest
termination_by text => text.length
decreasing_by all_goals simp; try omega

/-- Whether a glob matches the endings of a text, the longest ending first and the empty one last.
The answers are found from the last item of the glob on, so that no part of the text is tried twice
for the same item. -/
def onEndings : Glob → List Char → List Bool
  | [], text => text.map (fun _ => false) ++ [true]
  | item :: rest, text => item.onEndings text (onEndings rest text)

/-- Whether a glob matches the whole of a text. -/
def isMatch (glob : Glob) (text : List Char) : Bool :=
  (glob.onEndings text).headD false

/-- The answers for the shorter endings do not depend on what is in front of them. -/
theorem tail_onEndings (glob : Glob) (c : Char) (text : List Char) :
    (onEndings glob (c :: text)).tail = onEndings glob text := by
  induction glob with
  | nil => rfl
  | cons item rest ih =>
    show item.onEndings text (onEndings rest (c :: text)).tail = onEndings (item :: rest) text
    rw [ih, onEndings]

/-- An empty glob matches an empty text alone. -/
theorem isMatch_nil (text : List Char) : isMatch [] text = text.isEmpty := by
  cases text <;> rfl

/-- At the end of a text, any text is none. -/
theorem isMatch_anyText_nil (rest : Glob) : isMatch (.anyText :: rest) [] = isMatch rest [] := by
  rw [isMatch, onEndings, GlobItem.onEndings, if_pos rfl, isMatch]
  cases onEndings rest [] <;> rfl

/-- Any text is none, or it takes the next character and goes on. -/
theorem isMatch_anyText_cons (rest : Glob) (c : Char) (text : List Char) :
    isMatch (.anyText :: rest) (c :: text) =
      (isMatch rest (c :: text) || isMatch (.anyText :: rest) text) := by
  rw [isMatch, onEndings, GlobItem.onEndings, tail_onEndings]
  rfl

/-- Any character is the next one. -/
theorem isMatch_anyChar_cons (rest : Glob) (c : Char) (text : List Char) :
    isMatch (.anyChar :: rest) (c :: text) = isMatch rest text := by
  rw [isMatch, onEndings, GlobItem.onEndings, tail_onEndings]
  rfl

/-- The next character has to be one of a class. -/
theorem isMatch_oneOf_cons (chars : CharClass) (rest : Glob) (c : Char) (text : List Char) :
    isMatch (.oneOf chars :: rest) (c :: text) = (chars.holds c && isMatch rest text) := by
  rw [isMatch, onEndings, GlobItem.onEndings, tail_onEndings]
  rfl

/-- The next character has to be a given one. -/
theorem isMatch_exactly_cons (expected : Char) (rest : Glob) (c : Char) (text : List Char) :
    isMatch (.exactly expected :: rest) (c :: text) = (expected == c && isMatch rest text) := by
  rw [isMatch, onEndings, GlobItem.onEndings, tail_onEndings]
  rfl

/-- At the end of a text there is no character left to match. -/
theorem isMatch_cons_nil {item : GlobItem} (h : item ≠ .anyText) (rest : Glob) :
    isMatch (item :: rest) [] = false := by
  rw [isMatch, onEndings, GlobItem.onEndings, if_neg h]
  rfl

end Glob

/-- Whether the glob that `pattern` spells matches a text. -/
def globMatches (pattern text : List Char) : Bool :=
  (Glob.parse pattern).isMatch text

end LineCensus
