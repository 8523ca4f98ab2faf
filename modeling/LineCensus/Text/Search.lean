/-
# Finding one text in another

Occurrences are counted in characters from the start of the text that is searched.
The empty text occurs at every position, the end included, which is why a search
never needs a special case for it.
-/

import LineCensus.Text.Blank

namespace LineCensus.Text

/-- Whether `text` begins with `piece`. -/
def startsWith (piece text : List Char) : Bool :=
  piece.isPrefixOf text

/-- Whether `text` begins with one of the `pieces`. -/
def startsWithAny (pieces : List (List Char)) (text : List Char) : Bool :=
  pieces.any (startsWith · text)

def endsWith (piece text : List Char) : Bool :=
  piece.isSuffixOf text

/-- The first position, counted on from a given one, where `piece` occurs and which `accepts` allows. -/
def positionFrom? (accepts : Nat → Bool) (piece : List Char) : List Char → Nat → Option Nat
  | [], here => if piece.isEmpty && accepts here then some here else none
  | c :: rest, here =>
    if startsWith piece (c :: rest) && accepts here then some here
    else positionFrom? accepts piece rest (here + 1)

/-- The position of the first occurrence of `piece`. -/
def position? (piece text : List Char) : Option Nat :=
  positionFrom? (fun _ => true) piece text 0

def occursIn (piece text : List Char) : Bool :=
  (position? piece text).isSome

/-- What follows the first occurrence of `piece`. -/
def after? (piece text : List Char) : Option (List Char) :=
  (position? piece text).map fun start => text.drop (start + piece.length)

/-- How many positions of `text` begin with `piece`. -/
def occurrences (piece : List Char) : List Char → Nat
  | [] => 0
  | c :: rest => occurrences piece rest + if startsWith piece (c :: rest) then 1 else 0

/-- What follows the last occurrence of a nonempty `piece`, the whole text if it does not occur. -/
def afterLast (piece text : List Char) : List Char :=
  match position? piece.reverse text.reverse with
  | some fromEnd => text.drop (text.length - fromEnd)
  | none => text

/-- The pieces of a text between the separators, of which there is one more than separators. -/
def splitOn (separator : Char) : List Char → List (List Char)
  | [] => [[]]
  | c :: rest =>
    if c = separator then [] :: splitOn separator rest
    else match splitOn separator rest with
      | [] => [[c]]
      | first :: others => (c :: first) :: others

/-- A position found by a search is one that the search allows. -/
theorem accepts_of_positionFrom? {accepts : Nat → Bool} {piece text : List Char} {here found : Nat}
    (h : positionFrom? accepts piece text here = some found) : accepts found = true := by
  induction text generalizing here with
  | nil =>
    simp only [positionFrom?] at h
    split at h
    · simp_all
    · simp at h
  | cons c rest ih =>
    simp only [positionFrom?] at h
    split at h
    · simp_all
    · exact ih h

/-- Positions that are all allowed may be counted from anywhere. -/
theorem positionFrom?_succ (piece text : List Char) (here : Nat) :
    positionFrom? (fun _ => true) piece text (here + 1) =
      (positionFrom? (fun _ => true) piece text here).map (· + 1) := by
  induction text generalizing here with
  | nil => simp only [positionFrom?]; split <;> rfl
  | cons c rest ih =>
    simp only [positionFrom?]
    split
    · rfl
    · exact ih (here + 1)

/-- The first occurrence is at the very start or it is the first one further on. -/
theorem position?_cons (piece : List Char) (c : Char) (rest : List Char) :
    position? piece (c :: rest) =
      if startsWith piece (c :: rest) then some 0 else (position? piece rest).map (· + 1) := by
  simp only [position?, positionFrom?, Bool.and_true, positionFrom?_succ]

theorem position?_nil {piece : List Char} (h : piece ≠ []) : position? piece [] = none := by
  simp [position?, positionFrom?, h]

theorem after?_cons (piece : List Char) (c : Char) (rest : List Char) :
    after? piece (c :: rest) =
      if startsWith piece (c :: rest) then some ((c :: rest).drop piece.length)
      else after? piece rest := by
  simp only [after?, position?_cons]
  split
  · simp
  · cases position? piece rest with
    | none => rfl
    | some start =>
      simp only [Option.map_some, Option.some.injEq]
      rw [show start + 1 + piece.length = start + piece.length + 1 by omega, List.drop_succ_cons]

/-- What follows an occurrence is no longer than the text. -/
theorem length_of_after? {piece text rest : List Char} (h : after? piece text = some rest) :
    rest.length ≤ text.length := by
  obtain ⟨start, _, rfl⟩ := Option.map_eq_some_iff.mp h
  simp

end LineCensus.Text
