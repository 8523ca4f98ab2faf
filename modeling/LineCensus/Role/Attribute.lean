/-
# Test attributes in Rust

An attribute on a line of its own can mark the item after it as a test. This module
reads that off the text of the line. It is a reading of words and not of the grammar
of conditions: the atom `test` counts wherever it stands between the punctuation of a
`cfg` condition, and `not(test` anywhere in the condition takes the mark away.
-/

import LineCensus.Text.Alphanumeric
import LineCensus.Text.Search

namespace LineCensus.Attribute

open Text

/-- What an attribute says about the item after it. -/
inductive Meaning where
  /-- The item is a test. -/
  | test
  /-- The item is left out of tests. -/
  | notTest
  /-- The line has nothing to do with tests. -/
  | unrelated
deriving DecidableEq, Repr

/-- Whether a character can begin an identifier. -/
def isIdentifierStart (c : Char) : Bool :=
  c.isAlpha || c == '_'

/-- Whether a character can go on in the path of an attribute. -/
def isPathChar (c : Char) : Bool :=
  isWordChar c || c == ':'

/-- The path of an attribute and what follows it, for a line that begins with `#[` or `#![`. -/
def path? (line : List Char) : Option (List Char × List Char) :=
  match line with
  | '#' :: '[' :: rest | '#' :: '!' :: '[' :: rest =>
    let body := trimLeft rest
    if body.head?.any isIdentifierStart then
      some (body.takeWhile isPathChar, body.dropWhile isPathChar)
    else none
  | _ => none

/-- The last segment of a path, of which `current` is already read in reverse. -/
def lastSegmentAfter (current : List Char) : List Char → List Char
  | ':' :: ':' :: rest => lastSegmentAfter [] rest
  | c :: rest => lastSegmentAfter (c :: current) rest
  | [] => current.reverse

/-- The last segment of a path. Of three colons in a row the first two separate. -/
def lastSegment (path : List Char) : List Char :=
  lastSegmentAfter [] path

/-- The atom that marks a test. -/
def testAtom : List Char := ['t', 'e', 's', 't']

/-- Whether `test` occurs in a text with an opening parenthesis, a comma or a space before it and
a closing parenthesis, a comma or a space after it. -/
def hasTestAtom (previous : Option Char) : List Char → Bool
  | [] => false
  | c :: rest =>
    (previous.any (['(', ',', ' '].contains ·) && startsWith testAtom (c :: rest) &&
        ((rest.drop 3).head?.any ([')', ',', ' '].contains ·))) ||
      hasTestAtom (some c) rest

/-- What the arguments of a `cfg` attribute say. Spaces are no obstacle to `not(test` and to a
condition that begins with `test`. -/
def conditionMeaning (arguments : List Char) : Meaning :=
  let compact := arguments.filter (· != ' ')
  if occursIn (['n', 'o', 't', '('] ++ testAtom) compact then .notTest
  else if startsWith ('(' :: testAtom) compact || hasTestAtom none arguments then .test
  else .unrelated

/-- What a line says about the item after it. -/
def meaning (line : List Char) : Meaning :=
  match path? line with
  | none => .unrelated
  | some (path, arguments) =>
    if lastSegment path == testAtom then .test
    else if path == ['c', 'f', 'g'] then conditionMeaning arguments
    else .unrelated

end LineCensus.Attribute
