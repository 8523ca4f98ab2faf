/-
# Tokens of YAML

What a YAML text consists of once its layout has been understood. The ends of block
collections have tokens of their own, although nothing in the text spells them. The
names in anchors, tags and directives are read here as well, since nothing about them
depends on the layout.
-/

import LineCensus.Text.Utf8
import LineCensus.Yaml.QuotedScalar

namespace LineCensus.Yaml

open Text

/-- A tag as it is written. -/
structure TagName where
  /-- The handle that stands for the beginning of the tag, none if the tag is written in full. -/
  handle : Option String
  suffix : String
deriving DecidableEq, Repr

/-- A line that says something about the document after it. -/
inductive Directive where
  | version (major : Nat)
  /-- What a handle stands for. -/
  | handle (handle meaning : String)
  /-- Something without a meaning. -/
  | reserved
deriving DecidableEq, Repr

/-- A part of a YAML text. -/
inductive Token where
  | directive (directive : Directive)
  | documentStart
  | documentEnd
  | blockSequenceStart
  | blockMappingStart
  | blockEnd
  | flowSequenceStart
  | flowSequenceEnd
  | flowMappingStart
  | flowMappingEnd
  /-- The hyphen in front of an item. -/
  | item
  /-- What separates the parts of a collection in brackets. -/
  | comma
  | key
  | value
  | alias (name : String)
  | anchor (name : String)
  | tag (name : TagName)
  | scalar (text : String) (isPlain : Bool)
deriving DecidableEq, Repr

/-- Whether a character may be part of the name of an anchor, a handle or a directive. -/
def isNameChar (c : Char) : Bool :=
  c.isAlphanum || c == '-' || c == '_'

/-- The punctuation that may be part of a tag. -/
def tagPunctuation : List Char :=
  ['-', ';', '/', '?', ':', '@', '&', '=', '+', '$', ',', '_', '.', '!', '~', '*', '\'', '(', ')',
    '[', ']', '%']

/-- Whether a character may be part of a tag. -/
def isTagChar (c : Char) : Bool :=
  c.isAlphanum || tagPunctuation.contains c

/-- What may follow the name of an anchor without a space. -/
def anchorEnds : List Char := ['?', ':', ',', ']', '}', '%', '@', '\x60']

/-- The bytes that the characters of a tag stand for. -/
def tagBytes? : List Char → Option (List UInt8)
  | [] => some []
  | '%' :: high :: low :: rest => do
    let byte := (← hexValue? high) * 16 + (← hexValue? low)
    return UInt8.ofNat byte :: (← tagBytes? rest)
  | c :: rest => if c = '%' then none else (tagBytes? rest).map (UInt8.ofNat c.toNat :: ·)

namespace Cursor

/-- The name after the mark of an anchor or an alias, and the place after it. -/
def anchorName? (cursor : Cursor) : Option (String × Cursor) :=
  let name := cursor.forward.rest.takeWhile isNameChar
  let after := cursor.forward.skip name.length
  if !name.isEmpty && (isWordEnd after.rest || after.rest.head?.any anchorEnds.contains) then
    some (String.ofList name, after)
  else none

/-- The nonempty characters of a tag at a place, and the place after them. -/
def tagText? (cursor : Cursor) : Option (String × Cursor) := do
  let written := cursor.rest.takeWhile isTagChar
  if written.isEmpty then failure
  let text ← Utf8.decode? (← tagBytes? written)
  return (String.ofList text, cursor.skip written.length)

/-- The handle at a place that has a second exclamation mark, and the place after it. -/
def longHandle? (cursor : Cursor) : Option (String × Cursor) :=
  let name := cursor.forward.rest.takeWhile isNameChar
  let after := cursor.forward.skip name.length
  if after.rest.head? = some '!' then some (String.ofList ('!' :: name ++ ['!']), after.forward)
  else none

/-- The tag at a place, and the place after it. -/
def tagName? (cursor : Cursor) : Option (TagName × Cursor) := do
  let ahead := cursor.forward.rest
  let (name, after) ←
    if ahead.head? = some '<' then do
      let (suffix, after) ← (cursor.skip 2).tagText?
      if after.rest.head? ≠ some '>' then failure
      pure ((⟨none, suffix⟩ : TagName), after.forward)
    else if isWordEnd ahead then pure (⟨none, "!"⟩, cursor.forward)
    else do
      let isLong := (ahead.takeWhile fun c => !isSpaceAhead [c]).contains '!'
      let (handle, place) ← if isLong then cursor.longHandle? else some ("!", cursor.forward)
      let (suffix, after) ← place.tagText?
      pure (⟨some handle, suffix⟩, after)
  if isSpaceAhead after.rest then return (name, after) else failure

/-- The number at a place, and the place after it. -/
def number? (cursor : Cursor) : Option (Nat × Cursor) :=
  let digits := cursor.rest.takeWhile Char.isDigit
  if digits.isEmpty then none
  else
    let value := digits.foldl (fun value c => value * 10 + (c.toNat - '0'.toNat)) 0
    some (value, cursor.skip digits.length)

/-- The version at a place, and the place after it. -/
def version? (cursor : Cursor) : Option (Directive × Cursor) := do
  let (major, after) ← cursor.number?
  if after.rest.head? ≠ some '.' then failure
  let (_, after) ← after.forward.number?
  if isSpaceAhead after.rest then return (.version major, after) else failure

/-- The handle at a place and what it stands for, and the place after that. -/
def handleMeaning? (cursor : Cursor) : Option (Directive × Cursor) := do
  if cursor.rest.head? ≠ some '!' then failure
  let (handle, after) ←
    if cursor.forward.rest.head? = some ' ' then some ("!", cursor.forward)
    else cursor.longHandle?
  if after.rest.head? ≠ some ' ' then failure
  let (meaning, after) ← (after.skipWhile (· == ' ')).tagText?
  if isSpaceAhead after.rest then return (.handle handle meaning, after) else failure

/-- The directive at a place, and the beginning of the next line. -/
def directive? (cursor : Cursor) : Option (Directive × Cursor) := do
  let name := cursor.forward.rest.takeWhile isNameChar
  let place := cursor.forward.skip name.length
  if name.isEmpty || !isSpaceAhead place.rest then failure
  let (directive, after) ←
    match String.ofList name with
    | "YAML" => (place.skipWhile (· == ' ')).version?
    | "TAG" => (place.skipWhile (· == ' ')).handleMeaning?
    | _ => some (.reserved, place.skipWhile (!isBreak ·))
  return (directive, ← after.restOfLine?)

end Cursor

end LineCensus.Yaml
