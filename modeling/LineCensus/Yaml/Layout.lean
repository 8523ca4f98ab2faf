/-
# The layout of YAML

From a text to its tokens. Block collections are told by indentation: an item or a key
further to the right than those before opens a collection, and whatever begins further
to the left closes it. A key need not be marked as one. That a scalar or a collection in
brackets was a key shows only at the colon after it, so wherever a key may begin its
place is kept in mind, and its token is put there once the colon is found. Such a key
has to stand on the line of its colon and not too far in front of it.
-/

import LineCensus.Yaml.BlockScalar
import LineCensus.Yaml.PlainScalar
import LineCensus.Yaml.Token

namespace LineCensus.Yaml

/-- A place where a key without a mark may have begun. -/
structure ImplicitKey where
  /-- How many tokens come before it. -/
  position : Nat
  /-- Whether nothing but a key can stand there. -/
  isRequired : Bool
  index : Nat
  line : Nat
  column : Nat
deriving DecidableEq, Repr

/-- The most characters from a key without a mark up to its colon. -/
def maxKeyLength : Nat := 1024

/-- What is known of the layout when a text has been read up to a place. -/
structure Layout where
  cursor : Cursor
  tokens : Array Token
  /-- The columns of the open block collections, the innermost first. -/
  blocks : List Nat
  /-- The possible key inside the innermost brackets, or outside of any. -/
  key : Option ImplicitKey
  /-- The possible keys outside of the brackets that are open, from the inside out. -/
  outerKeys : List (Option ImplicitKey)
  /-- Whether a key without a mark may begin. -/
  isKeyAllowed : Bool

namespace Layout

/-- The layout at the beginning of a text, which may have a byte-order mark. -/
def start (text : List Char) : Layout :=
  let cursor := Cursor.start text
  let cursor := if text.head? = some byteOrderMark then cursor.forward else cursor
  ⟨cursor, #[], [], none, [], true⟩

/-- Whether brackets are open. -/
def isInFlow (layout : Layout) : Bool :=
  !layout.outerKeys.isEmpty

/-- The leftmost column of what is inside the innermost block collection. -/
def minColumn (layout : Layout) : Nat :=
  match layout.blocks with
  | [] => 0
  | column :: _ => column + 1

/-- The layout with one more token. -/
def emit (layout : Layout) (token : Token) : Layout :=
  { layout with tokens := layout.tokens.push token }

/-- The layout with a token put among the others. -/
def insert (layout : Layout) (position : Nat) (token : Token) : Layout :=
  { layout with tokens := layout.tokens.insertIdxIfInBounds position token }

/-- The layout with a token up to a place. -/
def read (layout : Layout) (token : Token) (after : Cursor) : Layout :=
  { layout.emit token with cursor := after }

/-- The layout in which a key without a mark may begin or not. -/
def allowKey (layout : Layout) (isAllowed : Bool) : Layout :=
  { layout with isKeyAllowed := isAllowed }

/-- Closes the inner block collections as far as their columns say so. -/
def closeBlocks (layout : Layout) (isClosed : Nat → Bool) : Layout :=
  if layout.isInFlow then layout
  else
    let closed := layout.blocks.takeWhile isClosed
    { layout with
      tokens := layout.tokens ++ Array.replicate closed.length Token.blockEnd
      blocks := layout.blocks.dropWhile isClosed }

/-- Opens a block collection at a column, unless there is one at that column or to the right of
it. Its token is put at a position among the others. -/
def openBlock (layout : Layout) (token : Token) (position column : Nat) : Layout :=
  if layout.minColumn ≤ column then
    { layout.insert position token with blocks := column :: layout.blocks }
  else layout

/-- Gives up a possible key. Where nothing but a key can stand, that is an error. -/
def giveUpKey (layout : Layout) : Option Layout :=
  if layout.key.any (·.isRequired) then none else some { layout with key := none }

/-- Keeps in mind that a key may begin at the cursor. -/
def noteKey (layout : Layout) : Option Layout := do
  if layout.isKeyAllowed then
    let layout ← layout.giveUpKey
    let cursor := layout.cursor
    let isRequired := !layout.isInFlow && layout.blocks.head? = some cursor.column
    return { layout with
      key := some ⟨layout.tokens.size, isRequired, cursor.index, cursor.line, cursor.column⟩ }
  else return layout

/-- What is left of a possible key once the text has been read up to a place: nothing if the colon
would be too far from it. -/
def keptKey (cursor : Cursor) : Option ImplicitKey → Option (Option ImplicitKey)
  | none => some none
  | some key =>
    if key.line = cursor.line ∧ cursor.index - key.index ≤ maxKeyLength then some (some key)
    else if key.isRequired then none
    else some none

/-- Gives up the possible keys that are too far away. -/
def giveUpDistantKeys (layout : Layout) : Option Layout := do
  return { layout with
    key := ← keptKey layout.cursor layout.key
    outerKeys := ← layout.outerKeys.mapM (keptKey layout.cursor) }

/-- A bracket that opens a collection. -/
def openFlow (layout : Layout) (token : Token) : Option Layout := do
  let layout ← layout.noteKey
  return { (layout.read token layout.cursor.forward).allowKey true with
    key := none
    outerKeys := layout.key :: layout.outerKeys }

/-- A bracket that closes a collection. -/
def closeFlow (layout : Layout) (token : Token) : Option Layout :=
  match layout.outerKeys with
  | [] => none
  | key :: outerKeys =>
    some { (layout.read token layout.cursor.forward).allowKey false with key, outerKeys }

/-- A comma in a collection in brackets. -/
def readComma (layout : Layout) : Option Layout := do
  let layout ← layout.giveUpKey
  return (layout.read .comma layout.cursor.forward).allowKey true

/-- A mark that begins a part of a block collection, which it may open. -/
def beginPart (layout : Layout) (collection : Token) : Option Layout := do
  let layout ←
    if layout.isInFlow then some layout
    else if layout.isKeyAllowed then
      some (layout.openBlock collection layout.tokens.size layout.cursor.column)
    else none
  layout.giveUpKey

/-- The hyphen in front of an item. -/
def readItem (layout : Layout) : Option Layout := do
  let layout ← layout.beginPart .blockSequenceStart
  return (layout.read .item layout.cursor.forward).allowKey true

/-- The mark in front of a key. -/
def readKey (layout : Layout) : Option Layout := do
  let layout ← layout.beginPart .blockMappingStart
  return (layout.read .key layout.cursor.forward).allowKey (!layout.isInFlow)

/-- The colon in front of a value. If a key may have begun before it, that was a key. -/
def readValue (layout : Layout) : Option Layout := do
  match layout.key with
  | some key =>
    let layout := { layout.insert key.position .key with key := none }
    let layout :=
      if layout.isInFlow then layout
      else layout.openBlock .blockMappingStart key.position key.column
    return (layout.read .value layout.cursor.forward).allowKey false
  | none =>
    let layout ← layout.beginPart .blockMappingStart
    return (layout.read .value layout.cursor.forward).allowKey (!layout.isInFlow)

/-- What can be a key or the beginning of one. -/
def readInline (layout : Layout) (read? : Cursor → Option (Token × Cursor)) : Option Layout := do
  let layout ← layout.noteKey
  let (token, after) ← read? layout.cursor
  return (layout.read token after).allowKey false

/-- A scalar without quotes. -/
def readPlain (layout : Layout) : Option Layout := do
  let layout ← layout.noteKey
  let scalar := layout.cursor.plainScalar layout.isInFlow layout.minColumn
  return (layout.read (.scalar (String.ofList scalar.text) true) scalar.after).allowKey
    scalar.endsLine

/-- A scalar on the lines below its header. -/
def readBlockScalar (layout : Layout) (folded : Bool) : Option Layout := do
  let layout ← layout.giveUpKey
  let (text, after) ← layout.cursor.blockScalar? folded layout.minColumn
  return (layout.read (.scalar (String.ofList text) false) after).allowKey true

/-- What stands between documents or before them. -/
def readBoundary (layout : Layout) (read? : Cursor → Option (Token × Cursor)) : Option Layout := do
  let layout ← (layout.closeBlocks fun _ => true).giveUpKey
  let (token, after) ← read? layout.cursor
  return (layout.read token after).allowKey false

/-- The characters that have a meaning at the beginning of a token. -/
def indicators : List Char :=
  ['-', '?', ':', ',', '[', ']', '{', '}', '#', '&', '*', '!', '|', '>', '\'', '"', '%', '@', '\x60']

/-- Whether a plain scalar can begin with a character in front of the given text. -/
def canBeginPlain (inFlow : Bool) (c : Char) (rest : List Char) : Bool :=
  !(isBlankOrBreak c || indicators.contains c) ||
    (!isWordEnd rest && (c == '-' || (!inFlow && (c == '?' || c == ':'))))

/-- A scalar between quotes. -/
def quotedToken? (quote : Char) (cursor : Cursor) : Option (Token × Cursor) :=
  (cursor.quotedScalar? quote).map fun (text, after) => (.scalar (String.ofList text) false, after)

/-- The token at the cursor, where the character `c` is in front of the text `rest`. -/
def readToken (layout : Layout) (c : Char) (rest : List Char) : Option Layout :=
  let isFirst := layout.cursor.column = 0
  let endsMark := layout.isInFlow || isWordEnd rest
  if c = '%' ∧ isFirst then
    layout.readBoundary fun cursor =>
      cursor.directive?.map fun (directive, after) => (.directive directive, after)
  else if isFirst ∧ layout.cursor.isAtDocumentMark then
    layout.readBoundary fun cursor =>
      some (if c = '-' then .documentStart else .documentEnd, cursor.skip 3)
  else if c = '[' then layout.openFlow .flowSequenceStart
  else if c = '{' then layout.openFlow .flowMappingStart
  else if c = ']' then layout.closeFlow .flowSequenceEnd
  else if c = '}' then layout.closeFlow .flowMappingEnd
  else if c = ',' then layout.readComma
  else if c = '-' ∧ isWordEnd rest then layout.readItem
  else if c = '?' ∧ endsMark then layout.readKey
  else if c = ':' ∧ endsMark then layout.readValue
  else if c = '*' then
    layout.readInline fun cursor =>
      cursor.anchorName?.map fun (name, after) => (.alias name, after)
  else if c = '&' then
    layout.readInline fun cursor =>
      cursor.anchorName?.map fun (name, after) => (.anchor name, after)
  else if c = '!' then
    layout.readInline fun cursor => cursor.tagName?.map fun (name, after) => (.tag name, after)
  else if c = '\'' ∨ c = '"' then layout.readInline (quotedToken? c)
  else if (c = '|' ∨ c = '>') ∧ !layout.isInFlow then layout.readBlockScalar (c = '>')
  else if canBeginPlain layout.isInFlow c rest then layout.readPlain
  else none

/-- The layout at the place of the next token. None if a key would have had to end before it. -/
def toToken? (layout : Layout) : Option Layout := do
  let (endsLine, cursor) := layout.cursor.toToken
  let isKeyAllowed := layout.isKeyAllowed || (endsLine && !layout.isInFlow)
  let layout ← { layout with cursor, isKeyAllowed }.giveUpDistantKeys
  return layout.closeBlocks (cursor.column < ·)

/-- All tokens of a text of a given size that has been read up to a place. Every token takes the
place forward. -/
def tokens? (size : Nat) (layout : Layout) : Option (List Token) :=
  match layout.toToken? with
  | none => none
  | some ready =>
    match ready.cursor.rest with
    | [] => (ready.closeBlocks fun _ => true).giveUpKey.map (·.tokens.toList)
    | c :: rest =>
      match ready.readToken c rest with
      | none => none
      | some next =>
        if layout.cursor.index < next.cursor.index ∧ next.cursor.index ≤ size then
          next.tokens? size
        else none
termination_by size - layout.cursor.index

end Layout

/-- Whether a character may occur in a YAML text: the control characters may not. -/
def isAllowed (c : Char) : Bool :=
  let n := c.toNat
  c == '\t' || c == '\n' || c == '\r' || (0x20 ≤ n && n ≤ 0x7e) || n == 0x85 ||
    (0xa0 ≤ n && n ≤ 0xfffd) || 0x10000 ≤ n

/-- The tokens of a text, if it has a layout that makes sense. -/
def Token.ofText? (text : List Char) : Option (List Token) :=
  if text.all isAllowed then (Layout.start text).tokens? text.length else none

end LineCensus.Yaml
