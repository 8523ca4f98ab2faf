/-
# Nodes of YAML

The tree that the tokens of a document spell. A node may be labelled with an anchor, to
be repeated elsewhere by an alias, and with a tag, which says of what type it is. Where
a node is left out there is an empty scalar in its place.

Every reader here gives back what it leaves of the tokens, with the proof that it has
taken some.
-/

import LineCensus.Yaml.Token

namespace LineCensus.Yaml

structure Labels where
  anchor : Option String
  tag : Option String
deriving DecidableEq, Repr

def Labels.none : Labels := ⟨Option.none, Option.none⟩

/-- A node of a document. -/
inductive Node where
  | scalar (labels : Labels) (text : String) (isPlain : Bool)
  | sequence (labels : Labels) (items : List Node)
  | mapping (labels : Labels) (entries : List (Node × Node))
  | alias (name : String)
deriving Repr

/-- The node where one is left out. -/
def Node.absent : Node := .scalar .none "" true

/-- The handles of a document and what they stand for. -/
abbrev Handles := List (String × String)

/-- The beginning of the tags of YAML itself. -/
def coreTagStart : String := "tag:yaml.org,2002:"

/-- The handles that need no directive. -/
def defaultHandles : Handles := [("!", "!"), ("!!", coreTagStart)]

/-- The tag that a written one stands for, if its handle is known. -/
def TagName.tag? (handles : Handles) (name : TagName) : Option String :=
  match name.handle with
  | none => some name.suffix
  | some handle => (handles.lookup handle).map (· ++ name.suffix)

/-- What is left of tokens after some of them. -/
abbrev After (tokens : List Token) := { rest : List Token // rest.length < tokens.length }

/-- What is left of tokens after some or none of them. -/
abbrev From (tokens : List Token) := { rest : List Token // rest.length ≤ tokens.length }

/-- What follows the first of some tokens is less than all of them. -/
theorem length_lt_of_eq_cons {tokens some rest : List Token} {token : Token}
    (hle : some.length ≤ tokens.length) (h : some = token :: rest) :
    rest.length < tokens.length := by
  subst h
  exact hle

/-- The labels that tokens begin with, an anchor and a tag in any order. -/
def Labels.read? (handles : Handles) (tokens : List Token) : Option (Labels × From tokens) :=
  match tokens with
  | .anchor anchor :: .tag name :: rest
  | .tag name :: .anchor anchor :: rest =>
    (name.tag? handles).map fun tag => (⟨some anchor, some tag⟩, ⟨rest, by simp; omega⟩)
  | .anchor anchor :: rest => some (⟨some anchor, Option.none⟩, ⟨rest, by simp⟩)
  | .tag name :: rest =>
    (name.tag? handles).map fun tag => (⟨Option.none, some tag⟩, ⟨rest, by simp⟩)
  | rest => some (.none, ⟨rest, Nat.le_refl _⟩)

/-- Where a node stands. -/
inductive Context where
  /-- In brackets, where there are no block collections. -/
  | flow
  /-- In a block sequence, or on its own. -/
  | block
  /-- In a block mapping, where a sequence need not be indented. -/
  | blockMapping
deriving DecidableEq, Repr

/-- The tokens before which an item of a block sequence is left out. -/
def blockItemEnds : List Token := [.item, .blockEnd]

/-- The tokens before which a part of a block mapping is left out. -/
def blockEntryEnds : List Token := [.key, .value, .blockEnd]

/-- The tokens before which an item of a sequence that is not indented is left out. -/
def looseItemEnds : List Token := .item :: blockEntryEnds

/-- The tokens before which a part of a pair in brackets is left out. -/
def flowPairEnds (last : Token) : List Token := [.value, .comma, last]

/-- What follows the comma between two parts of a collection in brackets. There is none before the
first part and after the last one. -/
def separated? (isFirst : Bool) (last : Token) (tokens : List Token) : Option (From tokens) :=
  match isFirst, tokens with
  | false, .comma :: rest => some ⟨rest, by simp⟩
  | _, tokens =>
    if isFirst ∨ tokens.head? = some last then some ⟨tokens, Nat.le_refl _⟩ else none

mutual

/-- The node that tokens begin with. -/
def Node.read? (handles : Handles) (context : Context) (tokens : List Token) :
    Option (Node × After tokens) := do
  match h : tokens with
  | .alias name :: rest =>
    return (.alias name, ⟨rest, length_lt_of_eq_cons (Nat.le_refl _) h⟩)
  | _ =>
    let (labels, ⟨content, hcontent⟩) ← Labels.read? handles tokens
    match hc : content, context with
    | .scalar text isPlain :: rest, _ =>
      have := length_lt_of_eq_cons hcontent hc
      return (.scalar labels text isPlain, ⟨rest, this⟩)
    | .flowSequenceStart :: rest, _ =>
      have := length_lt_of_eq_cons hcontent hc
      let (items, ⟨after, hafter⟩) ← flowItems? handles true rest
      return (.sequence labels items, ⟨after, Nat.lt_trans hafter this⟩)
    | .flowMappingStart :: rest, _ =>
      have := length_lt_of_eq_cons hcontent hc
      let (entries, ⟨after, hafter⟩) ← flowEntries? handles true rest
      return (.mapping labels entries, ⟨after, Nat.lt_trans hafter this⟩)
    | .blockSequenceStart :: rest, .block | .blockSequenceStart :: rest, .blockMapping =>
      have := length_lt_of_eq_cons hcontent hc
      let (items, ⟨after, hafter⟩) ← blockItems? handles rest
      return (.sequence labels items, ⟨after, Nat.lt_trans hafter this⟩)
    | .blockMappingStart :: rest, .block | .blockMappingStart :: rest, .blockMapping =>
      have := length_lt_of_eq_cons hcontent hc
      let (entries, ⟨after, hafter⟩) ← blockEntries? handles rest
      return (.mapping labels entries, ⟨after, Nat.lt_trans hafter this⟩)
    | .item :: rest, .blockMapping =>
      have := length_lt_of_eq_cons hcontent hc
      let (items, ⟨after, hafter⟩) ← looseItems? handles rest
      return (.sequence labels items, ⟨after, Nat.lt_of_le_of_lt hafter this⟩)
    | _, _ =>
      if hlabels : content.length < tokens.length then
        return (.scalar labels "" true, ⟨content, hlabels⟩)
      else failure
termination_by 4 * tokens.length

/-- The node that tokens begin with, which is left out if one of `ends` is the first of them. -/
def Node.part? (handles : Handles) (context : Context) (ends tokens : List Token) :
    Option (Node × From tokens) :=
  if tokens.head?.any ends.contains then some (.absent, ⟨tokens, Nat.le_refl _⟩)
  else
    (Node.read? handles context tokens).map fun (node, ⟨rest, hrest⟩) =>
      (node, ⟨rest, Nat.le_of_lt hrest⟩)
termination_by 4 * tokens.length + 1

/-- The key and the value that tokens begin with, either of which may be left out. -/
def pair? (handles : Handles) (context : Context) (ends tokens : List Token) :
    Option ((Node × Node) × From tokens) := do
  let (key, ⟨rest, hrest⟩) ← Node.part? handles context ends tokens
  match h : rest with
  | .value :: next =>
    have := length_lt_of_eq_cons hrest h
    let (value, ⟨after, hafter⟩) ← Node.part? handles context ends next
    return ((key, value), ⟨after, Nat.le_of_lt (Nat.lt_of_le_of_lt hafter this)⟩)
  | _ => return ((key, .absent), ⟨rest, hrest⟩)
termination_by 4 * tokens.length + 2

/-- The items up to the end of a block sequence. -/
def blockItems? (handles : Handles) (tokens : List Token) :
    Option (List Node × After tokens) := do
  match h : tokens with
  | .blockEnd :: rest => return ([], ⟨rest, length_lt_of_eq_cons (Nat.le_refl _) h⟩)
  | .item :: rest =>
    have := length_lt_of_eq_cons (Nat.le_refl _) h
    let (item, ⟨next, hnext⟩) ← Node.part? handles .block blockItemEnds rest
    let (items, ⟨after, hafter⟩) ← blockItems? handles next
    return (item :: items, ⟨after, by omega⟩)
  | _ => failure
termination_by 4 * tokens.length
decreasing_by all_goals (simp only [List.length_cons]; omega)

/-- The items of a sequence that is not indented, after the mark of the first of them. -/
def looseItems? (handles : Handles) (tokens : List Token) :
    Option (List Node × From tokens) := do
  let (item, ⟨next, hnext⟩) ← Node.part? handles .block looseItemEnds tokens
  match h : next with
  | .item :: rest =>
    have := length_lt_of_eq_cons hnext h
    let (items, ⟨after, hafter⟩) ← looseItems? handles rest
    return (item :: items, ⟨after, Nat.le_of_lt (Nat.lt_of_le_of_lt hafter this)⟩)
  | _ => return ([item], ⟨next, hnext⟩)
termination_by 4 * tokens.length + 2

/-- The entries up to the end of a block mapping. -/
def blockEntries? (handles : Handles) (tokens : List Token) :
    Option (List (Node × Node) × After tokens) := do
  match h : tokens with
  | .blockEnd :: rest => return ([], ⟨rest, length_lt_of_eq_cons (Nat.le_refl _) h⟩)
  | .key :: rest =>
    have := length_lt_of_eq_cons (Nat.le_refl _) h
    let (entry, ⟨next, hnext⟩) ← pair? handles .blockMapping blockEntryEnds rest
    let (entries, ⟨after, hafter⟩) ← blockEntries? handles next
    return (entry :: entries, ⟨after, by omega⟩)
  | _ => failure
termination_by 4 * tokens.length
decreasing_by all_goals (simp only [List.length_cons]; omega)

/-- The items up to the end of a sequence in brackets. A pair among them is a mapping of its own. -/
def flowItems? (handles : Handles) (isFirst : Bool) (tokens : List Token) :
    Option (List Node × After tokens) := do
  let ⟨part, hpart⟩ ← separated? isFirst .flowSequenceEnd tokens
  match h : part with
  | .flowSequenceEnd :: rest => return ([], ⟨rest, length_lt_of_eq_cons hpart h⟩)
  | .key :: rest =>
    have := length_lt_of_eq_cons hpart h
    let (entry, ⟨next, hnext⟩) ← pair? handles .flow (flowPairEnds .flowSequenceEnd) rest
    let (items, ⟨after, hafter⟩) ← flowItems? handles false next
    return (.mapping .none [entry] :: items, ⟨after, by omega⟩)
  | _ =>
    let (item, ⟨next, hnext⟩) ← Node.read? handles .flow part
    let (items, ⟨after, hafter⟩) ← flowItems? handles false next
    return (item :: items, ⟨after, by omega⟩)
termination_by 4 * tokens.length + 1

/-- The entries up to the end of a mapping in brackets. A key on its own has no value. -/
def flowEntries? (handles : Handles) (isFirst : Bool) (tokens : List Token) :
    Option (List (Node × Node) × After tokens) := do
  let ⟨part, hpart⟩ ← separated? isFirst .flowMappingEnd tokens
  match h : part with
  | .flowMappingEnd :: rest => return ([], ⟨rest, length_lt_of_eq_cons hpart h⟩)
  | .key :: rest =>
    have := length_lt_of_eq_cons hpart h
    let (entry, ⟨next, hnext⟩) ← pair? handles .flow (flowPairEnds .flowMappingEnd) rest
    let (entries, ⟨after, hafter⟩) ← flowEntries? handles false next
    return (entry :: entries, ⟨after, by omega⟩)
  | _ =>
    let (key, ⟨next, hnext⟩) ← Node.read? handles .flow part
    let (entries, ⟨after, hafter⟩) ← flowEntries? handles false next
    return ((key, .absent) :: entries, ⟨after, by omega⟩)
termination_by 4 * tokens.length + 1

end

end LineCensus.Yaml
