/-
# Values of YAML

What a document says once its aliases are followed and its scalars are read. Everything
a node is labelled with is gone by then. A value that is a collection is given by its
place, and what is in the collection stands beside the values: so a collection may be
inside of itself.

The values are made level by level. A collection has its value before its parts have
theirs, and the parts are read in the order in which collections are come across. That
decides which of several faults of a document is found.
-/

import LineCensus.Text.Base64
import LineCensus.Yaml.Document
import LineCensus.Yaml.Graph
import LineCensus.Yaml.Layout

namespace LineCensus.Yaml

open Text

/-- Why a text has no value. -/
inductive Failure where
  /-- It makes no sense as YAML. -/
  | malformed
  /-- A scalar has a type but denotes nothing of that type, like a day that is in no calendar. -/
  | impossibleScalar
deriving DecidableEq, Repr

/-- A value in a document. -/
inductive Value where
  | null
  | bool (value : Bool)
  | integer (value : Int)
  | real (value : Binary64)
  | text (value : String)
  | bytes (value : List UInt8)
  | moment (value : Moment)
  | list (place : Nat)
  | mapping (place : Nat)
  | set (place : Nat)
  /-- An item of an ordered mapping. -/
  | pair (key value : Value)
deriving Repr

namespace Value

/-- Whether a value can be a key. -/
def isKey : Value → Bool
  | list _ | mapping _ | set _ => false
  | _ => true

def isText (expected : String) : Value → Bool
  | text value => value == expected
  | _ => false

def ofScalar (type : CoreType) (scalar : String) : Except Failure Value :=
  let possible {α : Type} (read? : Option α) (value : α → Value) : Except Failure Value :=
    match read? with
    | some found => .ok (value found)
    | none => .error .impossibleScalar
  match type with
  | .null => .ok null
  | .bool => possible (CoreType.boolWords.lookup (lowerName scalar)) bool
  | .integer => possible (integer? scalar.toList) integer
  | .real => possible (real? scalar.toList) real
  | .moment =>
    possible ((Moment.ofText? (withoutFinalFeed scalar.toList)).filter (·.isReal)) moment
  | .binary =>
    match if scalar.toList.all (·.toNat < 128) then Base64.decode? scalar.toList else none with
    | some read => .ok (bytes read)
    | none => .error .malformed
  | .text => .ok (text scalar)
  | _ => .error .malformed

/-- The value of a node of a type, given its place. A time has to be written in a scalar, while the
other types of scalars may also be given by a default value. -/
def ofVertex (graph : Graph) (place : Nat) : Except Failure Value := do
  match graph.type? place with
  | none | some .merge | some .default => throw .malformed
  | some .sequence | some .orderedMapping | some .pairs => return list place
  | some .mapping => return mapping place
  | some .set => return set place
  | some type =>
    match graph.text (List.range graph.vertices.size) place with
    | none => throw .malformed
    | some none => throw .impossibleScalar
    | some (some scalar) =>
      if type = .moment ∧ graph.isMapping place then throw .impossibleScalar
      ofScalar type scalar

/-- Whether a value has parts. -/
def isCollection : Value → Bool
  | list _ | mapping _ | set _ => true
  | _ => false

end Value

/-- What is in a collection. -/
inductive Parts where
  | items (values : List Value)
  | entries (values : List (Value × Value))
deriving Repr

/-- A document in the course of being read. -/
structure Reading where
  graph : Graph
  /-- The places that have no value yet. -/
  unread : List Nat
  values : List (Nat × Value)
  /-- The places of the collections whose parts are not read yet, the first one first. -/
  waiting : List Nat
  /-- What is in the other collections. -/
  parts : List (Nat × Parts)

namespace Reading

/-- The beginning of the reading of a graph. -/
def start (graph : Graph) : Reading := ⟨graph, List.range graph.vertices.size, [], [], []⟩

/-- How much there is to do at most. -/
def work (reading : Reading) : Nat :=
  2 * reading.unread.length + reading.waiting.length

/-- A state in which there is no more to do than in another. -/
abbrev Below (reading : Reading) := { next : Reading // next.work ≤ reading.work }

/-- The reading with the value of a place that had none. -/
def addValue (reading : Reading) (place : Nat) (value : Value) : Reading :=
  { reading with
    unread := reading.unread.erase place
    values := (place, value) :: reading.values
    waiting := if value.isCollection then reading.waiting ++ [place] else reading.waiting }

/-- A value more is something less to do. -/
theorem work_addValue_le {reading : Reading} {place : Nat} (h : place ∈ reading.unread)
    (value : Value) : (reading.addValue place value).work ≤ reading.work := by
  have hpos := List.length_pos_of_mem h
  simp only [work, addValue, List.length_erase_of_mem h]
  split
  · simp only [List.length_append, List.length_singleton]
    omega
  · omega

def value (reading : Reading) (place : Nat) : Except Failure (Value × Below reading) :=
  if h : place ∈ reading.unread then do
    let value ← Value.ofVertex reading.graph place
    return (value, ⟨reading.addValue place value, work_addValue_le h value⟩)
  else
    match reading.values.lookup place with
    | some value => .ok (value, ⟨reading, Nat.le_refl _⟩)
    | none => .error .malformed

def items (reading : Reading) (places : List Nat) :
    Except Failure (List Value × Below reading) := do
  match places with
  | [] => return ([], ⟨reading, Nat.le_refl _⟩)
  | place :: rest =>
    let (value, ⟨next, hnext⟩) ← reading.value place
    let (values, ⟨last, hlast⟩) ← next.items rest
    return (value :: values, ⟨last, Nat.le_trans hlast hnext⟩)

/-- The key and the value of an entry. In a mapping not everything can be a key. -/
def entry (reading : Reading) (inMapping : Bool) (entry : Entry) :
    Except Failure ((Value × Value) × Below reading) := do
  let (key, ⟨next, hnext⟩) ← reading.value entry.1
  if inMapping && !key.isKey then throw .malformed
  let (value, ⟨last, hlast⟩) ← next.value entry.2
  return ((key, value), ⟨last, Nat.le_trans hlast hnext⟩)

/-- The entries of a mapping. -/
def entries (reading : Reading) (places : List Entry) :
    Except Failure (List (Value × Value) × Below reading) := do
  match places with
  | [] => return ([], ⟨reading, Nat.le_refl _⟩)
  | place :: rest =>
    let (entry, ⟨next, hnext⟩) ← reading.entry true place
    let (entries, ⟨last, hlast⟩) ← next.entries rest
    return (entry :: entries, ⟨last, Nat.le_trans hlast hnext⟩)

/-- The only entry of a mapping into which nothing is merged. -/
def onlyEntry? (graph : Graph) (place : Nat) : Option Entry :=
  match graph.content? place with
  | some (.mapping [entry]) => if graph.merges.any (·.1 = place) then none else some entry
  | _ => none

/-- The pairs that mappings with a single entry stand for. -/
def pairs (reading : Reading) (places : List Nat) :
    Except Failure (List Value × Below reading) := do
  match places with
  | [] => return ([], ⟨reading, Nat.le_refl _⟩)
  | place :: rest =>
    match onlyEntry? reading.graph place with
    | none => throw .malformed
    | some found =>
      let ((key, value), ⟨next, hnext⟩) ← reading.entry false found
      let (others, ⟨last, hlast⟩) ← next.pairs rest
      return (.pair key value :: others, ⟨last, Nat.le_trans hlast hnext⟩)

/-- The reading with the parts of a collection. -/
def addParts (reading : Reading) (place : Nat) (parts : Parts) : Reading :=
  { reading with parts := (place, parts) :: reading.parts }

/-- The reading in which the parts of a collection are read. -/
def readParts (reading : Reading) (place : Nat) : Except Failure (Below reading) := do
  match reading.graph.type? place, reading.graph.content? place with
  | some .sequence, some (.sequence places) =>
    let (values, ⟨next, hnext⟩) ← reading.items places
    return ⟨next.addParts place (.items values), hnext⟩
  | some .orderedMapping, some (.sequence places) | some .pairs, some (.sequence places) =>
    let (values, ⟨next, hnext⟩) ← reading.pairs places
    return ⟨next.addParts place (.items values), hnext⟩
  | some .mapping, some (.mapping _) | some .set, some (.mapping _) =>
    match reading.graph.merge? place [] with
    | none => throw .malformed
    | some ⟨graph, _⟩ =>
      let (values, ⟨next, hnext⟩) ←
        Reading.entries { reading with graph } (graph.entries place)
      return ⟨next.addParts place (.entries values), hnext⟩
  | _, _ => throw .malformed

/-- The reading in which no collection waits any more. -/
def finish (reading : Reading) : Except Failure Reading :=
  match h : reading.waiting with
  | [] => .ok reading
  | place :: rest =>
    match Reading.readParts { reading with waiting := rest } place with
    | .error failure => .error failure
    | .ok ⟨next, hnext⟩ => next.finish
termination_by reading.work
decreasing_by
  simp only [work, h, List.length_cons] at hnext ⊢
  omega

end Reading

/-- What a text says. -/
structure Document where
  root : Value
  /-- What is in the collections. -/
  parts : List (Nat × Parts)
deriving Repr

namespace Document

def ofGraph (graph : Graph) : Except Failure Document := do
  let (root, ⟨reading, _⟩) ← (Reading.start graph).value 0
  return ⟨root, (← reading.finish).parts⟩

/-- The document in a text. Where there is none its value is nothing. -/
def ofText (text : List Char) : Except Failure Document :=
  match (Token.ofText? text).bind Node.ofTokens? with
  | none => .error .malformed
  | some none => .ok ⟨.null, []⟩
  | some (some node) =>
    match Graph.ofNode? node with
    | none => .error .malformed
    | some graph => ofGraph graph

def items (document : Document) (place : Nat) : List Value :=
  match document.parts.lookup place with
  | some (.items values) => values
  | _ => []

/-- The entries of a mapping or a set in a document. An entry counts only if no later one has the
same key. -/
def entries (document : Document) (place : Nat) : List (Value × Value) :=
  match document.parts.lookup place with
  | some (.entries values) => values
  | _ => []

/-- What a text is the key of in a mapping. -/
def lookUp? (document : Document) (place : Nat) (key : String) : Option Value :=
  ((document.entries place).reverse.find? fun entry => entry.1.isText key).map (·.2)

/-- Whether a value counts as nothing: an empty one, zero, or false. -/
def isFalsy (document : Document) : Value → Bool
  | .null => true
  | .bool value => !value
  | .integer value => value == 0
  | .real (.finite _ mantissa _) => mantissa == 0
  | .real _ => false
  | .text value => value.isEmpty
  | .bytes value => value.isEmpty
  | .list place => (document.items place).isEmpty
  | .mapping place | .set place => (document.entries place).isEmpty
  | .moment _ | .pair _ _ => false

end Document

end LineCensus.Yaml
