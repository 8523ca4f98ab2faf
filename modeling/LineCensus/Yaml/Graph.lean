/-
# Documents as graphs

An alias is not another node: it leads to the node with its anchor once more. So the
nodes of a document make up a graph, in which every node has a place, and a collection
gives the places of its parts. It can be a part of itself.

A mapping may say that others are merged into it. That is carried out on the graph, when
the values of the mapping are needed and not before. Where mappings are merged into each
other in a circle, each merge is carried out once.
-/

import LineCensus.Yaml.Schema

namespace LineCensus.Yaml

/-- The key and the value of an entry, by their places. -/
abbrev Entry := Nat × Nat

/-- What there is at a place besides its type. -/
inductive Content where
  | scalar (text : String)
  | sequence (items : List Nat)
  /-- Entries, those that merge another mapping left out. -/
  | mapping (entries : List Entry)
deriving Repr

/-- A place in a graph: a node, of a type if it has one. -/
structure Vertex where
  type : Option CoreType
  content : Content
deriving Repr

/-- The nodes of a document. -/
structure Graph where
  vertices : Array Vertex
  /-- The merges that are not carried out yet: a mapping, and the node that is merged into it. -/
  merges : List (Nat × Nat)
deriving Repr

namespace Graph

def empty : Graph := ⟨#[], []⟩

def type? (graph : Graph) (place : Nat) : Option CoreType :=
  graph.vertices[place]?.bind (·.type)

def content? (graph : Graph) (place : Nat) : Option Content :=
  graph.vertices[place]?.map (·.content)

/-- The entries of the mapping at a place. -/
def entries (graph : Graph) (place : Nat) : List Entry :=
  match graph.content? place with
  | some (.mapping entries) => entries
  | _ => []

/-- The graph with another content at a place. -/
def setContent (graph : Graph) (place : Nat) (content : Content) : Graph :=
  { graph with vertices := graph.vertices.modify place fun vertex => { vertex with content } }

/-- The graph with a text at a place where there was the mark of a default value. -/
def settleKey (graph : Graph) (place : Nat) : Graph :=
  { graph with
    vertices := graph.vertices.modify place fun vertex =>
      if vertex.type = some .default then { vertex with type := some .text } else vertex }

/-- The graph with entries put in front of those of a mapping that has no merge left. From now on
its default value is an entry like others. -/
def settle (graph : Graph) (place : Nat) (added : List Entry) : Graph :=
  let settled := (graph.entries place).foldl (fun graph entry => graph.settleKey entry.1) graph
  if added.isEmpty then settled
  else settled.setContent place (.mapping (added ++ settled.entries place))

/-- Settling keys carries out no merge. -/
theorem merges_settleKeys (entries : List Entry) (graph : Graph) :
    (entries.foldl (fun graph entry => graph.settleKey entry.1) graph).merges = graph.merges := by
  induction entries generalizing graph with
  | nil => rfl
  | cons entry rest ih => rw [List.foldl_cons, ih]; rfl

/-- Settling a mapping carries out no merge. -/
theorem merges_settle (graph : Graph) (place : Nat) (added : List Entry) :
    (graph.settle place added).merges = graph.merges := by
  unfold settle
  split
  · exact merges_settleKeys _ graph
  · exact merges_settleKeys _ graph

/-- A graph with no more merges than another. -/
abbrev Below (graph : Graph) := { next : Graph // next.merges.length ≤ graph.merges.length }

/-- A graph has no more merges than itself. -/
def Below.self (graph : Graph) : Below graph := ⟨graph, Nat.le_refl _⟩

/-- A graph below one that is below another. -/
def Below.trans {graph : Graph} (next : Below graph) (last : Below next.val) : Below graph :=
  ⟨last.val, Nat.le_trans last.property next.property⟩

/-- What is merged next into a mapping, and the graph without this merge. -/
def takeMerge? (graph : Graph) (place : Nat) :
    Option (Nat × { next : Graph // next.merges.length < graph.merges.length }) :=
  match h : graph.merges.find? (·.1 = place) with
  | none => none
  | some merge =>
    some (merge.2, ⟨{ graph with merges := graph.merges.erase merge }, by
      have hmem := List.mem_of_find?_eq_some h
      have hpos := List.length_pos_of_mem hmem
      simp only [List.length_erase_of_mem hmem]
      omega⟩)

def isMapping (graph : Graph) (place : Nat) : Bool :=
  match graph.content? place with
  | some (.mapping _) => true
  | _ => false

/-- The mappings that are merged if a node is: the node itself or its items. -/
def sources? (graph : Graph) (place : Nat) : Option (List Nat) :=
  match graph.content? place with
  | some (.mapping _) => some [place]
  | some (.sequence items) => if items.all graph.isMapping then some items else none
  | _ => none

mutual

/-- The graph in which nothing remains to be merged into a mapping. `added` are the entries that
are to be put in front of its own. None if something else than a mapping is to be merged. -/
def merge? (graph : Graph) (place : Nat) (added : List Entry) : Option (Below graph) :=
  match graph.takeMerge? place with
  | none => some ⟨graph.settle place added, Nat.le_of_eq (by rw [merges_settle])⟩
  | some (source, ⟨rest, hrest⟩) => do
    let sources ← rest.sources? source
    let (found, ⟨next, hnext⟩) ← rest.mergeEach? sources
    let ⟨last, hlast⟩ ← next.merge? place (added ++ found.reverse.flatten)
    return ⟨last, by omega⟩
termination_by (graph.merges.length, 0)

/-- The entries of mappings once nothing remains to be merged into them, each list taken before the
next mapping is looked at. -/
def mergeEach? (graph : Graph) (places : List Nat) : Option (List (List Entry) × Below graph) :=
  match places with
  | [] => some ([], .self graph)
  | place :: rest => do
    let ⟨next, hnext⟩ ← graph.merge? place []
    let (found, last) ← next.mergeEach? rest
    return (next.entries place :: found, Below.trans ⟨next, hnext⟩ last)
termination_by (graph.merges.length, places.length + 1)
decreasing_by
  · exact Prod.Lex.right _ (by omega)
  · rcases Nat.lt_or_eq_of_le hnext with hlt | heq
    · exact Prod.Lex.left _ _ hlt
    · rw [heq]
      exact Prod.Lex.right _ (by simp only [List.length_cons]; omega)

end

/-- The text of a scalar, or of the default value of a mapping. `unseen` are the places that a
default value may be at. A failure to find one tells whether there is any text: a default value
that is its own default value has none. -/
def text (graph : Graph) (unseen : List Nat) (place : Nat) : Option (Option String) :=
  match graph.content? place with
  | some (.scalar text) => some (some text)
  | some (.mapping entries) =>
    match entries.find? fun entry => graph.type? entry.1 = some .default with
    | some entry =>
      if h : place ∈ unseen then
        have := List.length_erase_of_mem h
        have := List.length_pos_of_mem h
        graph.text (unseen.erase place) entry.2
      else some none
    | none => none
  | _ => none
termination_by unseen.length

end Graph

/-- A graph on its way, and the places of the anchors in it. -/
structure Composition where
  graph : Graph
  anchors : List (String × Nat)

/-- The reading of a part of a document into the graph. It fails if an alias has no anchor or two
nodes have the same one. -/
abbrev Composing := StateT Composition Option

/-- A new node with labels, and its place. -/
def addVertex (labels : Labels) (vertex : Vertex) : Composing Nat := do
  let state ← get
  let place := state.graph.vertices.size
  let graph := { state.graph with vertices := state.graph.vertices.push vertex }
  match labels.anchor with
  | none => set (Composition.mk graph state.anchors)
  | some anchor =>
    if (state.anchors.lookup anchor).isSome then failure
    set (Composition.mk graph ((anchor, place) :: state.anchors))
  return place

/-- A graph in which the mapping at a place has the given entries, some of which merge. -/
def Graph.setEntries (graph : Graph) (place : Nat) (entries : List Entry) : Graph :=
  let isMerge (entry : Entry) : Bool := graph.type? entry.1 = some .merge
  let filled := graph.setContent place (.mapping (entries.filter (!isMerge ·)))
  { filled with
    merges := filled.merges ++ (entries.filter isMerge).map fun entry => (place, entry.2) }

mutual

/-- The place of a node, which is new unless the node is an alias. -/
def Node.place : Node → Composing Nat
  | .alias name => do (← get).anchors.lookup name
  | .scalar labels text isPlain =>
    addVertex labels ⟨CoreType.ofScalar? labels text isPlain, .scalar text⟩
  | .sequence labels items => do
    let place ← addVertex labels ⟨CoreType.ofLabels? labels (some .sequence), .sequence []⟩
    let items ← Node.places items
    modify fun state => { state with graph := state.graph.setContent place (.sequence items) }
    return place
  | .mapping labels entries => do
    let place ← addVertex labels ⟨CoreType.ofLabels? labels (some .mapping), .mapping []⟩
    let entries ← Node.entryPlaces entries
    modify fun state => { state with graph := state.graph.setEntries place entries }
    return place

def Node.places : List Node → Composing (List Nat)
  | [] => return []
  | node :: rest => do
    let place ← node.place
    return place :: (← Node.places rest)

/-- The places of keys and values. -/
def Node.entryPlaces : List (Node × Node) → Composing (List Entry)
  | [] => return []
  | (key, value) :: rest => do
    let entry := (← key.place, ← value.place)
    return entry :: (← Node.entryPlaces rest)

end

/-- The graph of a document, whose first node is at place zero. -/
def Graph.ofNode? (node : Node) : Option Graph :=
  ((Node.place node).run ⟨.empty, []⟩).map (·.2.graph)

end LineCensus.Yaml
