/-
# File trees

The part of a file system that a run can see, as a value. A directory maps names to
what they denote, and its entries may come in any order. A link denotes another path,
seen from the directory that holds it. A file or directory may be locked: it shows
what it is but not what is in it.

Nothing here changes a tree by itself. Writing and removing give a new tree.
-/

import LineCensus.SystemError

namespace LineCensus

/-- What a name in a directory denotes. -/
inductive FileTree where
  | file (content : ByteArray)
  | lockedFile
  | directory (entries : List (Name × FileTree))
  | lockedDirectory
  | link (target : Path)
  /-- A device, a pipe or a socket. -/
  | special

namespace FileTree

def empty : FileTree := directory []

/-- What a name denotes among the entries of a directory. -/
def lookUp? (entries : List (Name × FileTree)) (name : Name) : Option FileTree :=
  (entries.find? (·.1 = name)).map (·.2)

/-- The entries of a directory without those of a name. -/
def without (entries : List (Name × FileTree)) (name : Name) : List (Name × FileTree) :=
  entries.filter (·.1 ≠ name)

/-- The entries of a directory with a name that denotes something new. -/
def withEntry (entries : List (Name × FileTree)) (name : Name) (tree : FileTree) :
    List (Name × FileTree) :=
  without entries name ++ [(name, tree)]

/-- What a sequence of names denotes, links not followed. -/
def at? (tree : FileTree) : List Name → Option FileTree
  | [] => some tree
  | name :: rest =>
    match tree with
    | directory entries => (lookUp? entries name).bind (·.at? rest)
    | _ => none

/-- A tree in which a sequence of names denotes something new. Directories on the way are made
where there are none. -/
def write (tree : FileTree) (new : FileTree) : List Name → FileTree
  | [] => new
  | name :: rest =>
    match tree with
    | directory entries =>
      directory (withEntry entries name (((lookUp? entries name).getD empty).write new rest))
    | _ => directory [(name, empty.write new rest)]

/-- A tree in which a sequence of names denotes nothing. -/
def remove (tree : FileTree) : List Name → FileTree
  | [] => empty
  | name :: rest =>
    match tree with
    | directory entries =>
      match rest, lookUp? entries name with
      | [], _ => directory (without entries name)
      | _, none => tree
      | _, some child => directory (withEntry entries name (child.remove rest))
    | _ => tree

mutual

/-- The tree with the entries of every directory in the order of their names. -/
def sorted : FileTree → FileTree
  | directory entries =>
    directory ((sortedEach entries).mergeSort fun a b => decide (a.1.text ≤ b.1.text))
  | tree => tree

/-- Entries in their order, with everything below them sorted. -/
def sortedEach : List (Name × FileTree) → List (Name × FileTree)
  | [] => []
  | (name, tree) :: rest => (name, tree.sorted) :: sortedEach rest

end

/-- Where the following of a path ends. -/
structure Location where
  /-- The names on the way from the root of the file system, free of links. -/
  names : List Name
  /-- The first obstacle on the way, as an error about a path. After it the way goes on by the
  names alone. -/
  obstacle : Option (Path → SystemError)

/-- The most links that are followed on the way to a file. -/
def maxLinks : Nat := 40

/-- Follows names from a place in the tree, at most `links` links. The place is given by its names
in reverse. -/
def follow (tree : FileTree) (links : Nat) (place : List Name)
    (obstacle : Option (Path → SystemError)) : List Name → Location
  | [] => ⟨place.reverse, obstacle⟩
  | name :: rest =>
    match tree.at? place.reverse with
    | some (directory entries) =>
      if name = .up then follow tree links (place.drop 1) obstacle rest
      else match lookUp? entries name with
        | some (link target) =>
          match links with
          | 0 => follow tree 0 (name :: place) (some (obstacle.getD .tooManyLinks)) rest
          | links + 1 =>
            follow tree links (if target.root = .relative then place else []) obstacle
              (target.names ++ rest)
        | none => follow tree links (name :: place) (some (obstacle.getD .notFound)) rest
        | some _ => follow tree links (name :: place) obstacle rest
    | some lockedDirectory =>
      follow tree links (name :: place) (some (obstacle.getD .permissionDenied)) rest
    | none =>
      follow tree links (if name = .up then place.drop 1 else name :: place)
        (some (obstacle.getD .notFound)) rest
    | some _ =>
      follow tree links (if name = .up then place.drop 1 else name :: place)
        (some (obstacle.getD .notDirectory)) rest
termination_by todo => (links, todo.length)

/-- Where an absolute path leads. -/
def locate (tree : FileTree) (path : Path) : Location :=
  tree.follow maxLinks [] none path.names

/-- The path without links, of which the last names need not exist. -/
def realPath (tree : FileTree) (path : Path) : Path :=
  ⟨.slash, (tree.locate path).names⟩

/-- What an absolute path denotes, links followed. -/
def node (tree : FileTree) (path : Path) : Except SystemError FileTree :=
  let location := tree.locate path
  match location.obstacle with
  | some error => .error (error path)
  | none => match tree.at? location.names with
    | some found => .ok found
    | none => .error (.notFound path)

/-- What an absolute path denotes, or nothing. Behind a locked directory one cannot tell, and whoever
looks there fails. -/
def look (tree : FileTree) (path : Path) : Except SystemError (Option FileTree) :=
  match tree.node path with
  | .ok found => .ok (some found)
  | .error (.permissionDenied hidden) => .error (.permissionDenied hidden)
  | .error _ => .ok none

/-- What is seen is what is denoted. -/
theorem look_eq_some_iff {tree found : FileTree} {path : Path} :
    tree.look path = .ok (some found) ↔ tree.node path = .ok found := by
  rw [look]
  cases tree.node path with
  | ok other => simp only [Except.ok.injEq, Option.some.injEq]
  | error failure => cases failure <;> exact iff_of_false nofun nofun

/-- Whether an absolute path denotes anything, for all one can tell. Behind a locked directory one
cannot tell, and whoever looks there is in for the failure. -/
def denotes (tree : FileTree) (path : Path) : Bool :=
  match tree.node path with
  | .ok _ | .error (.permissionDenied _) => true
  | .error _ => false

/-- Whether an absolute path denotes a directory. -/
def isDirectory (tree : FileTree) (path : Path) : Bool :=
  match tree.node path with
  | .ok (directory _) | .ok lockedDirectory => true
  | _ => false

/-- What is read when a path denotes a given tree. -/
def contents (path : Path) : FileTree → Except SystemError ByteArray
  | file content => .ok content
  | lockedFile | lockedDirectory => .error (.permissionDenied path)
  | directory _ => .error (.isDirectory path)
  | link _ => .error (.notFound path)
  | special => .ok .empty

/-- What is in the file that an absolute path denotes. -/
def read (tree : FileTree) (path : Path) : Except SystemError ByteArray :=
  tree.node path >>= contents path

/-! ## Paths free of links -/

mutual

/-- The places of the links in a tree. -/
def links : FileTree → List (List Name)
  | link _ => [[]]
  | directory entries => linksEach entries
  | _ => []

/-- The places of the links in entries and below them. -/
def linksEach : List (Name × FileTree) → List (List Name)
  | [] => []
  | (name, tree) :: rest => tree.links.map (name :: ·) ++ linksEach rest

end

/-- Where names lead from a place, one link after the other, however many there are. What is not
there is taken by its name. The place is given by its names in reverse, and `fresh` are the links
that are not being followed. A link that is come to while it is being followed leads round in a
circle. Then the answer is the names up to it and those that are still to come. -/
def trace (tree : FileTree) (fresh : List (List Name)) (place : List Name) :
    List Name → Except (List Name) (List Name)
  | [] => .ok place
  | name :: rest =>
    if name = .up then tree.trace fresh (place.drop 1) rest
    else
      let here := (name :: place).reverse
      match tree.at? here with
      | some (link target) =>
        if h : here ∈ fresh then
          have : (fresh.removeAll [here]).length < fresh.length :=
            List.length_filter_lt_length_iff_exists.mpr ⟨here, h, by simp⟩
          match tree.trace (fresh.removeAll [here])
              (if target.root = .relative then place else []) target.names with
          | .ok place => tree.trace fresh place rest
          | .error names => .error (names ++ rest)
        else .error (here ++ rest)
      | _ => tree.trace fresh (name :: place) rest
termination_by todo => (fresh.length, todo.length)
decreasing_by
  · exact .right _ (Nat.lt_succ_self _)
  · exact .left _ _ this
  · exact .right _ (Nat.lt_succ_self _)
  · exact .right _ (Nat.lt_succ_self _)

/-- Names without those that lead up, each of which takes away the name in front of it. -/
def withoutUps (names : List Name) : List Name :=
  (names.foldl (fun place name => if name = .up then place.drop 1 else name :: place) []).reverse

/-- The path that an absolute path stands for, free of links. Where a link leads round in a circle the
rest of the way is taken by the names alone. Should that lead round in a circle as well there is no
such path, and the answer is how far one gets. -/
def resolve (tree : FileTree) (path : Path) : Except Path Path :=
  let names := match tree.trace tree.links [] path.names with
    | .ok place => place.reverse
    | .error names => withoutUps names
  let resolved : Path := ⟨.slash, names⟩
  match tree.node resolved with
  | .error (.tooManyLinks _) => .error resolved
  | _ => .ok resolved

end FileTree

end LineCensus
