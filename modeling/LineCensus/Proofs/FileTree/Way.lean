/-
# The way that a path leads

A path is followed name by name, and a name leads on from a directory: to an entry, up, or
to wherever a link leads. What a name leads to depends on that one directory only. So a
path leads where it led after something was removed from the tree, as long as nothing on
its way is or was below that, and what it denotes is as it was, unless it is a directory,
which may have lost something.
-/

import LineCensus.Proofs.FileTree.Removal

namespace LineCensus

namespace FileTree

/-! ## One name after the other -/

/-- Where a single name leads from a place in the tree. -/
structure Turn where
  /-- The links that may still be followed. -/
  links : Nat
  place : List Name
  /-- What is in the way. -/
  obstacle : Option (Path → SystemError)
  /-- The names that a link puts in place of its own. -/
  names : List Name

/-- Where a name leads from a place. The place is given by its names in reverse. -/
def turn (tree : FileTree) (links : Nat) (place : List Name) (name : Name) : Turn :=
  match tree.at? place.reverse with
  | some (directory entries) =>
    if name = .up then ⟨links, place.drop 1, none, []⟩
    else match lookUp? entries name with
      | some (link target) =>
        match links with
        | 0 => ⟨0, name :: place, some .tooManyLinks, []⟩
        | links + 1 =>
          ⟨links, if target.root = .relative then place else [], none, target.names⟩
      | none => ⟨links, name :: place, some .notFound, []⟩
      | some _ => ⟨links, name :: place, none, []⟩
  | some lockedDirectory => ⟨links, name :: place, some .permissionDenied, []⟩
  | none => ⟨links, if name = .up then place.drop 1 else name :: place, some .notFound, []⟩
  | some _ => ⟨links, if name = .up then place.drop 1 else name :: place, some .notDirectory, []⟩

/-- Names are followed by following the first one and then the others. -/
theorem follow_cons (tree : FileTree) (links : Nat) (place : List Name)
    (obstacle : Option (Path → SystemError)) (name : Name) (rest : List Name) :
    tree.follow links place obstacle (name :: rest) =
      let turn := tree.turn links place name
      tree.follow turn.links turn.place (obstacle.or turn.obstacle) (turn.names ++ rest) := by
  have hobstacle : ∀ error : Path → SystemError,
      some (obstacle.getD error) = obstacle.or (some error) := by
    intro error
    cases obstacle <;> rfl
  rw [follow, turn]
  cases hplace : tree.at? place.reverse with
  | none => simp only [hobstacle, List.nil_append]
  | some found =>
      cases found with
      | directory entries =>
          by_cases hup : name = .up
          · simp only [if_pos hup, Option.or_none, List.nil_append]
          · simp only [if_neg hup]
            cases hentry : lookUp? entries name with
            | none => simp only [hobstacle, List.nil_append]
            | some child =>
                cases child with
                | link target =>
                    cases links <;> simp only [hobstacle, Option.or_none, List.nil_append]
                | _ => simp only [Option.or_none, List.nil_append]
      | _ => simp only [hobstacle, List.nil_append]

/-- A name uses up a link or is followed by no new ones. -/
theorem turn_links (tree : FileTree) (links : Nat) (place : List Name) (name : Name) :
    (tree.turn links place name).links < links ∨
      (tree.turn links place name).links = links ∧ (tree.turn links place name).names = [] := by
  rw [turn]
  split
  · by_cases hup : name = .up
    · simp only [if_pos hup, and_self, or_true]
    · simp only [if_neg hup]
      split
      · split
        · exact .inr ⟨rfl, rfl⟩
        · exact .inl (Nat.lt_succ_self _)
      · exact .inr ⟨rfl, rfl⟩
      · exact .inr ⟨rfl, rfl⟩
  all_goals exact .inr ⟨rfl, rfl⟩

/-- What holds where a way ends and is carried back over every name of it holds of every way. -/
@[elab_as_elim]
theorem wayInduction (tree : FileTree) {motive : Nat → List Name → List Name → Prop}
    (arrives : ∀ links place, motive links place [])
    (goesOn : ∀ links place name rest,
      motive (tree.turn links place name).links (tree.turn links place name).place
        ((tree.turn links place name).names ++ rest) →
      motive links place (name :: rest)) (links : Nat) (place : List Name) :
    ∀ names, motive links place names
  | [] => arrives links place
  | name :: rest =>
    goesOn links place name rest (wayInduction tree arrives goesOn _ _ _)
termination_by names => (links, names.length)
decreasing_by
  rcases tree.turn_links links place name with hless | ⟨hsame, hnone⟩
  · exact Prod.Lex.left _ _ hless
  · rw [hsame, hnone, List.nil_append]
    exact Prod.Lex.right _ (Nat.lt_succ_self rest.length)

/-- What is no link is a place of its own. -/
theorem turn_of_isLink_eq_false {tree child : FileTree} {place : List Name}
    {entries : List (Name × FileTree)} {name : Name}
    (hplace : tree.at? place.reverse = some (directory entries)) (hname : name ≠ .up)
    (hchild : lookUp? entries name = some child) (hlink : child.isLink = false) (links : Nat) :
    tree.turn links place name = ⟨links, name :: place, none, []⟩ := by
  simp only [turn, hplace, if_neg hname, hchild]
  cases child with
  | link target => cases hlink
  | _ => rfl

/-! ## What removal leaves as it was -/

theorem at?_append (tree : FileTree) (above names : List Name) :
    tree.at? (above ++ names) = (tree.at? above).bind (·.at? names) := by
  induction above generalizing tree with
  | nil => rfl
  | cons name rest ih =>
      cases tree with
      | directory entries =>
          rw [List.cons_append, at?_cons, at?_cons, Option.bind_assoc]
          exact Option.bind_congr fun child _ => ih child
      | _ => rfl

theorem lookUp?_without_of_ne {name other : Name} (h : other ≠ name)
    (entries : List (Name × FileTree)) :
    lookUp? (without entries name) other = lookUp? entries other := by
  rw [lookUp?, without, List.find?_filter, lookUp?]
  congr 2
  funext entry
  by_cases hentry : entry.1 = other <;> simp [hentry, h]

theorem lookUp?_withEntry_of_ne {name other : Name} (h : other ≠ name)
    (entries : List (Name × FileTree)) (tree : FileTree) :
    lookUp? (withEntry entries name tree) other = lookUp? entries other := by
  have hlast : [(name, tree)].find? (·.1 = other) = none := by simp [h.symm]
  rw [lookUp?, withEntry, List.find?_append, hlast, Option.or_none]
  exact lookUp?_without_of_ne h entries

theorem exists_remove_cons (entries : List (Name × FileTree)) (name : Name) (rest : List Name) :
    ∃ others, (directory entries).remove (name :: rest) = directory others := by
  rw [remove.eq_def]
  dsimp only
  split <;> exact ⟨_, rfl⟩

/-- A name other than the one that leads to what is removed denotes what it denoted. -/
theorem lookUp?_remove_of_ne {entries others : List (Name × FileTree)} {name other : Name}
    {rest : List Name} (h : (directory entries).remove (name :: rest) = directory others)
    (hother : other ≠ name) : lookUp? others other = lookUp? entries other := by
  rw [remove.eq_def] at h
  dsimp only at h
  split at h
  · cases h
    exact lookUp?_without_of_ne hother _
  · cases h
    rfl
  · cases h
    exact lookUp?_withEntry_of_ne hother _ _

/-- What is neither above nor below what is removed is as it was. -/
theorem at?_remove_of_apart {tree : FileTree} {gone names : List Name} (habove : ¬ names <+: gone)
    (hbelow : ¬ gone <+: names) : (tree.remove gone).at? names = tree.at? names := by
  induction gone generalizing tree names with
  | nil => exact absurd List.nil_prefix hbelow
  | cons name rest ih =>
      cases names with
      | nil => exact absurd List.nil_prefix habove
      | cons other more =>
          cases tree with
          | directory entries =>
              by_cases hsame : other = name
              · subst hsame
                rw [List.cons_prefix_cons, and_iff_right rfl] at habove hbelow
                have hrest : rest ≠ [] := fun hnil => hbelow (hnil ▸ List.nil_prefix)
                cases hchild : lookUp? entries other with
                | none =>
                    cases rest with
                    | nil => exact absurd rfl hrest
                    | cons next rest => simp only [remove, hchild]
                | some child =>
                    rw [remove_cons hchild hrest, at?_cons, at?_cons, lookUp?_withEntry, hchild]
                    exact ih habove hbelow
              · obtain ⟨others, hothers⟩ := exists_remove_cons entries name rest
                rw [hothers, at?_cons, at?_cons, lookUp?_remove_of_ne hothers hsame]
          | _ => rfl

/-- Above what is removed there are directories, which stay directories. -/
theorem exists_directory_above {tree removed : FileTree} {gone names : List Name}
    (hat : tree.at? gone = some removed) (habove : names <+: gone) (hbelow : ¬ gone <+: names) :
    ∃ entries next rest others,
      tree.at? names = some (directory entries) ∧
      (directory entries).at? (next :: rest) = some removed ∧ gone = names ++ next :: rest ∧
      (directory entries).remove (next :: rest) = directory others ∧
      (tree.remove gone).at? names = some (directory others) := by
  obtain ⟨more, rfl⟩ := habove
  rw [at?_append] at hat
  obtain ⟨found, hfound, hmore⟩ := Option.bind_eq_some_iff.mp hat
  cases more with
  | nil =>
      rw [List.append_nil] at hbelow
      exact absurd List.prefix_rfl hbelow
  | cons next rest =>
      cases found with
      | directory entries =>
          obtain ⟨others, hothers⟩ := exists_remove_cons entries next rest
          refine ⟨entries, next, rest, others, hfound, hmore, rfl, hothers, ?_⟩
          rw [at?_remove_append hfound (List.cons_ne_nil next rest), hothers]
      | _ => cases hmore

/-! ## Ways around what is removed -/

/-- Whether the way that names lead, from a place in the tree, never comes to what other names
lead to, or below it. -/
inductive LeadsAround (tree : FileTree) (gone : List Name) : Nat → List Name → List Name → Prop
  | arrives {links : Nat} {place : List Name} (here : ¬ gone <+: place.reverse) :
      LeadsAround tree gone links place []
  | goesOn {links : Nat} {place : List Name} {name : Name} {rest : List Name}
      (here : ¬ gone <+: place.reverse)
      (onward : LeadsAround tree gone (tree.turn links place name).links
        (tree.turn links place name).place ((tree.turn links place name).names ++ rest)) :
      LeadsAround tree gone links place (name :: rest)

/-- Whether the way to what an absolute path denotes never comes to what some names lead to, or
below it. -/
def Avoids (world : FileTree) (gone : List Name) (path : Path) : Prop :=
  world.LeadsAround gone maxLinks [] path.names

section

variable {tree : FileTree} {gone : List Name}

theorem LeadsAround.here {links : Nat} {place names : List Name}
    (h : tree.LeadsAround gone links place names) : ¬ gone <+: place.reverse := by
  cases h with
  | arrives here => exact here
  | goesOn here _ => exact here

variable {removed : FileTree} (hat : tree.at? gone = some removed)

include hat

/-- A name leads where it led, if that is not to what is removed. -/
theorem turn_remove (hlink : removed.isLink = false) {links : Nat} {place : List Name}
    {name : Name} (hhere : ¬ gone <+: place.reverse)
    (hnext : ¬ gone <+: (tree.turn links place name).place.reverse) :
    (tree.remove gone).turn links place name = tree.turn links place name := by
  by_cases habove : place.reverse <+: gone
  · obtain ⟨entries, next, rest, others, hfound, hmore, rfl, hothers, hsmaller⟩ :=
      exists_directory_above hat habove hhere
    by_cases hup : name = .up
    · simp only [turn, hfound, hsmaller, if_pos hup]
    by_cases hsame : name = next
    -- towards what is removed, there is a directory next, and it is still one
    · subst hsame
      obtain ⟨child, hchild, hbelow⟩ := Option.bind_eq_some_iff.mp hmore
      by_cases hlast : rest = []
      · subst hlast
        cases hbelow
        rw [turn_of_isLink_eq_false hfound hup hchild hlink, List.reverse_cons] at hnext
        exact absurd List.prefix_rfl hnext
      · have hchildFolder : child.isFolder = true := isFolder_of_at? hbelow hlast
        have hchangedFolder : (child.remove rest).isFolder = true :=
          (isFolder_remove child hlast).trans hchildFolder
        have hchanged : lookUp? others name = some (child.remove rest) := by
          rw [remove_cons hchild hlast] at hothers
          cases hothers
          exact lookUp?_withEntry entries name _
        rw [turn_of_isLink_eq_false hfound hup hchild (isLink_of_isFolder hchildFolder),
          turn_of_isLink_eq_false hsmaller hup hchanged (isLink_of_isFolder hchangedFolder)]
    · have hentry : lookUp? others name = lookUp? entries name :=
        lookUp?_remove_of_ne hothers hsame
      simp only [turn, hfound, hsmaller, hentry]
  · rw [turn, at?_remove_of_apart habove hhere, turn]

/-- What a path denotes that leads where it led, and not to what is removed, is as it was, or is a
directory as it was one. -/
theorem node_remove_of_locate_eq {path : Path}
    (hlocate : (tree.remove gone).locate path = tree.locate path)
    (hplace : (tree.locate path).obstacle = none → ¬ gone <+: (tree.locate path).names) :
    (tree.remove gone).node path = tree.node path ∨
    ∃ entries others, tree.node path = .ok (directory entries) ∧
      (tree.remove gone).node path = .ok (directory others) := by
  rw [node, hlocate, node]
  cases hclear : (tree.locate path).obstacle with
  | some error => exact .inl rfl
  | none =>
      by_cases habove : (tree.locate path).names <+: gone
      · obtain ⟨entries, _, _, others, hfound, _, _, _, hsmaller⟩ :=
          exists_directory_above hat habove (hplace hclear)
        simp only [hfound, hsmaller]
        exact .inr ⟨entries, others, rfl, rfl⟩
      · simp only [at?_remove_of_apart habove (hplace hclear), true_or]

variable (hfolder : removed.isFolder = true)

include hfolder

/-- Names lead where they led, around what is removed. -/
theorem LeadsAround.follow_remove {links : Nat} {place names : List Name}
    (h : tree.LeadsAround gone links place names) (obstacle : Option (Path → SystemError)) :
    (tree.remove gone).follow links place obstacle names =
      tree.follow links place obstacle names ∧
    ¬ gone <+: (tree.follow links place obstacle names).names := by
  induction h generalizing obstacle with
  | arrives here =>
      rw [follow, follow]
      exact ⟨rfl, here⟩
  | goesOn here onward ih =>
      rw [follow_cons, follow_cons, turn_remove hat (isLink_of_isFolder hfolder) here onward.here]
      exact ih _

variable {path : Path} (h : tree.Avoids gone path)

include h

theorem locate_remove : (tree.remove gone).locate path = tree.locate path :=
  (h.follow_remove hat hfolder none).1

/-- What a path denotes is as it was, or is a directory as it was one. -/
theorem node_remove :
    (tree.remove gone).node path = tree.node path ∨
    ∃ entries others, tree.node path = .ok (directory entries) ∧
      (tree.remove gone).node path = .ok (directory others) :=
  node_remove_of_locate_eq hat (locate_remove hat hfolder h)
    fun _ => (h.follow_remove hat hfolder none).2

theorem denotes_remove : (tree.remove gone).denotes path = tree.denotes path := by
  rcases node_remove hat hfolder h with hsame | ⟨_, _, hmore, hless⟩
  · rw [denotes, hsame, denotes]
  · rw [denotes, hless, denotes, hmore]

theorem read_remove : (tree.remove gone).read path = tree.read path := by
  rcases node_remove hat hfolder h with hsame | ⟨_, _, hmore, hless⟩
  · rw [read, hsame, read]
  · rw [read, hless, read, hmore]
    rfl

end

/-! ## Removal below a path -/

/-- Where names lead from what an absolute path denotes, as names from the root of the tree. -/
def namesBelow (world : FileTree) (path : Path) (names : List Name) : List Name :=
  (world.realPath path).names ++ names

/-- A tree in which names denote nothing below an absolute path. -/
def removeBelow (world : FileTree) (path : Path) (names : List Name) : FileTree :=
  world.remove (world.namesBelow path names)

theorem node_eq_ok_iff {world tree : FileTree} {path : Path} :
    world.node path = .ok tree ↔
      (world.locate path).obstacle = none ∧
        world.at? (world.locate path).names = some tree := by
  simp only [node]
  split
  · next error herror => simp [herror]
  · next hclear =>
      rw [hclear]
      split
      · next found hfound => simp [hfound]
      · next hnone => simp [hnone]

section

variable {world tree : FileTree} {path : Path} {names : List Name}
  (hpath : world.node path = .ok tree)

include hpath

theorem at?_namesBelow : world.at? (world.namesBelow path names) = tree.at? names := by
  rw [namesBelow, at?_append, realPath, (node_eq_ok_iff.mp hpath).2, Option.bind_some]

/-- A path that leads where it led, after something was removed below it, denotes what is left of
what was there. -/
theorem node_removeBelow_of_locate_eq (hne : names ≠ [])
    (hlocate : (world.removeBelow path names).locate path = world.locate path) :
    (world.removeBelow path names).realPath path = world.realPath path ∧
    (world.removeBelow path names).node path = .ok (tree.remove names) := by
  obtain ⟨hclear, hfound⟩ := node_eq_ok_iff.mp hpath
  rw [node_eq_ok_iff, realPath, hlocate]
  exact ⟨rfl, hclear, at?_remove_append hfound hne⟩

/-- Where the way to a path leads around what is removed below it, the path denotes what is left of
what was there. -/
theorem node_removeBelow {ignored : FileTree} (hne : names ≠ [])
    (hat : tree.at? names = some ignored) (hfolder : ignored.isFolder = true)
    (hway : world.Avoids (world.namesBelow path names) path) :
    (world.removeBelow path names).realPath path = world.realPath path ∧
    (world.removeBelow path names).node path = .ok (tree.remove names) :=
  node_removeBelow_of_locate_eq hpath hne
    (locate_remove ((at?_namesBelow hpath).trans hat) hfolder hway)

end

end FileTree

end LineCensus
