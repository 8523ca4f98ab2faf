/-
# The loss of a file

A file is no place to go on from. A way that comes to it ends there or meets an obstacle.
After the file was removed the same way meets an obstacle one name earlier. All names lead
to the same places as before.

So a path denotes what it denoted, unless it denotes the file. A path that denoted nothing
still does, if for another reason.
-/

import LineCensus.Proofs.FileTree.Way

namespace LineCensus

namespace FileTree

attribute [ext] Location

/-! ## Where the file was -/

section

variable {tree file : FileTree} {above : List Name} {name : Name}
  (hat : tree.at? (above ++ [name]) = some file)

include hat

/-- What holds something is a directory that lists it. -/
theorem exists_directory_of_at?_concat :
    ∃ entries, tree.at? above = some (directory entries) ∧ lookUp? entries name = some file := by
  rw [at?_append] at hat
  obtain ⟨found, hfound, hname⟩ := Option.bind_eq_some_iff.mp hat
  cases found with
  | directory entries =>
      obtain ⟨child, hchild, hfile⟩ := Option.bind_eq_some_iff.mp hname
      cases hfile
      exact ⟨entries, hfound, hchild⟩
  | _ => cases hname

/-- Where something was removed there is nothing. -/
theorem exists_directory_remove :
    ∃ entries, (tree.remove (above ++ [name])).at? above = some (directory entries) ∧
      lookUp? entries name = none := by
  obtain ⟨entries, hfound, _⟩ := exists_directory_of_at?_concat hat
  refine ⟨without entries name, at?_remove_append hfound (List.cons_ne_nil name []), ?_⟩
  rw [lookUp?, Option.map_eq_none_iff, without, List.find?_filter, List.find?_eq_none]
  simp

end

theorem at?_remove_below {tree file : FileTree} {gone : List Name} (hat : tree.at? gone = some file)
    (hne : gone ≠ []) (names : List Name) : (tree.remove gone).at? (gone ++ names) = none := by
  obtain ⟨above, name, rfl⟩ := (List.eq_nil_or_concat gone).resolve_left hne
  rw [List.concat_eq_append] at hat ⊢
  obtain ⟨entries, hfound, hnone⟩ := exists_directory_remove hat
  rw [at?_append, at?_append, hfound, Option.bind_some, at?_cons, hnone]
  rfl

/-! ## One name after the other -/

/-- A name leads further down, or no further than to a place on the way. -/
theorem place_turn (tree : FileTree) (links : Nat) (place : List Name) (name : Name) :
    (tree.turn links place name).place = name :: place ∨
      (tree.turn links place name).place <:+ place := by
  have hback : place.drop 1 <:+ place := List.drop_suffix 1 place
  rw [turn]
  split
  · by_cases hup : name = .up
    · simp only [if_pos hup]
      exact .inr hback
    · simp only [if_neg hup]
      split
      · split
        · exact .inl rfl
        · dsimp only
          split
          · exact .inr List.suffix_rfl
          · exact .inr List.nil_suffix
      · exact .inl rfl
      · exact .inl rfl
  · exact .inl rfl
  all_goals
    by_cases hup : name = .up
    · exact .inr (by rwa [if_pos hup])
    · exact .inl (if_neg hup)

/-- Whether an obstacle is that there is nothing. -/
def IsAbsence (obstacle : Option (Path → SystemError)) : Prop :=
  obstacle = some .notFound ∨ obstacle = some .notDirectory

/-- What may be in the way to a place in a tree and in the same tree without a file: the same, and
then the file is not in the way, or in the one tree the file or nothing and in the other nothing. -/
inductive FareAlike (gone place : List Name) :
    Option (Path → SystemError) → Option (Path → SystemError) → Prop
  | same {obstacle : Option (Path → SystemError)}
      (around : obstacle = none → ¬ gone <+: place.reverse) : FareAlike gone place obstacle obstacle
  | lost {obstacle other : Option (Path → SystemError)}
      (file : IsAbsence obstacle ∨ obstacle = none ∧ place.reverse = gone)
      (absent : IsAbsence other) : FareAlike gone place obstacle other

theorem IsAbsence.or {obstacle : Option (Path → SystemError)} (h : IsAbsence obstacle)
    (other : Option (Path → SystemError)) : IsAbsence (obstacle.or other) := by
  obtain rfl | rfl := h
  · exact .inl rfl
  · exact .inr rfl

theorem denotes_of_isAbsence {tree : FileTree} {path : Path}
    (h : IsAbsence (tree.locate path).obstacle) : tree.denotes path = false := by
  rw [denotes, node]
  obtain hmissing | hmissing := h
  all_goals simp only [hmissing]

theorem FareAlike.ended {gone place : List Name} (error : Path → SystemError) :
    FareAlike gone place (some error) (some error) :=
  .same fun hnone => absurd hnone (Option.some_ne_none error)

section

variable {tree file : FileTree} {gone : List Name} (hat : tree.at? gone = some file)
  (hfile : file.isRegular = true)

include hat hfile

/-- From the place of the file on nothing is to be found. -/
theorem turn_of_isPrefix (hne : gone ≠ []) {place : List Name} (h : gone <+: place.reverse)
    (links : Nat) (name : Name) :
    ∃ obstacle, IsAbsence obstacle ∧
      tree.turn links place name =
        ⟨links, if name = .up then place.drop 1 else name :: place, obstacle, []⟩ ∧
      (tree.remove gone).turn links place name =
        ⟨links, if name = .up then place.drop 1 else name :: place, some .notFound, []⟩ := by
  obtain ⟨names, hplace⟩ := h
  have hnone : (tree.remove gone).at? place.reverse = none := by
    rw [← hplace, at?_remove_below hat hne]
  have hbelow : (tree.remove gone).turn links place name =
      ⟨links, if name = .up then place.drop 1 else name :: place, some .notFound, []⟩ := by
    simp only [turn, hnone]
  cases names with
  | nil =>
      have hhere : tree.at? place.reverse = some file := by rw [← hplace, List.append_nil, hat]
      refine ⟨some .notDirectory, .inr rfl, ?_, hbelow⟩
      cases file with
      | file _ | lockedFile => simp only [turn, hhere]
      | _ => cases hfile
  | cons next names =>
      have hhere : tree.at? place.reverse = none := by
        rw [← hplace, at?_append, hat, Option.bind_some, at?_of_ne_directory]
        rintro entries rfl
        cases hfile
      refine ⟨some .notFound, .inl rfl, ?_, hbelow⟩
      simp only [turn, hhere]

/-- From elsewhere a name leads where it led, but perhaps to nothing in place of the file. -/
theorem turn_remove_of_not_isPrefix {place : List Name} (h : ¬ gone <+: place.reverse)
    (links : Nat) (name : Name) :
    (tree.remove gone).turn links place name = tree.turn links place name ∧
        ¬ gone <+: (tree.turn links place name).place.reverse ∨
      (name :: place).reverse = gone ∧
        tree.turn links place name = ⟨links, name :: place, none, []⟩ ∧
        (tree.remove gone).turn links place name =
          ⟨links, name :: place, some .notFound, []⟩ := by
  have hlink := isLink_of_isRegular hfile
  by_cases hnext : gone <+: (tree.turn links place name).place.reverse
  case neg => exact .inl ⟨turn_remove hat hlink h hnext, hnext⟩
  case pos =>
    rcases place_turn tree links place name with hdown | hback
    · rw [hdown, List.reverse_cons, List.prefix_concat_iff] at hnext
      have hgone := hnext.resolve_right h
      rw [hgone] at hat
      obtain ⟨entries, hplace, hchild⟩ := exists_directory_of_at?_concat hat
      obtain ⟨others, hsmaller, hnone⟩ := exists_directory_remove hat
      have hup : name ≠ .up := by
        intro hname
        have hlength := congrArg List.length hdown
        simp only [turn, hplace, if_pos hname, List.length_drop, List.length_cons] at hlength
        omega
      refine .inr ⟨by rw [List.reverse_cons, hgone], ?_, ?_⟩
      · exact turn_of_isLink_eq_false hplace hup hchild hlink links
      · rw [hgone]
        simp only [turn, hsmaller, if_neg hup, hnone]
    · exact absurd (hnext.trans (List.reverse_prefix.mpr hback)) h

/-- A name leads to the same place with and without the file, and what is in the way differs by
the file alone. -/
theorem turn_remove_file (hne : gone ≠ []) {place : List Name}
    {obstacle other : Option (Path → SystemError)} (h : FareAlike gone place obstacle other)
    (links : Nat) (name : Name) :
    let turn := tree.turn links place name
    let turn' := (tree.remove gone).turn links place name
    turn'.links = turn.links ∧ turn'.place = turn.place ∧ turn'.names = turn.names ∧
      FareAlike gone turn.place (obstacle.or turn.obstacle) (other.or turn'.obstacle) := by
  intro turn turn'
  by_cases hbelow : gone <+: place.reverse
  · obtain ⟨found, hfound, hturn, hturn'⟩ := turn_of_isPrefix hat hfile hne hbelow links name
    simp only [turn, turn', hturn, hturn', true_and]
    cases h with
    | same around =>
        cases obstacle with
        | none => exact absurd hbelow (around rfl)
        | some error => exact .ended error
    | lost hlost habsent =>
        refine .lost (.inl ?_) (habsent.or _)
        rcases hlost with hobstacle | ⟨rfl, _⟩
        · exact hobstacle.or _
        · exact hfound
  · rcases turn_remove_of_not_isPrefix hat hfile hbelow links name with
      ⟨hsame, hnext⟩ | ⟨hplace, hturn, hturn'⟩
    · simp only [turn', hsame]
      refine ⟨rfl, rfl, rfl, ?_⟩
      cases h with
      | same around => exact .same fun _ => hnext
      | lost hlost habsent =>
          refine .lost (.inl ?_) (habsent.or _)
          exact (hlost.resolve_right fun hhere => hbelow (hhere.2 ▸ List.prefix_rfl)).or _
    · simp only [turn, turn', hturn, hturn', true_and]
      cases h with
      | same around =>
          cases obstacle with
          | none => exact .lost (.inr ⟨rfl, hplace⟩) (.inl rfl)
          | some error => exact .ended error
      | lost hlost habsent =>
          refine .lost (.inl ?_) (habsent.or _)
          exact (hlost.resolve_right fun hhere => hbelow (hhere.2 ▸ List.prefix_rfl)).or _

/-! ## All names -/

/-- Names lead to the same place with and without the file, and what is in the way differs by the
file alone. -/
theorem follow_remove_file (hne : gone ≠ []) (links : Nat) (place names : List Name)
    {obstacle other : Option (Path → SystemError)} (h : FareAlike gone place obstacle other) :
    ((tree.remove gone).follow links place other names).names =
        (tree.follow links place obstacle names).names ∧
      FareAlike gone (tree.follow links place obstacle names).names.reverse
        (tree.follow links place obstacle names).obstacle
        ((tree.remove gone).follow links place other names).obstacle := by
  induction links, place, names using tree.wayInduction generalizing obstacle other with
  | arrives links place =>
      rw [follow, follow, List.reverse_reverse]
      exact ⟨rfl, h⟩
  | goesOn links place name rest ih =>
      obtain ⟨hlinks, hplace, hnames, hfare⟩ := turn_remove_file hat hfile hne h links name
      simp only [follow_cons, hlinks, hplace, hnames]
      exact ih hfare

theorem locate_remove_file (hne : gone ≠ []) (path : Path) :
    ((tree.remove gone).locate path).names = (tree.locate path).names ∧
      FareAlike gone (tree.locate path).names.reverse (tree.locate path).obstacle
        ((tree.remove gone).locate path).obstacle :=
  follow_remove_file hat hfile hne maxLinks [] path.names
    (.same fun _ hprefix => hne (List.prefix_nil.mp hprefix))

/-- A path denotes what it denoted, or a directory where it was one. Otherwise it now denotes
nothing, and it denoted the file or nothing before. -/
theorem node_remove_file (hne : gone ≠ []) (path : Path) :
    ((tree.remove gone).node path = tree.node path ∨
      ∃ entries others, tree.node path = .ok (directory entries) ∧
        (tree.remove gone).node path = .ok (directory others)) ∨
    (tree.node path = .ok file ∨ tree.denotes path = false) ∧
      (tree.remove gone).denotes path = false := by
  obtain ⟨hnames, hfare⟩ := locate_remove_file hat hfile hne path
  generalize hobstacle : (tree.locate path).obstacle = obstacle at hfare
  generalize hother : ((tree.remove gone).locate path).obstacle = other at hfare
  cases hfare with
  | same around =>
      have hlocate : (tree.remove gone).locate path = tree.locate path :=
        Location.ext hnames (hother.trans hobstacle.symm)
      refine .inl (node_remove_of_locate_eq hat hlocate fun hclear => ?_)
      rw [List.reverse_reverse] at around
      exact around (hobstacle.symm.trans hclear)
  | lost hlost habsent =>
      refine .inr ⟨?_, denotes_of_isAbsence (hother ▸ habsent)⟩
      rcases hlost with hmissing | ⟨hclear, hplace⟩
      · exact .inr (denotes_of_isAbsence (hobstacle ▸ hmissing))
      · rw [List.reverse_reverse] at hplace
        exact .inl (node_eq_ok_iff.mpr ⟨hobstacle.trans hclear, hplace.symm ▸ hat⟩)

end

/-- A directory with a file below it denotes what is left without the file. -/
theorem node_removeBelow_file {world tree file : FileTree} {path : Path} {names : List Name}
    (hpath : world.node path = .ok tree) (hne : names ≠ []) (hat : tree.at? names = some file)
    (hfile : file.isRegular = true) :
    (world.removeBelow path names).realPath path = world.realPath path ∧
    (world.removeBelow path names).node path = .ok (tree.remove names) := by
  refine node_removeBelow_of_locate_eq hpath hne ?_
  have hgone : world.namesBelow path names ≠ [] := List.append_ne_nil_of_right_ne_nil _ hne
  obtain ⟨hnames, hfare⟩ :=
    locate_remove_file ((at?_namesBelow hpath).trans hat) hfile hgone path
  refine Location.ext hnames ?_
  have hclear := (node_eq_ok_iff.mp hpath).1
  generalize hother : ((world.remove (world.namesBelow path names)).locate path).obstacle = other
    at hfare
  rw [hclear] at hfare
  cases hfare with
  | same _ => exact hother.trans hclear.symm
  | lost hlost _ =>
      rcases hlost with hmissing | ⟨_, hplace⟩
      · rcases hmissing with hnone | hnone <;> cases hnone
      · -- the directory would be the file
        rw [List.reverse_reverse] at hplace
        exact absurd (List.append_right_eq_self.mp hplace.symm) hne

end FileTree

end LineCensus
