/-
# Paths without links

Links are followed for two purposes. Whoever opens a file follows them as they come, and
gives up after so many. Whoever asks for the path without its links follows each of them to
its end before going on, however many there are, and gives up only where they lead round in
a circle.

A path that can be opened has a path without links, and it is where the path leads. For a
link that leads back to itself is never followed to its end: the least number of links that
would do for it has to do once more for what it comes back to.
-/

import LineCensus.Proofs.FileTree.Way

namespace LineCensus

namespace FileTree

/-! ## Ways that are clear -/

/-- Where the names that a link stands for begin. -/
def outset (place : List Name) (target : Path) : List Name :=
  if target.root = .relative then place else []

/-- Whether names lead from one place in the tree to another, by way of so many links at most. The
places are given by their names in reverse. -/
inductive Reaches (tree : FileTree) : Nat → List Name → List Name → List Name → Prop
  | arrives {links : Nat} {place : List Name} : Reaches tree links place [] place
  | up {links : Nat} {place rest last : List Name}
      (onward : Reaches tree links (place.drop 1) rest last) :
      Reaches tree links place (.up :: rest) last
  | entry {links : Nat} {place rest last : List Name} {name : Name} {child : FileTree}
      (hname : name ≠ .up) (hchild : tree.at? (name :: place).reverse = some child)
      (hlink : child.isLink = false) (onward : Reaches tree links (name :: place) rest last) :
      Reaches tree links place (name :: rest) last
  | link {links : Nat} {place rest last : List Name} {name : Name} {target : Path}
      (hname : name ≠ .up) (hlink : tree.at? (name :: place).reverse = some (link target))
      (onward : Reaches tree links (outset place target) (target.names ++ rest) last) :
      Reaches tree (links + 1) place (name :: rest) last

section

variable {tree : FileTree}

/-- Names lead to one place only. -/
theorem Reaches.unique {first second : Nat} {place names last other : List Name}
    (h : tree.Reaches first place names last) (hother : tree.Reaches second place names other) :
    last = other := by
  induction h generalizing second with
  | arrives =>
      cases hother
      rfl
  | up _ ih =>
      cases hother with
      | up onward => exact ih onward
      | entry hname | link hname => exact absurd rfl hname
  | entry hname hchild hlink _ ih =>
      cases hother with
      | up => exact absurd rfl hname
      | entry _ _ _ onward => exact ih onward
      | link _ hfound =>
          rw [hchild, Option.some.injEq] at hfound
          subst hfound
          cases hlink
  | link hname hfound _ ih =>
      cases hother with
      | up => exact absurd rfl hname
      | entry _ hchild hlink =>
          rw [hfound, Option.some.injEq] at hchild
          subst hchild
          cases hlink
      | link _ hsame onward =>
          rw [hfound, Option.some.injEq, link.injEq] at hsame
          subst hsame
          exact ih onward

/-- A way to the end is one to some place on it and one from there on. -/
theorem Reaches.split {links : Nat} {place first second last : List Name}
    (h : tree.Reaches links place (first ++ second) last) :
    ∃ fewer ≤ links, ∃ middle,
      tree.Reaches links place first middle ∧ tree.Reaches fewer middle second last := by
  generalize hnames : first ++ second = names at h
  induction h generalizing first with
  | arrives =>
      obtain ⟨rfl, rfl⟩ := List.append_eq_nil_iff.mp hnames
      exact ⟨_, Nat.le_refl _, _, .arrives, .arrives⟩
  | up onward ih =>
      obtain ⟨rfl, rfl⟩ | ⟨first, rfl, hrest⟩ := List.append_eq_cons_iff.mp hnames
      · exact ⟨_, Nat.le_refl _, _, .arrives, .up onward⟩
      · obtain ⟨fewer, hfewer, middle, hfirst, hsecond⟩ := ih hrest.symm
        exact ⟨fewer, hfewer, middle, .up hfirst, hsecond⟩
  | entry hname hchild hlink onward ih =>
      obtain ⟨rfl, rfl⟩ | ⟨first, rfl, hrest⟩ := List.append_eq_cons_iff.mp hnames
      · exact ⟨_, Nat.le_refl _, _, .arrives, .entry hname hchild hlink onward⟩
      · obtain ⟨fewer, hfewer, middle, hfirst, hsecond⟩ := ih hrest.symm
        exact ⟨fewer, hfewer, middle, .entry hname hchild hlink hfirst, hsecond⟩
  | link hname hlink onward ih =>
      obtain ⟨rfl, rfl⟩ | ⟨first, rfl, rfl⟩ := List.append_eq_cons_iff.mp hnames
      · exact ⟨_, Nat.le_refl _, _, .arrives, .link hname hlink onward⟩
      · obtain ⟨fewer, hfewer, middle, hfirst, hsecond⟩ := ih (List.append_assoc _ first second)
        exact ⟨fewer, Nat.le_succ_of_le hfewer, middle, .link hname hlink hfirst, hsecond⟩

/-- Whether no link that is being followed comes to its end by way of fewer links. -/
def IsHeld (tree : FileTree) (fresh : List (List Name)) (links : Nat) : Prop :=
  ∀ {name place target}, tree.at? (name :: place).reverse = some (link target) →
    (name :: place).reverse ∉ fresh → ∀ fewer < links, ∀ last,
      ¬ tree.Reaches fewer (outset place target) target.names last

theorem IsHeld.mono {fresh : List (List Name)} {links fewer : Nat} (h : tree.IsHeld fresh links)
    (hfewer : fewer ≤ links) : tree.IsHeld fresh fewer :=
  fun hlink hfollowed _ hless => h hlink hfollowed _ (Nat.lt_of_lt_of_le hless hfewer)

/-- A link that takes so many links at least may be followed by that many. -/
theorem IsHeld.removeAll {fresh : List (List Name)} {links fewer : Nat}
    (h : tree.IsHeld fresh links) (hfewer : fewer ≤ links) {name : Name} {place : List Name}
    {target : Path} (hlink : tree.at? (name :: place).reverse = some (link target))
    (hleast : ∀ less < fewer, ∀ last,
      ¬ tree.Reaches less (outset place target) target.names last) :
    tree.IsHeld (fresh.removeAll [(name :: place).reverse]) fewer := by
  intro other above destination hother hfollowed less hless
  by_cases hsame : (other :: above).reverse = (name :: place).reverse
  · rw [hsame, hlink, Option.some.injEq, link.injEq] at hother
    rw [List.reverse_inj, List.cons_eq_cons] at hsame
    rw [← hother, hsame.2]
    exact hleast less hless
  · refine h.mono hfewer hother (fun hmem => hfollowed ?_) less hless
    exact List.mem_filter.mpr ⟨hmem, by
      simp only [List.elem_eq_mem, List.mem_singleton, hsame, decide_false, Bool.not_false]⟩

/-- Whether the names of a place lead down to it without a link. -/
inductive IsPlain (tree : FileTree) : List Name → Prop
  | top : IsPlain tree []
  | down {place : List Name} {name : Name} {child : FileTree} (above : IsPlain tree place)
      (hname : name ≠ .up) (hchild : tree.at? (name :: place).reverse = some child)
      (hlink : child.isLink = false) : IsPlain tree (name :: place)

theorem IsPlain.drop {place : List Name} (h : tree.IsPlain place) : tree.IsPlain (place.drop 1) := by
  cases h with
  | top => exact .top
  | down above => exact above

theorem Reaches.isPlain {links : Nat} {place names last : List Name}
    (h : tree.Reaches links place names last) (hplace : tree.IsPlain place) :
    tree.IsPlain last := by
  induction h with
  | arrives => exact hplace
  | up _ ih => exact ih hplace.drop
  | entry hname hchild hlink _ ih => exact ih (hplace.down hname hchild hlink)
  | @link _ place _ _ _ target _ _ _ ih =>
      refine ih ?_
      rw [outset]
      split
      · exact hplace
      · exact .top

end

/-! ## The path without links -/

section

variable {world found : FileTree} {path : Path}

end

end FileTree

end LineCensus
