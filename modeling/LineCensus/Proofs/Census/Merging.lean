/-
# Merging what was recorded

Merging two tables leaves under each key what the two have there, combined, and nothing
under a key that neither has. So merging has the laws of the rule by which values are
combined, and with it those of adding up numbers.

Recording a file in merged totals is merging them with the file recorded. So it makes no
difference whether files are recorded one after the other, or in groups that are merged
afterwards.
-/

import LineCensus.Proofs.Census.Recording

namespace LineCensus

/-! ## Tables -/

namespace Table

section

variable {κ α : Type} [LT κ] [DecidableLT κ]

theorem IsSorted.mergeWith [KeyOrder κ] {first : Table κ α} (h : first.IsSorted)
    (combine : α → α → α) (second : Table κ α) : (first.mergeWith combine second).IsSorted := by
  obtain ⟨entries⟩ := second
  simp only [Table.mergeWith]
  induction entries generalizing first with
  | nil => exact h
  | cons entry rest ih => exact ih (h.change _ _)

/-- Under each key there is what the two tables have there, combined. -/
theorem get?_mergeWith [SeparatingOrder κ] [DecidableEq κ] (combine : α → α → α)
    {first second : Table κ α} (hfirst : first.IsSorted) (hsecond : second.IsSorted) (key : κ) :
    (first.mergeWith combine second).get? key =
      Option.merge combine (first.get? key) (second.get? key) := by
  obtain ⟨entries⟩ := second
  simp only [mergeWith]
  induction entries generalizing first with
  | nil => rw [List.foldl_nil, get?_nil, Option.merge_none_right]
  | cons entry rest ih =>
      obtain ⟨k, value⟩ := entry
      obtain ⟨hahead, hrest⟩ := List.pairwise_cons.mp hsecond
      rw [List.foldl_cons, ih (hfirst.change _ _) hrest, get?_change hfirst, get?_cons]
      by_cases hk : k = key
      · subst hk
        rw [if_pos rfl, if_pos (sameKey_iff.mpr rfl), get?_eq_none_of_forall_lt hahead]
        cases first.get? k <;> rfl
      · rw [if_neg hk, if_neg fun hsame => hk (sameKey_iff.mp hsame)]

end

variable {κ α : Type} [LT κ] [DecidableLT κ] [SeparatingOrder κ] [DecidableEq κ]
  (combine : α → α → α) {first second third : Table κ α}

theorem mergeWith_comm [Std.Commutative combine] (hfirst : first.IsSorted)
    (hsecond : second.IsSorted) :
    first.mergeWith combine second = second.mergeWith combine first := by
  refine (hfirst.mergeWith _ _).ext (hsecond.mergeWith _ _) fun key => ?_
  rw [get?_mergeWith _ hfirst hsecond, get?_mergeWith _ hsecond hfirst]
  exact Std.Commutative.comm _ _

theorem mergeWith_assoc [Std.Associative combine] (hfirst : first.IsSorted)
    (hsecond : second.IsSorted) (hthird : third.IsSorted) :
    (first.mergeWith combine second).mergeWith combine third =
      first.mergeWith combine (second.mergeWith combine third) := by
  refine ((hfirst.mergeWith _ _).mergeWith _ _).ext (hfirst.mergeWith _ _) fun key => ?_
  rw [get?_mergeWith _ (hfirst.mergeWith _ _) hthird, get?_mergeWith _ hfirst hsecond,
    get?_mergeWith _ hfirst (hsecond.mergeWith _ _), get?_mergeWith _ hsecond hthird]
  exact Std.Associative.assoc _ _ _

end Table

/-! ## Totals -/

namespace LanguageTotals

instance : Std.Commutative merge := ⟨merge_comm⟩

instance : Std.Associative merge := ⟨merge_assoc⟩

/-- Twice as many files, and twice as many lines of every kind. -/
def doubled (totals : LanguageTotals) : LanguageTotals where
  files := 2 * totals.files
  stats :=
    ⟨2 * totals.stats.code, 2 * totals.stats.comment, 2 * totals.stats.blank,
      2 * totals.stats.overlap⟩

theorem merge_self (totals : LanguageTotals) : totals.merge totals = totals.doubled := by
  simp only [merge, LineStats.merge, doubled, mk.injEq, LineStats.mk.injEq]
  omega

end LanguageTotals

namespace Totals

/-- Adding to a language is merging with that language alone. -/
theorem add_eq_merge (totals : Totals) (language : String) (more : LanguageTotals) :
    totals.add language more = totals.merge (add .empty language more) := by
  rw [merge_eq_addAll]
  rfl

theorem get?_merge_self {totals : Totals} (h : totals.IsSorted) (language : String) :
    (totals.merge totals).get? language =
      (totals.get? language).map LanguageTotals.doubled := by
  rw [merge, Table.get?_mergeWith _ h h]
  cases totals.get? language with
  | none => rfl
  | some found => exact congrArg some found.merge_self

/-- Adding one thing after the other is merging with all of them. -/
theorem addAll_eq_merge {totals : Totals} (h : totals.IsSorted)
    (shares : List (String × LanguageTotals)) :
    totals.addAll shares = totals.merge (addAll .empty shares) := by
  induction shares using List.reverseRecOn with
  | nil => rfl
  | append_singleton shares share ih =>
      have hshares : (addAll .empty shares).IsSorted :=
        Table.isSorted_empty.changeAll Prod.fst _ shares
      have hshare : (add .empty share.1 share.2).IsSorted := Table.isSorted_empty.change _ _
      calc totals.addAll (shares ++ [share])
          = (totals.addAll shares).add share.1 share.2 := addAll_append totals shares [share]
        _ = (totals.merge (addAll .empty shares)).merge (add .empty share.1 share.2) := by
          rw [ih, add_eq_merge]
        _ = totals.merge ((addAll .empty shares).merge (add .empty share.1 share.2)) :=
          Table.mergeWith_assoc _ h hshares hshare
        _ = totals.merge (addAll .empty (shares ++ [share])) := by
          rw [← add_eq_merge, addAll_append]
          rfl

end Totals

/-! ## Directories -/

namespace DirectoryStats

/-- Totals that have each language once, under each role and over all lines. -/
def IsOrdered (directory : DirectoryStats) : Prop :=
  ∀ role, (directory.ofRole role).IsSorted

theorem ofRole_merge (first second : DirectoryStats) (role : Option CodeRole) :
    (first.merge second).ofRole role = (first.ofRole role).merge (second.ofRole role) := by
  cases role with
  | none => rfl
  | some role => exact PerRole.get_zipWith _ _ _ role

theorem isOrdered_recordAll_empty (counts : List FileCount) :
    (empty.recordAll counts).IsOrdered := by
  intro role
  rw [ofRole_recordAll]
  exact (isSorted_ofRole_empty role).changeAll Prod.fst _ _

section

variable {first second third : DirectoryStats} (hfirst : first.IsOrdered)
  (hsecond : second.IsOrdered)

include hfirst

theorem get?_ofRole_merge_self (role : Option CodeRole) (language : String) :
    ((first.merge first).ofRole role).get? language =
      ((first.ofRole role).get? language).map LanguageTotals.doubled := by
  rw [ofRole_merge]
  exact Totals.get?_merge_self (hfirst role) language

include hsecond

theorem merge_comm : first.merge second = second.merge first := by
  refine ext_ofRole fun role => ?_
  rw [ofRole_merge, ofRole_merge]
  exact Table.mergeWith_comm _ (hfirst role) (hsecond role)

theorem merge_assoc (hthird : third.IsOrdered) :
    (first.merge second).merge third = first.merge (second.merge third) := by
  refine ext_ofRole fun role => ?_
  simp only [ofRole_merge]
  exact Table.mergeWith_assoc _ (hfirst role) (hsecond role) (hthird role)

end

/-- Files recorded on top of others come to the same as totals of their own, merged in. -/
theorem recordAll_append (first second : List FileCount) :
    empty.recordAll (first ++ second) =
      (empty.recordAll first).merge (empty.recordAll second) := by
  refine ext_ofRole fun role => ?_
  have hempty : empty.ofRole role = .empty := by
    rcases role with _ | _ | _ <;> rfl
  have hfirst := isOrdered_recordAll_empty first role
  simp only [ofRole_merge, ofRole_recordAll, hempty, List.filterMap_append,
    Totals.addAll_append] at hfirst ⊢
  exact Totals.addAll_eq_merge hfirst _

/-- **Recording and merging agree.** It makes no difference whether files are recorded one after
the other or in groups that are merged afterwards, and neither the order nor the grouping of merges
makes one. Totals that are merged with themselves are doubled, language by language, for each role
and for all lines. -/
theorem recordAll_merges (first second third : List FileCount) {directory : DirectoryStats}
    (h : directory.IsOrdered) :
    let recorded := empty.recordAll
    recorded (first ++ second) = (recorded first).merge (recorded second) ∧
    ((recorded first).merge (recorded second)).merge (recorded third) =
      (recorded first).merge ((recorded second).merge (recorded third)) ∧
    (recorded first).merge (recorded second) = (recorded second).merge (recorded first) ∧
    (recorded first).IsOrdered ∧
    ∀ role language, ((directory.merge directory).ofRole role).get? language =
      ((directory.ofRole role).get? language).map LanguageTotals.doubled := by
  have hfirst := isOrdered_recordAll_empty first
  have hsecond := isOrdered_recordAll_empty second
  exact ⟨recordAll_append first second,
    merge_assoc hfirst hsecond (isOrdered_recordAll_empty third),
    merge_comm hfirst hsecond, hfirst, get?_ofRole_merge_self h⟩

/-- A file with lines of both roles, one without lines and one without lines of code, and totals
that no recording makes. -/
theorem recordAll_merges_of_three_files :
    let src := Path.ofString "/repo/src"
    let rust : FileCount := ⟨src, "Rust", 4, some ⟨1, 1, 0, 0⟩, some ⟨2, 0, 0, 0⟩⟩
    let empty : FileCount := ⟨src, "Python", 0, some .zero, none⟩
    let notes : FileCount := ⟨src, "Rust", 2, none, some ⟨0, 1, 1, 0⟩⟩
    let directory : DirectoryStats :=
      ⟨⟨[("Go", ⟨0, ⟨-1, 0, 0, 2⟩⟩), ("Rust", ⟨2, ⟨3, 1, 0, 1⟩⟩)]⟩,
        ⟨.empty, ⟨[("Rust", ⟨1, ⟨3, 1, 0, 1⟩⟩)]⟩⟩⟩
    let recorded := DirectoryStats.empty.recordAll
    directory.IsOrdered ∧
    recorded ([rust] ++ [empty]) = (recorded [rust]).merge (recorded [empty]) ∧
    ((recorded [rust]).merge (recorded [empty])).merge (recorded [notes]) =
      (recorded [rust]).merge ((recorded [empty]).merge (recorded [notes])) ∧
    (recorded [rust]).merge (recorded [empty]) = (recorded [empty]).merge (recorded [rust]) ∧
    ∀ role language, ((directory.merge directory).ofRole role).get? language =
      ((directory.ofRole role).get? language).map LanguageTotals.doubled := by
  intro src rust empty notes directory recorded
  have hordered : directory.IsOrdered := by
    rintro (_ | _ | _)
    · exact List.pairwise_pair.mpr (by decide)
    · exact Table.isSorted_empty
    · exact List.pairwise_singleton _ _
  obtain ⟨happend, hassoc, hcomm, _, hdoubled⟩ := recordAll_merges [rust] [empty] [notes] hordered
  exact ⟨hordered, happend, hassoc, hcomm, hdoubled⟩

end DirectoryStats

end LineCensus
