/-
# Tables by what is found in them

Where the order tells all keys apart, a table whose keys ascend is known once it is known
what is found in it under each key. A sequence of changes leaves under a key what the
changes of that key make of it, one after the other, whatever was changed in between.

So a table does not show in which order it was changed, unless the changes of a single key
show it.
-/

import LineCensus.Census.Totals
import LineCensus.Proofs.Census.Table
import LineCensus.Proofs.Path.Text
import Mathlib.Data.List.Sort

namespace LineCensus

/-- An order that tells all keys apart. -/
class SeparatingOrder (κ : Type) [LT κ] : Prop extends KeyOrder κ where
  eq_of_sameKey {a b : κ} : Table.SameKey a b → a = b

instance : SeparatingOrder String where
  eq_of_sameKey := Table.sameKey_string_iff.mp

/-- Paths are ordered by their texts. -/
instance : KeyOrder Path where
  asymm {a b} hab := String.lt_asymm (a := a.toString) (b := b.toString) hab
  not_lt_trans {a b c} hab hbc := by
    have hle : a.toString ≥ c.toString := String.le_trans hbc hab
    exact hle

/-- Each path has a text of its own, so no two of them are taken for one. -/
theorem sameKey_path_iff {a b : Path} : Table.SameKey a b ↔ a = b := by
  constructor
  · intro h
    exact Path.toString_injective (Table.sameKey_string_iff.mp h)
  · rintro rfl
    exact ⟨KeyOrder.irrefl a, KeyOrder.irrefl a⟩

instance : SeparatingOrder Path where
  eq_of_sameKey := sameKey_path_iff.mp

namespace Table

variable {κ α ι : Type} [LT κ] [DecidableLT κ] [SeparatingOrder κ]

omit [DecidableLT κ] in
theorem sameKey_iff {a b : κ} : SameKey a b ↔ a = b := by
  constructor
  · exact SeparatingOrder.eq_of_sameKey
  · rintro rfl
    exact ⟨KeyOrder.irrefl a, KeyOrder.irrefl a⟩

/-! ## What is found -/

omit [DecidableLT κ] in
theorem IsSorted.nodup_keys {table : Table κ α} (h : table.IsSorted) :
    (table.entries.map Prod.fst).Nodup := by
  rw [List.Nodup, List.pairwise_map]
  refine h.imp fun {a b} hlt heq => ?_
  rw [heq] at hlt
  exact KeyOrder.irrefl b.1 hlt

/-- Where no key comes twice, an entry is what is found under its key. -/
theorem get?_eq_some_iff {table : Table κ α} (h : (table.entries.map Prod.fst).Nodup) {key : κ}
    {value : α} : table.get? key = some value ↔ (key, value) ∈ table.entries := by
  obtain ⟨entries⟩ := table
  induction entries with
  | nil => simp
  | cons entry rest ih =>
      obtain ⟨k, found⟩ := entry
      obtain ⟨hnew, hrest⟩ := List.nodup_cons.mp h
      rw [get?_cons, List.mem_cons, Prod.mk.injEq]
      by_cases hk : k = key
      · subst hk
        have hnot : (k, value) ∉ rest := fun hmem => hnew (List.mem_map.mpr ⟨_, hmem, rfl⟩)
        simp only [if_pos (sameKey_iff.mpr rfl), Option.some.injEq, true_and, hnot, or_false,
          eq_comm]
      · rw [if_neg fun hsame => hk (sameKey_iff.mp hsame), ih hrest]
        simp only [Ne.symm hk, false_and, false_or]

/-- Tables in which the same is found are the same. -/
theorem IsSorted.ext {first second : Table κ α} (hfirst : first.IsSorted)
    (hsecond : second.IsSorted) (h : ∀ key, first.get? key = second.get? key) :
    first = second := by
  have hmem : ∀ entry, entry ∈ first.entries ↔ entry ∈ second.entries := by
    intro (key, value)
    rw [← get?_eq_some_iff hfirst.nodup_keys, h, get?_eq_some_iff hsecond.nodup_keys]
  have hperm : first.entries.Perm second.entries :=
    (List.perm_ext_iff_of_nodup hfirst.nodup_keys.of_map hsecond.nodup_keys.of_map).mpr hmem
  obtain ⟨entries⟩ := first
  obtain ⟨entries'⟩ := second
  -- entries in strict order have just one arrangement
  exact congrArg mk (hperm.eq_of_pairwise
    (fun a b _ _ hab hba => absurd hba (KeyOrder.asymm hab)) hfirst hsecond)

variable [DecidableEq κ]

theorem get?_eq_lookup (table : Table κ α) (key : κ) :
    table.get? key = table.entries.lookup key := by
  obtain ⟨entries⟩ := table
  induction entries with
  | nil => rfl
  | cons entry rest ih =>
      obtain ⟨k, found⟩ := entry
      rw [get?_cons, ih, List.lookup_cons]
      by_cases hk : k = key
      · simp [hk, sameKey_iff]
      · simp [sameKey_iff, hk, beq_false_of_ne (Ne.symm hk)]

theorem get?_change {table : Table κ α} (h : table.IsSorted) (key other : κ)
    (rule : Option α → α) :
    (table.change key rule).get? other =
      if key = other then some (rule (table.get? other)) else table.get? other := by
  by_cases heq : key = other
  · subst heq
    rw [if_pos rfl, get?_change_of_sameKey h (sameKey_iff.mpr rfl)]
  · rw [if_neg heq, get?_change_of_not_sameKey table fun hsame => heq (sameKey_iff.mp hsame)]

/-! ## Sequences of changes -/

variable (key : ι → κ) (rule : ι → Option α → α)

/-- A table in which one item after the other has changed the value under its key. -/
def changeAll (table : Table κ α) (items : List ι) : Table κ α :=
  items.foldl (fun table item => table.change (key item) (rule item)) table

omit [DecidableEq κ] in
theorem IsSorted.changeAll {table : Table κ α} (h : table.IsSorted) (items : List ι) :
    (table.changeAll key rule items).IsSorted := by
  induction items generalizing table with
  | nil => exact h
  | cons item rest ih => exact ih (h.change _ _)

/-- Under each key there is what the items of that key have made of it. -/
theorem get?_changeAll {table : Table κ α} (h : table.IsSorted) (items : List ι) (k : κ) :
    (table.changeAll key rule items).get? k =
      (items.filter (key · = k)).foldl (fun found item => some (rule item found))
        (table.get? k) := by
  induction items generalizing table with
  | nil => rfl
  | cons item rest ih =>
      rw [changeAll, List.foldl_cons, ← changeAll, ih (h.change _ _), get?_change h,
        List.filter_cons]
      by_cases hk : key item = k
      · rw [if_pos hk, if_pos (decide_eq_true hk), List.foldl_cons]
      · rw [if_neg hk, if_neg (by simpa using hk)]

/-- The order of changes is not seen if that of two changes of one key is not. -/
theorem changeAll_of_perm {table : Table κ α} (h : table.IsSorted) {items items' : List ι}
    (hperm : items.Perm items')
    (hcomm : ∀ (a b : ι) (found : Option α),
      rule b (some (rule a found)) = rule a (some (rule b found))) :
    table.changeAll key rule items = table.changeAll key rule items' := by
  refine (h.changeAll key rule items).ext (h.changeAll key rule items') fun k => ?_
  rw [get?_changeAll key rule h, get?_changeAll key rule h]
  exact (hperm.filter _).foldl_eq' (fun a _ b _ found => congrArg some (hcomm a b found)) _

end Table

end LineCensus
