/-
# Laws of tables

A table is changed in one place at a time, and these are the laws of one change: what
can be looked up afterwards, that the keys still ascend, by how much the total of the
values grows, and that it does not matter whether keys are left out before it or after
it. Looking up depends on the order of the keys, totals do not.

Keys are only asked to be ordered up to those that the order does not tell apart, so
that the laws also hold of paths, whose order is that of their texts.
-/

import LineCensus.Census.Table
import Mathlib.Algebra.GroupWithZero.Nat
import Mathlib.Algebra.Ring.Int.Defs

namespace LineCensus

/-- An order of keys, in which keys that it does not tell apart count as one. -/
class KeyOrder (κ : Type) [LT κ] : Prop where
  asymm {a b : κ} : a < b → ¬ b < a
  not_lt_trans {a b c : κ} : ¬ a < b → ¬ b < c → ¬ a < c

instance : KeyOrder String where
  asymm := String.lt_asymm
  not_lt_trans hab hbc := String.le_trans hbc hab

namespace KeyOrder

variable {κ : Type} [LT κ] [KeyOrder κ]

theorem irrefl (a : κ) : ¬ a < a := fun h => asymm h h

theorem trans {a b c : κ} (hab : a < b) (hbc : b < c) : a < c :=
  Classical.byContradiction fun hac => not_lt_trans hac (asymm hbc) hab

end KeyOrder

namespace Table

variable {κ α : Type}

/-- The sum of what the values of a table come to. -/
def total (measure : α → Int) (table : Table κ α) : Int :=
  (table.values.map measure).sum

@[simp]
theorem total_empty (measure : α → Int) : (empty : Table κ α).total measure = 0 := rfl

section

variable [LT κ]

/-- A table whose keys ascend. -/
def IsSorted (table : Table κ α) : Prop :=
  table.entries.Pairwise fun a b => a.1 < b.1

theorem isSorted_empty : (empty : Table κ α).IsSorted := List.Pairwise.nil

/-- Whether two keys are taken for one. -/
def SameKey (a b : κ) : Prop :=
  ¬ a < b ∧ ¬ b < a

theorem SameKey.symm {a b : κ} (h : SameKey a b) : SameKey b a := ⟨h.2, h.1⟩

theorem SameKey.trans [KeyOrder κ] {a b c : κ} (hab : SameKey a b) (hbc : SameKey b c) :
    SameKey a c :=
  ⟨KeyOrder.not_lt_trans hab.1 hbc.1, KeyOrder.not_lt_trans hbc.2 hab.2⟩

theorem sameKey_string_iff {a b : String} : SameKey a b ↔ a = b := by
  constructor
  · intro h
    exact String.le_antisymm h.2 h.1
  · rintro rfl
    exact ⟨KeyOrder.irrefl a, KeyOrder.irrefl a⟩

end

variable [LT κ] [DecidableLT κ]

instance (a b : κ) : Decidable (SameKey a b) := inferInstanceAs (Decidable (_ ∧ _))

/-! ## The values after a change -/

/-- What holds of all values still does, if it holds of the one that is new. -/
theorem forall_values_change {P : α → Prop} {table : Table κ α} {key : κ} {rule : Option α → α}
    (h : ∀ value ∈ table.values, P value) (hnone : P (rule none))
    (hsome : ∀ value, P value → P (rule (some value))) :
    ∀ value ∈ (table.change key rule).values, P value := by
  obtain ⟨entries⟩ := table
  simp only [values, change] at h ⊢
  induction entries with
  | nil => simpa [changeIn] using hnone
  | cons entry rest ih =>
      obtain ⟨k, found⟩ := entry
      simp only [List.map_cons, List.forall_mem_cons] at h
      rw [changeIn]
      split
      · simpa only [List.map_cons, List.forall_mem_cons] using ⟨hnone, h⟩
      · split
        · simpa only [List.map_cons, List.forall_mem_cons] using ⟨h.1, ih h.2⟩
        · simpa only [List.map_cons, List.forall_mem_cons] using ⟨hsome found h.1, h.2⟩

/-- A rule that adds to a value, or to nothing, adds as much to the total. -/
theorem total_change {measure : α → Int} {rule : Option α → α} {added : Int} (key : κ)
    (hnone : measure (rule none) = added)
    (hsome : ∀ value, measure (rule (some value)) = measure value + added)
    (table : Table κ α) : (table.change key rule).total measure = table.total measure + added := by
  obtain ⟨entries⟩ := table
  simp only [total, values, change]
  induction entries with
  | nil => simp [changeIn, hnone]
  | cons entry rest ih =>
      obtain ⟨k, found⟩ := entry
      rw [changeIn]
      split
      · simp only [List.map_cons, List.sum_cons, hnone]
        omega
      · split
        · simp only [List.map_cons, List.sum_cons, ih]
          omega
        · simp only [List.map_cons, List.sum_cons, hsome]
          omega

/-- Merging adds the totals up. -/
theorem total_mergeWith {measure : α → Int} {combine : α → α → α}
    (hcombine : ∀ a b, measure (combine a b) = measure a + measure b) (first second : Table κ α) :
    (first.mergeWith combine second).total measure =
      first.total measure + second.total measure := by
  obtain ⟨entries⟩ := second
  simp only [mergeWith]
  induction entries generalizing first with
  | nil => simp [total, values]
  | cons entry rest ih =>
      rw [List.foldl_cons, ih]
      refine (congrArg (· + _) (total_change entry.1 rfl (fun value => hcombine value entry.2)
        first)).trans ?_
      simp only [total, values, List.map_cons, List.sum_cons]
      omega

/-! ## Looking up after a change -/

theorem key_of_mem_changeIn {key : κ} {rule : Option α → α} {entries : List (κ × α)}
    {entry : κ × α} (h : entry ∈ changeIn key rule entries) :
    entry.1 = key ∨ ∃ old ∈ entries, old.1 = entry.1 := by
  induction entries with
  | nil =>
      rw [changeIn, List.mem_singleton] at h
      exact .inl (congrArg Prod.fst h)
  | cons first rest ih =>
      obtain ⟨k, found⟩ := first
      rw [changeIn] at h
      split at h
      · rcases List.mem_cons.mp h with rfl | hold
        · exact .inl rfl
        · exact .inr ⟨entry, hold, rfl⟩
      · split at h
        · rcases List.mem_cons.mp h with rfl | hrest
          · exact .inr ⟨_, List.mem_cons_self, rfl⟩
          · rcases ih hrest with hkey | ⟨old, hold, hsame⟩
            · exact .inl hkey
            · exact .inr ⟨old, List.mem_cons_of_mem _ hold, hsame⟩
        · rcases List.mem_cons.mp h with rfl | hrest
          · exact .inr ⟨_, List.mem_cons_self, rfl⟩
          · exact .inr ⟨entry, List.mem_cons_of_mem _ hrest, rfl⟩

/-- A change leaves the keys in their order. -/
theorem IsSorted.change [KeyOrder κ] {table : Table κ α} (h : table.IsSorted) (key : κ)
    (rule : Option α → α) : (table.change key rule).IsSorted := by
  obtain ⟨entries⟩ := table
  simp only [IsSorted, Table.change] at h ⊢
  induction entries with
  | nil => exact List.pairwise_singleton _ _
  | cons entry rest ih =>
      obtain ⟨k, found⟩ := entry
      obtain ⟨hfirst, hrest⟩ := List.pairwise_cons.mp h
      rw [changeIn]
      split
      · next hlt =>
          refine List.pairwise_cons.mpr ⟨fun other hother => ?_, h⟩
          rcases List.mem_cons.mp hother with rfl | hmem
          · exact hlt
          · exact KeyOrder.trans hlt (hfirst other hmem)
      · split
        · next hgt =>
            refine List.pairwise_cons.mpr ⟨fun other hother => ?_, ih hrest⟩
            rcases key_of_mem_changeIn hother with hkey | ⟨old, hold, hsame⟩
            · rw [hkey]
              exact hgt
            · rw [← hsame]
              exact hfirst old hold
        · exact List.pairwise_cons.mpr ⟨hfirst, hrest⟩

@[simp]
theorem get?_nil (key : κ) : (⟨[]⟩ : Table κ α).get? key = none := rfl

theorem get?_cons (k key : κ) (value : α) (rest : List (κ × α)) :
    (⟨(k, value) :: rest⟩ : Table κ α).get? key =
      if SameKey k key then some value else (⟨rest⟩ : Table κ α).get? key := by
  by_cases h : SameKey k key
  · simp [get?, h, h.1, h.2]
  · have hnot : (!decide (k < key) && !decide (key < k)) = false := by
      simpa [SameKey] using h
    simp only [get?, List.find?_cons, hnot, if_neg h]

/-- Nothing is found in front of all keys. -/
theorem get?_eq_none_of_forall_lt {key : κ} {entries : List (κ × α)}
    (h : ∀ entry ∈ entries, key < entry.1) : (⟨entries⟩ : Table κ α).get? key = none := by
  induction entries with
  | nil => rfl
  | cons entry rest ih =>
      obtain ⟨hfirst, hrest⟩ := List.forall_mem_cons.mp h
      rw [get?_cons, if_neg fun hsame => hsame.2 hfirst]
      exact ih hrest

/-- Under another key there is what was there before. -/
theorem get?_change_of_not_sameKey [KeyOrder κ] (table : Table κ α) {key other : κ}
    (h : ¬ SameKey key other) (rule : Option α → α) :
    (table.change key rule).get? other = table.get? other := by
  obtain ⟨entries⟩ := table
  simp only [change]
  induction entries with
  | nil => rw [changeIn, get?_cons, if_neg h]
  | cons entry rest ih =>
      obtain ⟨k, found⟩ := entry
      rw [changeIn]
      split
      · rw [get?_cons key, if_neg h]
      · split
        · rw [get?_cons, get?_cons, ih]
        · next hge hle =>
            have hother : ¬ SameKey k other := fun hsame =>
              h (SameKey.trans ⟨hge, hle⟩ hsame)
            rw [get?_cons, get?_cons, if_neg hother, if_neg hother]

/-- Under the key itself there is what the rule makes of the old value. -/
theorem get?_change_of_sameKey [KeyOrder κ] {table : Table κ α} (hsorted : table.IsSorted)
    {key other : κ} (h : SameKey key other) (rule : Option α → α) :
    (table.change key rule).get? other = some (rule (table.get? key)) := by
  obtain ⟨entries⟩ := table
  simp only [change, IsSorted] at hsorted ⊢
  induction entries with
  | nil => rw [changeIn, get?_cons, if_pos h, get?_nil]
  | cons entry rest ih =>
      obtain ⟨k, found⟩ := entry
      obtain ⟨hfirst, hrest⟩ := List.pairwise_cons.mp hsorted
      rw [changeIn]
      split
      · next hlt =>
          have hnone : (⟨(k, found) :: rest⟩ : Table κ α).get? key = none :=
            get?_eq_none_of_forall_lt (List.forall_mem_cons.mpr
              ⟨hlt, fun entry hmem => KeyOrder.trans hlt (hfirst entry hmem)⟩)
          rw [get?_cons key, if_pos h, hnone]
      · split
        · next hgt =>
            have hkey : ¬ SameKey k key := fun hsame => hsame.1 hgt
            have hother : ¬ SameKey k other := fun hsame => hkey (hsame.trans h.symm)
            rw [get?_cons, get?_cons, if_neg hother, if_neg hkey, ih hrest]
        · next hge hle =>
            have hkey : SameKey k key := ⟨hle, hge⟩
            rw [get?_cons, get?_cons, if_pos hkey, if_pos (hkey.trans h)]

/-! ## Leaving keys out -/

/-- What a table has under some of its keys. -/
def restrict (keep : κ → Bool) (table : Table κ α) : Table κ α :=
  ⟨table.entries.filter fun entry => keep entry.1⟩

theorem changeIn_of_forall_lt {key : κ} {entries : List (κ × α)}
    (h : ∀ entry ∈ entries, key < entry.1) (rule : Option α → α) :
    changeIn key rule entries = (key, rule none) :: entries := by
  cases entries with
  | nil => rfl
  | cons entry rest => rw [changeIn, if_pos (h entry List.mem_cons_self)]

/-- A change under a key that is kept can as well be made afterwards, and a change under any other
key might as well not be made. -/
theorem filter_changeIn [KeyOrder κ] {entries : List (κ × α)}
    (hsorted : entries.Pairwise fun a b => a.1 < b.1) {keep : κ → Bool}
    (hkeep : ∀ a b, SameKey a b → keep a = keep b) (key : κ) (rule : Option α → α) :
    (changeIn key rule entries).filter (fun entry => keep entry.1) =
      if keep key then changeIn key rule (entries.filter fun entry => keep entry.1)
      else entries.filter fun entry => keep entry.1 := by
  induction entries with
  | nil => by_cases hkey : keep key <;> simp [changeIn, hkey]
  | cons entry rest ih =>
      obtain ⟨k, found⟩ := entry
      obtain ⟨hfirst, hrest⟩ := List.pairwise_cons.mp hsorted
      rw [changeIn]
      split
      · next hlt =>
          have hkept : ∀ entry ∈ ((k, found) :: rest).filter fun entry => keep entry.1,
              key < entry.1 := by
            intro entry hmem
            rcases List.mem_cons.mp (List.mem_filter.mp hmem).1 with rfl | hrest
            · exact hlt
            · exact KeyOrder.trans hlt (hfirst entry hrest)
          rw [changeIn_of_forall_lt hkept, List.filter_cons]
      · split
        · next hge hgt =>
            rw [List.filter_cons, List.filter_cons, ih hrest]
            by_cases hk : keep k = true
            · simp only [if_pos hk, changeIn, if_neg hge, if_pos hgt]
              split <;> rfl
            · simp only [if_neg hk]
        · next hge hle =>
            have hk : keep k = keep key := hkeep k key ⟨hle, hge⟩
            simp only [List.filter_cons, hk]
            by_cases hkey : keep key = true
            · simp only [if_pos hkey, changeIn, if_neg hge, if_neg hle]
            · simp only [if_neg hkey]

theorem restrict_change [KeyOrder κ] {table : Table κ α} (hsorted : table.IsSorted)
    {keep : κ → Bool} (hkeep : ∀ a b, SameKey a b → keep a = keep b) (key : κ)
    (rule : Option α → α) :
    (table.change key rule).restrict keep =
      if keep key then (table.restrict keep).change key rule else table.restrict keep := by
  rw [restrict, change, filter_changeIn hsorted hkeep]
  split <;> rfl

end Table

end LineCensus
