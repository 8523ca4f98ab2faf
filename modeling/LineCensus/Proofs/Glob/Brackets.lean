/-
# Brackets that stay open

A specification is refused for its brackets, and these are counted as if they could be
nested. So what is refused is a bracket without a partner, where partners are found as
those of parentheses are: nowhere behind the bracket are more brackets closed than opened.

The classes of a glob are not nested, and a closing bracket right at the start of one
belongs to it. A class that is never closed is therefore something else than a bracket
without a partner, in both directions. The two are the same where brackets alternate and
enclose something.
-/

import LineCensus.Filespec
import LineCensus.Proofs.Text.Search

namespace LineCensus

open Text

namespace Filespec

/-! ## Brackets without a partner -/

/-- How many brackets are open behind a character in front of which some were. -/
def depthBehind (depth : Nat) (c : Char) : Nat :=
  if c = '[' then depth + 1 else if c = ']' then depth - 1 else depth

/-- How many brackets are open behind a text in front of which some were. -/
def bracketDepth (depth : Nat) (text : List Char) : Nat :=
  text.foldl depthBehind depth

theorem openBrackets_eq (pattern : List Char) : openBrackets pattern = bracketDepth 0 pattern := rfl

theorem bracketDepth_append (depth : Nat) (first second : List Char) :
    bracketDepth depth (first ++ second) = bracketDepth (bracketDepth depth first) second :=
  List.foldl_append

/-- Whether of some brackets in front of a text not all are closed anywhere in it. -/
def StayOpen (depth : Nat) (text : List Char) : Prop :=
  ∀ part, part <+: text → part.count ']' < depth + part.count '['

/-- Whether a bracket in front of a text has no partner in it. -/
def IsUnpaired (text : List Char) : Prop :=
  ∀ part, part <+: text → part.count ']' ≤ part.count '['

theorem stayOpen_one_iff {text : List Char} : StayOpen 1 text ↔ IsUnpaired text := by
  simp only [StayOpen, IsUnpaired, Nat.lt_one_add_iff]

theorem StayOpen.mono {depth more : Nat} {text : List Char} (h : StayOpen depth text)
    (hle : depth ≤ more) : StayOpen more text :=
  fun part hpart => Nat.lt_of_lt_of_le (h part hpart) (Nat.add_le_add_right hle _)

theorem stayOpen_cons_iff {depth : Nat} {c : Char} {text : List Char} :
    StayOpen depth (c :: text) ↔ 0 < depth ∧ StayOpen (depthBehind depth c) text := by
  have hcounts : ∀ part : List Char, 0 < depth →
      ((c :: part).count ']' < depth + (c :: part).count '[' ↔
        part.count ']' < depthBehind depth c + part.count '[') := by
    intro part hdepth
    rw [List.count_cons, List.count_cons, depthBehind]
    by_cases hopen : c = '['
    · simp only [hopen, Char.reduceBEq, Bool.false_eq_true, ↓reduceIte]
      omega
    · by_cases hclose : c = ']'
      · simp only [hclose, Char.reduceEq, Char.reduceBEq, Bool.false_eq_true, ↓reduceIte]
        omega
      · simp [hopen, hclose]
  constructor
  · intro h
    have hdepth : 0 < depth := h [] List.nil_prefix
    refine ⟨hdepth, fun part hpart => (hcounts part hdepth).mp (h _ ?_)⟩
    exact List.cons_prefix_cons.mpr ⟨rfl, hpart⟩
  · rintro ⟨hdepth, h⟩ part hpart
    rcases List.prefix_cons_iff.mp hpart with rfl | ⟨rest, rfl, hrest⟩
    · exact hdepth
    · exact (hcounts rest hdepth).mpr (h rest hrest)

/-- Whether a bracket in a text has no partner in what follows it. -/
def HasUnpaired (text : List Char) : Prop :=
  ∃ front rest, text = front ++ '[' :: rest ∧ IsUnpaired rest

theorem hasUnpaired_cons_iff {c : Char} {text : List Char} :
    HasUnpaired (c :: text) ↔ c = '[' ∧ IsUnpaired text ∨ HasUnpaired text := by
  constructor
  · rintro ⟨front, rest, heq, hrest⟩
    cases front with
    | nil =>
        cases heq
        exact .inl ⟨rfl, hrest⟩
    | cons first front =>
        cases heq
        exact .inr ⟨front, rest, rfl, hrest⟩
  · rintro (⟨rfl, hrest⟩ | ⟨front, rest, rfl, hrest⟩)
    · exact ⟨[], text, rfl, hrest⟩
    · exact ⟨c :: front, rest, rfl, hrest⟩

/-- Brackets are open behind a text if some in front of it are never closed, or one in it is
without a partner. -/
theorem bracketDepth_pos_iff {depth : Nat} {text : List Char} :
    0 < bracketDepth depth text ↔ StayOpen depth text ∨ HasUnpaired text := by
  induction text generalizing depth with
  | nil => simp [bracketDepth, StayOpen, HasUnpaired]
  | cons c text ih =>
      have hstep : 0 < bracketDepth depth (c :: text) ↔
          StayOpen (depthBehind depth c) text ∨ HasUnpaired text := ih
      rw [hstep, stayOpen_cons_iff, hasUnpaired_cons_iff]
      by_cases hopen : c = '['
      · subst hopen
        have hdeeper : depthBehind depth '[' = depth + 1 := rfl
        rw [hdeeper, ← stayOpen_one_iff, and_iff_right rfl, ← or_assoc]
        refine or_congr_left ⟨fun h => ?_, ?_⟩
        -- without brackets in front, the one bracket that is open is the new one
        · rcases Nat.eq_zero_or_pos depth with rfl | hdepth
          · exact .inr h
          · exact .inl ⟨hdepth, h⟩
        · rintro (⟨_, h⟩ | h)
          · exact h
          · exact h.mono (Nat.le_add_left 1 depth)
      · simp only [hopen, false_and, false_or]
        refine or_congr_left ⟨fun h => ⟨?_, h⟩, fun h => h.2⟩
        have hdepth : 0 < depthBehind depth c := h [] List.nil_prefix
        rw [depthBehind, if_neg hopen] at hdepth
        split at hdepth <;> omega

theorem hasUnpaired_iff {text : List Char} : HasUnpaired text ↔ 0 < bracketDepth 0 text := by
  have hnone : ¬ StayOpen 0 text := fun h => Nat.lt_irrefl 0 (h [] List.nil_prefix)
  rw [bracketDepth_pos_iff, or_iff_right hnone]

/-- A specification is refused for a bracket without a partner. -/
theorem parse?_eq_none_iff {pattern : String} :
    parse? pattern = none ↔ HasUnpaired pattern.toList := by
  rw [hasUnpaired_iff, ← openBrackets_eq, Nat.pos_iff_ne_zero, parse?]
  simp

/-! ## Classes that are never closed -/

/-- Whether what stands between an opening bracket and the next closing one is never a bracket,
nor nothing, nor a mere exclamation mark. -/
def BracketsAlternate (text : List Char) : Prop :=
  ∀ front inside back, text = front ++ '[' :: (inside ++ ']' :: back) → ']' ∉ inside →
    '[' ∉ inside ∧ inside ≠ [] ∧ inside ≠ ['!']

theorem BracketsAlternate.of_append (front : List Char) {text : List Char}
    (h : BracketsAlternate (front ++ text)) : BracketsAlternate text := by
  rintro more inside back rfl hinside
  exact h (front ++ more) inside back (List.append_assoc _ _ _).symm hinside

/-- A text without brackets leaves as many open as there were. -/
theorem bracketDepth_of_notMem {text : List Char} (hopen : '[' ∉ text) (hclose : ']' ∉ text)
    (depth : Nat) : bracketDepth depth text = depth := by
  induction text with
  | nil => rfl
  | cons c text ih =>
      have hsame : depthBehind depth c = depth := by
        rw [depthBehind, if_neg (List.ne_of_not_mem_cons hopen).symm,
          if_neg (List.ne_of_not_mem_cons hclose).symm]
      rw [bracketDepth, List.foldl_cons, hsame]
      exact ih (List.not_mem_of_not_mem_cons hopen) (List.not_mem_of_not_mem_cons hclose)

theorem isUnpaired_of_notMem {text : List Char} (h : ']' ∉ text) : IsUnpaired text := by
  intro part hpart
  have hnone : part.count ']' = 0 := List.count_eq_zero.mpr fun hmem => h (hpart.mem hmem)
  omega

/-- A class without brackets in it opens and closes one. -/
theorem hasUnpaired_class_iff {inside back : List Char} (hopen : '[' ∉ inside)
    (hclose : ']' ∉ inside) :
    HasUnpaired ('[' :: (inside ++ ']' :: back)) ↔ HasUnpaired back := by
  have hinside : bracketDepth 1 (inside ++ ']' :: back) = bracketDepth 1 (']' :: back) := by
    rw [bracketDepth_append, bracketDepth_of_notMem hopen hclose]
  have hclass : bracketDepth 0 ('[' :: (inside ++ ']' :: back)) = bracketDepth 0 back := hinside
  rw [hasUnpaired_iff, hasUnpaired_iff, hclass]

end Filespec

namespace Glob

theorem classBody?_of_notMem {text : List Char} (h : ']' ∉ text) : classBody? text = none := by
  rw [classBody?, Option.map_eq_none_iff]
  refine position?_eq_none (Bool.eq_false_iff.mpr fun hoccurs => h ?_)
  exact List.mem_of_mem_drop (occursIn_singleton.mp hoccurs)

/-- A class is closed by the first closing bracket, unless that stands right at its start. -/
theorem classBody?_append {inside : List Char} (hclose : ']' ∉ inside) (hempty : inside ≠ [])
    (hbang : inside ≠ ['!']) (back : List Char) :
    classBody? (inside ++ ']' :: back) = some (inside, back) := by
  obtain ⟨first, others, rfl⟩ := List.exists_cons_of_ne_nil hempty
  have hfirst : first ≠ ']' := (List.ne_of_not_mem_cons hclose).symm
  have hothers : ']' ∉ others := List.not_mem_of_not_mem_cons hclose
  by_cases hmark : first = '!'
  · subst hmark
    obtain ⟨second, more, rfl⟩ := List.exists_cons_of_ne_nil fun hnil => hbang (hnil ▸ rfl)
    have hsecond : second ≠ ']' := (List.ne_of_not_mem_cons hothers).symm
    have hposition := position?_singleton_append hothers back
    simp only [List.cons_append] at hposition
    simp [classBody?, hsecond, hposition, Nat.add_comm 1]
  · have hposition := position?_singleton_append hclose back
    simp only [List.cons_append] at hposition
    simp [classBody?, hfirst, hmark, hposition]

/-- Where brackets alternate, one without a partner belongs to a class that is never closed. -/
theorem exactly_bracket_mem_parse_iff {text : List Char} (h : Filespec.BracketsAlternate text) :
    .exactly '[' ∈ parse text ↔ Filespec.HasUnpaired text := by
  have hskip : ∀ (c : Char) (rest : List Char), c ≠ '[' →
      (Filespec.HasUnpaired (c :: rest) ↔ Filespec.HasUnpaired rest) := by
    intro c rest hc
    rw [Filespec.hasUnpaired_cons_iff]
    simp [hc]
  fun_induction parse text with
  | case1 => simp [Filespec.HasUnpaired]
  | case2 rest ih =>
      have hrest : .exactly '[' ∈ parse rest ↔ Filespec.HasUnpaired rest :=
        ih (.of_append ['*'] h)
      rw [hskip _ _ (by decide), ← hrest]
      simp
  | case3 rest _ ih =>
      have hrest : .exactly '[' ∈ parse rest ↔ Filespec.HasUnpaired rest :=
        ih (.of_append ['?'] h)
      rw [hskip _ _ (by decide), ← hrest]
      simp
  | case4 rest body beyond hbody _ _ _ ih =>
      have hmem : ']' ∈ rest := by
        by_contra hnone
        rw [classBody?_of_notMem hnone] at hbody
        cases hbody
      obtain ⟨inside, back, rfl, hclose⟩ := List.eq_append_cons_of_mem hmem
      obtain ⟨hopen, hempty, hbang⟩ := h [] inside back rfl hclose
      rw [classBody?_append hclose hempty hbang] at hbody
      cases hbody
      have hbeyond : Filespec.BracketsAlternate beyond := by
        refine .of_append ('[' :: (body ++ [']'])) ?_
        simpa using h
      have hrest : .exactly '[' ∈ parse beyond ↔ Filespec.HasUnpaired beyond := ih hbeyond
      rw [Filespec.hasUnpaired_class_iff hopen hclose, ← hrest]
      simp
  | case5 rest hbody _ _ ih =>
      have hnone : ']' ∉ rest := by
        intro hmem
        obtain ⟨inside, back, rfl, hclose⟩ := List.eq_append_cons_of_mem hmem
        obtain ⟨_, hempty, hbang⟩ := h [] inside back rfl hclose
        rw [classBody?_append hclose hempty hbang] at hbody
        cases hbody
      rw [Filespec.hasUnpaired_cons_iff]
      simp [Filespec.isUnpaired_of_notMem hnone]
  | case6 c rest _ _ hc ih =>
      have hrest : .exactly '[' ∈ parse rest ↔ Filespec.HasUnpaired rest :=
        ih (.of_append [c] h)
      rw [hskip _ _ hc, ← hrest]
      simp [Ne.symm hc]

end Glob

namespace Filespec

/-- **A specification is refused exactly for a bracket without a partner**, brackets being paired as
if they could be nested. Where they alternate and enclose something, that is a class of its glob
that is never closed, whose opening bracket the glob takes for itself. -/
theorem parse?_eq_none_iff_unpaired (pattern : String) :
    (parse? pattern = none ↔ HasUnpaired pattern.toList) ∧
    (BracketsAlternate pattern.toList →
      (parse? pattern = none ↔ .exactly '[' ∈ Glob.parse pattern.toList)) := by
  refine ⟨parse?_eq_none_iff, fun h => ?_⟩
  rw [parse?_eq_none_iff, Glob.exactly_bracket_mem_parse_iff h]

/-- A class that is closed and one that is not. -/
theorem parse?_eq_none_iff_unpaired_of_class :
    BracketsAlternate "[!a]*[b".toList ∧ parse? "[!a]*[b" = none ∧
      .exactly '[' ∈ Glob.parse "[!a]*[b".toList := by
  have halternate : BracketsAlternate "[!a]*[b".toList := by
    intro front inside back h hclose
    have hparts : front = [] ∧ inside = ['!', 'a'] ∧ back = ['*', '[', 'b'] := by
      simpa [List.cons_eq_append_iff, List.append_eq_cons_iff] using h
    rw [hparts.2.1]
    decide
  have hrefused : parse? "[!a]*[b" = none := by decide
  exact ⟨halternate, hrefused, ((parse?_eq_none_iff_unpaired _).2 halternate).mp hrefused⟩

/-- An opening bracket in a class has no partner, although the class is closed, and a closing one
is a partner, although it belongs to the class. -/
theorem parse?_of_bracket_in_class :
    ¬ (parse? "[[]" = none ↔ .exactly '[' ∈ Glob.parse "[[]".toList) ∧
    ¬ (parse? "[]" = none ↔ .exactly '[' ∈ Glob.parse "[]".toList) := by
  decide +kernel

end Filespec

end LineCensus
