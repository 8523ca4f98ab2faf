/-
# Texts in any case

Lowering replaces each character by itself or by its lower-case form, so a place in the
lower-case form of a text is a place in the text. It is not the same number of characters
from the start, though: the capital I with a dot above is lowered to two characters, and
it is the only one.

Most characters of ASCII are the lower-case form of nothing but themselves and their
capital. There are two exceptions, `i` from that capital I and `k` from the sign for
kelvin. A word without these two is spelled by the lower-case form of a text only if
it is spelled by ASCII letters.
-/

import LineCensus.Proofs.Text.Search
import LineCensus.Text.LowerCase

namespace LineCensus.Text

/-- Whether a text begins with a word of ASCII characters, in capitals or not. -/
def StartsInAnyCase (word text : List Char) : Prop :=
  (text.take word.length).map Char.toLower = word

instance (word text : List Char) : Decidable (StartsInAnyCase word text) :=
  inferInstanceAs (Decidable (_ = _))

/-- A character of ASCII that is the lower-case form of characters of ASCII only. -/
def IsLoweredPlainly (c : Char) : Prop :=
  c.toNat < 0x80 ∧ c ≠ 'i' ∧ c ≠ 'k'

instance : DecidablePred IsLoweredPlainly := fun c =>
  inferInstanceAs (Decidable (c.toNat < 0x80 ∧ c ≠ 'i' ∧ c ≠ 'k'))

/-! ## One character -/

/-- All the forms that capitals beyond ASCII are lowered to are beyond ASCII, but for the single one
of the sign for kelvin. -/
theorem lowered_of_mem_capitalRuns : ∀ run ∈ capitalRuns,
    (0x80 ≤ run.lowered ∨ run.lowered = 'k'.toNat ∧ run.last = run.first) ∧
      (run.lowered + (run.last - run.first) < 0xd800 ∨
        0xe000 ≤ run.lowered ∧ run.lowered + (run.last - run.first) < 0x110000) := by
  decide +kernel

/-- The lower-case form of a character in a run. -/
theorem toNat_ofNat_lowered {run : CapitalRun} (hmem : run ∈ capitalRuns) {n : Nat}
    (hcovers : run.covers n = true) :
    (Char.ofNat (run.lowered + (n - run.first))).toNat = run.lowered + (n - run.first) := by
  obtain ⟨_, hvalid⟩ := lowered_of_mem_capitalRuns run hmem
  simp only [CapitalRun.covers, Bool.and_eq_true, decide_eq_true_eq] at hcovers
  have hchar : (run.lowered + (n - run.first)).isValidChar := by
    simp only [Nat.isValidChar]
    omega
  rw [Char.ofNat, dif_pos hchar]
  rfl

/-- A character beyond ASCII is lowered to one character beyond ASCII, to `k`, or to two characters
of which neither is anything but an `i` in ASCII. -/
theorem lowerChar_of_not_ascii {c : Char} (hc : 0x80 ≤ c.toNat) (hdotted : c ≠ 'İ') :
    ∃ d, lowerChar c = [d] ∧ ¬ IsLoweredPlainly d := by
  have hnat : c.toNat ≠ 0x130 := fun h => hdotted (Char.toNat_inj.mp h)
  rw [lowerChar, if_neg (Nat.not_lt.mpr hc), if_neg hnat]
  cases hfound : capitalRuns.find? (·.covers c.toNat) with
  | none => exact ⟨c, rfl, fun h => Nat.not_lt.mpr hc h.1⟩
  | some run =>
      refine ⟨_, rfl, fun ⟨hascii, _, hkelvin⟩ => ?_⟩
      have hmem := List.mem_of_find?_eq_some hfound
      have hcovers := List.find?_some hfound
      have hlowered := toNat_ofNat_lowered hmem hcovers
      rcases (lowered_of_mem_capitalRuns run hmem).1 with hbeyond | ⟨hk, hone⟩
      · omega
      · refine hkelvin (Char.toNat_inj.mp (hlowered.trans ?_))
        simp only [CapitalRun.covers, Bool.and_eq_true, decide_eq_true_eq] at hcovers
        omega

theorem lowerChar_of_ascii {c : Char} (hc : c.toNat < 0x80) : lowerChar c = [c.toLower] :=
  if_pos hc

@[simp]
theorem lowerChar_dotted : lowerChar 'İ' = ['i', '\u0307'] := rfl

/-- One capital alone is longer in lower case. -/
theorem length_lowerChar (c : Char) : (lowerChar c).length = 1 + if c = 'İ' then 1 else 0 := by
  by_cases hdotted : c = 'İ'
  · rw [hdotted]
    rfl
  · rw [if_neg hdotted]
    rcases Nat.lt_or_ge c.toNat 0x80 with hascii | hbeyond
    · rw [lowerChar_of_ascii hascii]
      rfl
    · obtain ⟨d, hlower, _⟩ := lowerChar_of_not_ascii hbeyond hdotted
      rw [hlower]
      rfl

theorem toLower_of_not_ascii {c : Char} (hc : 0x80 ≤ c.toNat) : c.toLower = c := by
  refine dif_neg ?_
  rintro ⟨_, hle⟩
  have : c.toNat ≤ 0x5a := hle
  omega

/-- What precedes the letters in ASCII is the lower-case form of itself only. -/
theorem toLower_eq_iff {mark : Char} (hmark : mark.toNat < 'A'.toNat) {c : Char} :
    c.toLower = mark ↔ c = mark := by
  by_cases hcapital : c.val ≥ 'A'.val ∧ c.val ≤ 'Z'.val
  · have hlow : 'A'.toNat ≤ c.toNat := hcapital.1
    refine iff_of_false (fun h => ?_) fun h => Nat.not_lt.mpr hlow (h ▸ hmark)
    have hhigh : c.toNat ≤ 'Z'.toNat := hcapital.2
    have hform : c.toLower.toNat = (c.toNat + 0x20) % 2 ^ 32 :=
      (congrArg Char.toNat (dif_pos hcapital)).trans (UInt32.toNat_add ..)
    simp only [Char.reduceToNat] at *
    rw [← h] at hmark
    omega
  · rw [show c.toLower = c from dif_neg hcapital]

section

variable {mark : Char} (hmark : IsLoweredPlainly mark)

include hmark

/-- What is lowered plainly comes from the characters that the core library lowers to it. -/
theorem mem_lowerChar_iff {c : Char} : mark ∈ lowerChar c ↔ c.toLower = mark := by
  rcases Nat.lt_or_ge c.toNat 0x80 with hascii | hbeyond
  · rw [lowerChar_of_ascii hascii, List.mem_singleton, eq_comm]
  · rw [toLower_of_not_ascii hbeyond]
    refine iff_of_false (fun hmem => ?_) fun h => ?_
    · by_cases hdotted : c = 'İ'
      · subst hdotted
        obtain rfl | rfl : mark = 'i' ∨ mark = '\u0307' := by simpa using hmem
        · exact hmark.2.1 rfl
        · exact absurd hmark (by decide)
      · obtain ⟨d, hlower, hd⟩ := lowerChar_of_not_ascii hbeyond hdotted
        rw [hlower, List.mem_singleton] at hmem
        exact hd (hmem ▸ hmark)
    · subst h
      exact absurd hmark.1 (Nat.not_lt.mpr hbeyond)

theorem lowerChar_of_toLower_eq {c : Char} (h : c.toLower = mark) : lowerChar c = [mark] := by
  rcases Nat.lt_or_ge c.toNat 0x80 with hascii | hbeyond
  · rw [lowerChar_of_ascii hascii, h]
  · rw [toLower_of_not_ascii hbeyond] at h
    subst h
    exact absurd hmark.1 (Nat.not_lt.mpr hbeyond)

end

/-! ## Texts -/

@[simp]
theorem lower_nil : lower [] = [] := rfl

theorem lower_cons (c : Char) (text : List Char) : lower (c :: text) = lowerChar c ++ lower text :=
  rfl

theorem lower_append (first second : List Char) :
    lower (first ++ second) = lower first ++ lower second :=
  List.flatMap_append

/-- Each capital I with a dot moves what follows it by one character. -/
theorem length_lower (text : List Char) : (lower text).length = text.length + text.count 'İ' := by
  induction text with
  | nil => rfl
  | cons c rest ih =>
      rw [lower_cons, List.length_append, length_lowerChar, ih, List.length_cons, List.count_cons]
      simp only [beq_iff_eq]
      omega

theorem lower_eq_nil_iff {text : List Char} : lower text = [] ↔ text = [] := by
  rw [← List.length_eq_zero_iff, length_lower, ← List.length_eq_zero_iff]
  refine ⟨fun h => by omega, fun h => ?_⟩
  rw [List.length_eq_zero_iff.mp h]
  rfl

theorem mem_lower_iff {mark : Char} (hmark : IsLoweredPlainly mark) {text : List Char} :
    mark ∈ lower text ↔ ∃ c ∈ text, c.toLower = mark := by
  simp only [lower, List.mem_flatMap, mem_lowerChar_iff hmark]

/-- A place in the lower-case form of a text is a place in the text. -/
theorem exists_of_lower_eq_append_cons {mark : Char} (hmark : IsLoweredPlainly mark)
    {text front rest : List Char} (h : lower text = front ++ mark :: rest) :
    ∃ before c after, text = before ++ c :: after ∧ lower before = front ∧ c.toLower = mark ∧
      lower after = rest := by
  induction text generalizing front with
  | nil => simp at h
  | cons c text ih =>
      rw [lower_cons, List.append_eq_append_iff] at h
      rcases h with ⟨more, rfl, htext⟩ | ⟨more, hc, hmore⟩
      · obtain ⟨before, d, after, rfl, rfl, hd, hafter⟩ := ih htext
        exact ⟨c :: before, d, after, rfl, rfl, hd, hafter⟩
      · cases more with
        | nil =>
            -- the place is right behind the form of this character
            obtain ⟨before, d, after, rfl, hbefore, hd, hafter⟩ := @ih [] hmore.symm
            refine ⟨c :: before, d, after, rfl, ?_, hd, hafter⟩
            rw [lower_cons, hbefore, hc, List.append_nil, List.append_nil]
        | cons first more =>
            obtain ⟨rfl, hrest⟩ := List.cons.inj hmore
            have hlower : c.toLower = mark := (mem_lowerChar_iff hmark).mp (hc ▸ by simp)
            rw [lowerChar_of_toLower_eq hmark hlower, eq_comm, List.append_eq_singleton_iff] at hc
            rcases hc with ⟨rfl, hlast⟩ | ⟨_, hnone⟩
            · obtain ⟨_, rfl⟩ := List.cons.inj hlast
              exact ⟨[], c, text, rfl, rfl, hlower, hrest.symm⟩
            · cases hnone

/-- A word that is lowered plainly begins the lower-case form of a text only where it begins the
text. -/
theorem startsWith_lower_iff {word : List Char} (hword : word.all (IsLoweredPlainly ·) = true)
    {text : List Char} : startsWith word (lower text) = true ↔ StartsInAnyCase word text := by
  rw [startsWith_iff_isPrefix, StartsInAnyCase]
  induction word generalizing text with
  | nil => simp
  | cons first word ih =>
      rw [List.all_cons, Bool.and_eq_true, decide_eq_true_iff] at hword
      obtain ⟨hfirst, hword⟩ := hword
      cases text with
      | nil => simp
      | cons c text =>
          rw [List.length_cons, List.take_succ_cons, List.map_cons, List.cons.injEq, ← ih hword,
            lower_cons]
          by_cases hc : c.toLower = first
          · rw [lowerChar_of_toLower_eq hfirst hc, List.singleton_append, List.cons_prefix_cons]
            exact and_congr_left fun _ => iff_of_true rfl hc
          · refine iff_of_false (fun hprefix => hc ?_) fun h => hc h.1
            obtain ⟨d, more, hform⟩ := List.exists_cons_of_length_pos
              (l := lowerChar c) (by rw [length_lowerChar]; omega)
            rw [hform, List.cons_append, List.cons_prefix_cons] at hprefix
            exact (mem_lowerChar_iff hfirst).mp (by rw [hform, hprefix.1]; exact List.mem_cons_self)

end LineCensus.Text
