/-
# Extensions in any case

The extension of a name is what follows its last dot. A dot is the lower-case form of
nothing but itself, so it is the last one in the lower-case form of a name as well, and it
makes no difference whether a name is lowered before its extension is taken or after.
-/

import LineCensus.Path
import LineCensus.Proofs.Text.LowerCase

namespace LineCensus

open Text

theorem Text.dot_mem_lower_iff {text : List Char} : '.' ∈ lower text ↔ '.' ∈ text := by
  have hdot : ∀ c : Char, c.toLower = '.' ↔ c = '.' := fun _ => toLower_eq_iff (by decide)
  rw [mem_lower_iff (by decide)]
  simp only [hdot, exists_eq_right]

namespace Name

/-- A text with a dot in it is split at the last one. -/
theorem exists_eq_append_dot {text : List Char} (h : '.' ∈ text) :
    ∃ front rest, text = front ++ '.' :: rest ∧ '.' ∉ rest := by
  obtain ⟨after, before, hreverse, hafter⟩ :=
    List.eq_append_cons_of_mem (List.mem_reverse.mpr h)
  refine ⟨before.reverse, after.reverse, ?_, mt List.mem_reverse.mp hafter⟩
  rw [← List.reverse_reverse text, hreverse]
  simp

theorem bne_dot_of_mem_reverse {text : List Char} (h : '.' ∉ text) :
    ∀ c ∈ text.reverse, (c != '.') = true := by
  intro c hmem
  rw [bne_iff_ne]
  rintro rfl
  exact h (List.mem_reverse.mp hmem)

theorem extension?_of_dot_not_mem {text : List Char} (h : '.' ∉ text) : extension? text = none := by
  have hextension : text.reverse.takeWhile (· != '.') = text.reverse :=
    List.takeWhile_eq_self_iff.mpr (bne_dot_of_mem_reverse h)
  rw [extension?, splitExtension?, hextension]
  simp

/-- A name is split at its last dot, unless there is nothing on one of the sides. -/
theorem extension?_append_dot (front : List Char) {rest : List Char} (h : '.' ∉ rest) :
    extension? (front ++ '.' :: rest) =
      if front.isEmpty || rest.isEmpty then none else some rest := by
  have hextension : ((front ++ '.' :: rest).reverse.takeWhile (· != '.')).reverse = rest := by
    rw [List.reverse_append, List.reverse_cons, List.append_assoc,
      List.takeWhile_append_of_pos (bne_dot_of_mem_reverse h)]
    simp
  have hstem : (front ++ '.' :: rest).take ((front ++ '.' :: rest).length - rest.length - 1) =
      front := by
    rw [List.take_append_of_le_length (by simp; omega), List.take_of_length_le (by simp; omega)]
  rw [extension?, splitExtension?, hextension, hstem]
  split <;> rfl

theorem isSuffix_of_extension? {text extension : List Char}
    (h : extension? text = some extension) : extension <:+ text := by
  have hsuffix : (text.reverse.takeWhile (· != '.')).reverse <:+ text := by
    rw [← List.reverse_prefix, List.reverse_reverse]
    exact List.takeWhile_prefix _
  simp only [extension?, splitExtension?] at h
  split at h
  · cases h
  · cases h
    exact hsuffix

/-- The extension of a name in lower case is the extension of the name, in lower case. -/
theorem extension?_lower (text : List Char) :
    extension? (lower text) = (extension? text).map lower := by
  by_cases hdot : '.' ∈ text
  · obtain ⟨front, rest, rfl, hrest⟩ := exists_eq_append_dot hdot
    have hlower : lower (front ++ '.' :: rest) = lower front ++ '.' :: lower rest := by
      rw [lower_append, lower_cons]
      rfl
    have hempty : ∀ part : List Char, (lower part).isEmpty = part.isEmpty := by
      intro part
      rw [Bool.eq_iff_iff, List.isEmpty_iff, List.isEmpty_iff, lower_eq_nil_iff]
    rw [hlower, extension?_append_dot _ (mt dot_mem_lower_iff.mp hrest),
      extension?_append_dot _ hrest, hempty, hempty]
    split <;> rfl
  · rw [extension?_of_dot_not_mem hdot, extension?_of_dot_not_mem (mt dot_mem_lower_iff.mp hdot)]
    rfl

end Name

/-- A path ends in an extension, in any case, if its name has that extension in lower case. -/
theorem Path.lowerName_suffix_eq_iff (path : Path) (extension : List Char) :
    lowerName path.suffix = String.ofList ('.' :: extension) ↔
      Name.extension? (lower path.name.toList) = some extension := by
  rw [Name.extension?_lower, suffix, lowerName]
  cases Name.extension? path.name.toList with
  | none => simp
  | some found =>
      simp only [String.toList_ofList, lower_cons, Option.map_some, Option.some.injEq,
        String.ofList_inj]
      exact List.cons_inj_right '.'

end LineCensus
