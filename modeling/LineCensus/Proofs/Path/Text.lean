/-
# A path and its text

The text of a path says which path it is: read back, it gives the same root and the same
names. So whoever compares paths by their texts tells apart all paths that differ.
-/

import LineCensus.Proofs.Text.Search
import LineCensus.Path

namespace LineCensus

namespace Name

theorem ne_nil (name : Name) : name.text.toList ≠ [] := by
  rw [Ne, String.toList_eq_nil_iff]
  exact name.isComponent.1

theorem slash_not_mem (name : Name) : '/' ∉ name.text.toList := name.isComponent.2.2

end Name

namespace Path

/-- The text of the names of a path, without its root. -/
def namesText (names : List Name) : List Char :=
  ['/'].intercalate (names.map fun name => name.text.toList)

theorem toList_toString {path : Path} (h : ¬ (path.root = .relative ∧ path.names = [])) :
    path.toString.toList = path.root.text.toList ++ namesText path.names := by
  rw [toString, if_neg h, String.toList_append, String.toList_intercalate, List.map_map]
  rfl

/-- Only a root begins with a separator. -/
theorem takeWhile_namesText (names : List Name) :
    (namesText names).takeWhile (· == '/') = [] := by
  cases names with
  | nil => rfl
  | cons name rest =>
      obtain ⟨c, others, hname⟩ := List.exists_cons_of_ne_nil name.ne_nil
      have hc : (c == '/') = false := by
        rw [beq_eq_false_iff_ne]
        rintro rfl
        exact name.slash_not_mem (hname ▸ List.mem_cons_self)
      rw [namesText, List.map_cons, hname]
      cases rest <;> simp [hc]

/-- The pieces of a text of names spell the names. -/
theorem filterMap_splitOn_namesText (names : List Name) :
    (Text.splitOn '/' (namesText names)).filterMap
      (fun piece => Name.ofString? (String.ofList piece)) = names := by
  cases names with
  | nil => rfl
  | cons name rest =>
      rw [namesText, Text.splitOn_eq_splitOn, List.splitOn_intercalate '/' _ (by simp)]
      · rw [List.filterMap_map]
        simp
      · intro piece hmem
        obtain ⟨name, _, rfl⟩ := List.mem_map.mp hmem
        exact name.slash_not_mem

/-- A path reads back from its text. -/
theorem ofString_toString (path : Path) : ofString path.toString = path := by
  obtain ⟨root, names⟩ := path
  have hnames := filterMap_splitOn_namesText names
  have hstart := takeWhile_namesText names
  -- a separator in front makes for an empty piece, which spells no name
  have hempty : Name.ofString? (String.ofList []) = none := rfl
  cases root with
  | relative =>
      by_cases hhere : names = []
      · subst hhere
        rfl
      · rw [ofString, toList_toString fun h => hhere h.2]
        simp only [PathRoot.text, String.toList_empty, List.nil_append, rootOf, hstart, hnames]
        rfl
  | slash | doubleSlash =>
      rw [ofString, toList_toString fun h => PathRoot.noConfusion h.1]
      have hslash : PathRoot.slash.text.toList = ['/'] := rfl
      have hdouble : PathRoot.doubleSlash.text.toList = ['/', '/'] := rfl
      simp only [hslash, hdouble, List.cons_append, List.nil_append, rootOf, List.takeWhile_cons,
        beq_self_eq_true, ↓reduceIte, hstart, Text.splitOn, List.filterMap_cons, hempty, hnames]
      rfl

theorem toString_injective : Function.Injective toString :=
  Function.LeftInverse.injective ofString_toString

end Path

end LineCensus
