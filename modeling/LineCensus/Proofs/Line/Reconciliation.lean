/-
# What reconciling does to statistics

Reconciling is defined for any integers, also for counters that no file can have. It
moves lines between the blank ones and the overlap in one of three ways, and after each
of them the counters describe the right number of lines. So the only fault that is left
to be found is a negative counter, and statistics that were reconciled once are not
changed a second time.

The overlap is bounded by what it overlaps: a line that is counted twice is a comment,
and code or blank besides. Nothing checks this after reconciling. Once the number of
lines is right, the bounds say no more than that neither the comments nor the other lines
are more than there are lines, and this shows when they survive.
-/

import LineCensus.Proofs.Line.Conservation

namespace LineCensus.LineStats

/-- The bounds of the overlap: lines that are counted twice are comments, and code or blank
besides. -/
def OverlapFits (stats : LineStats) : Prop :=
  stats.overlap ≤ min (stats.code + stats.blank) stats.comment

instance : DecidablePred OverlapFits := fun stats =>
  inferInstanceAs (Decidable (stats.overlap ≤ min (stats.code + stats.blank) stats.comment))

theorem isNonnegative_iff {stats : LineStats} :
    stats.isNonnegative = true ↔
      0 ≤ stats.code ∧ 0 ≤ stats.comment ∧ 0 ≤ stats.blank ∧ 0 ≤ stats.overlap := by
  simp only [isNonnegative, Bool.and_eq_true, decide_eq_true_eq, and_assoc]

/-! ## The three ways to adjust -/

/-- Lines that are missing are blank, lines too many are taken out of the blank ones, and those
that are too many even so become overlap. -/
theorem adjust_cases (stats : LineStats) (total : Int) :
    (stats.lines ≤ total ∧
      stats.adjust total = { stats with blank := stats.blank + (total - stats.lines) }) ∨
    (0 < stats.lines - total ∧ stats.lines - total ≤ stats.blank ∧
      stats.adjust total = { stats with blank := stats.blank - (stats.lines - total) }) ∨
    (0 < stats.lines - total ∧ stats.blank < stats.lines - total ∧
      stats.adjust total =
        { stats with
          blank := 0, overlap := stats.overlap + (stats.lines - total - stats.blank) }) := by
  rcases Int.lt_or_le total stats.lines with hexcess | hdeficit
  · have hpositive : 0 < stats.lines - total := Int.sub_pos_of_lt hexcess
    refine .inr ?_
    rcases Int.lt_or_le stats.blank (stats.lines - total) with hbeyond | hcovered
    · refine .inr ⟨hpositive, hbeyond, ?_⟩
      simp only [adjust, if_pos hexcess, Int.min_eq_left (Int.le_of_lt hbeyond), Int.sub_self]
    · refine .inl ⟨hpositive, hcovered, ?_⟩
      simp only [adjust, if_pos hexcess, Int.min_eq_right hcovered, Int.sub_self, Int.add_zero]
  · exact .inl ⟨hdeficit, if_neg (Int.not_lt.mpr hdeficit)⟩

@[simp]
theorem adjust_code (stats : LineStats) (total : Int) : (stats.adjust total).code = stats.code := by
  rcases adjust_cases stats total with ⟨_, h⟩ | ⟨_, _, h⟩ | ⟨_, _, h⟩ <;> rw [h]

@[simp]
theorem adjust_comment (stats : LineStats) (total : Int) :
    (stats.adjust total).comment = stats.comment := by
  rcases adjust_cases stats total with ⟨_, h⟩ | ⟨_, _, h⟩ | ⟨_, _, h⟩ <;> rw [h]

/-- Whatever the counters are, adjusting them makes the number of lines right. -/
@[simp]
theorem lines_adjust (stats : LineStats) (total : Int) : (stats.adjust total).lines = total := by
  rcases adjust_cases stats total with ⟨_, h⟩ | ⟨_, _, h⟩ | ⟨_, _, h⟩ <;> rw [h] <;>
    simp only [lines] <;> omega

theorem isNonnegative_adjust {stats : LineStats} (h : stats.isNonnegative = true) (total : Int) :
    (stats.adjust total).isNonnegative = true := by
  rw [isNonnegative_iff] at h ⊢
  obtain ⟨hcode, hcomment, hblank, hoverlap⟩ := h
  rcases adjust_cases stats total with ⟨_, h⟩ | ⟨_, _, h⟩ | ⟨_, _, h⟩ <;>
    (rw [h]; dsimp only; omega)

/-! ## Reconciling -/

/-- Statistics of something, for a file that is not empty, are adjusted, and what can be wrong with
them then is a negative counter. -/
theorem reconcile_eq (stats : LineStats) (total : Int) :
    stats.reconcile total =
      if total = 0 ∨ stats.isEmpty = true then .ok stats
      else if (stats.adjust total).isNonnegative then .ok (stats.adjust total)
      else .error (.negativeCounter (stats.adjust total)) := by
  simp only [reconcile, imbalance?, lines_adjust, ne_eq, not_true_eq_false, if_false]
  cases (stats.adjust total).isNonnegative <;> rfl

/-- **Reconciling is right wherever it gives a result.** For any counters and any number of lines,
the only fault is a negative counter, and there is none if no counter was negative before. A result
for statistics of something and a file that is not empty has the code and the comment lines it was
given, the right number of lines and no negative counter. To reconcile any result again changes
nothing, even if nothing is left in it. -/
theorem reconcile_balances_once (stats : LineStats) (total : Int) :
    (∀ fault, stats.reconcile total = .error fault →
      fault = .negativeCounter (stats.adjust total)) ∧
    (stats.isNonnegative = true → ∃ result, stats.reconcile total = .ok result) ∧
    ∀ result, stats.reconcile total = .ok result →
      (total ≠ 0 → stats.isEmpty = false →
        result.code = stats.code ∧ result.comment = stats.comment ∧ result.lines = total ∧
          result.isNonnegative = true) ∧
      result.reconcile total = .ok result := by
  by_cases hidle : total = 0 ∨ stats.isEmpty = true
  · -- what is left alone once is left alone twice
    have hsame : stats.reconcile total = .ok stats := by rw [reconcile_eq, if_pos hidle]
    rw [hsame]
    refine ⟨nofun, fun _ => ⟨stats, rfl⟩, ?_⟩
    rintro result ⟨⟩
    refine ⟨fun htotal hnonempty => ?_, hsame⟩
    rcases hidle with hzero | hempty
    · exact absurd hzero htotal
    · rw [hempty] at hnonempty
      cases hnonempty
  · rw [reconcile_eq, if_neg hidle]
    cases hcounters : (stats.adjust total).isNonnegative with
    | false =>
        refine ⟨?_, fun h => ?_, nofun⟩
        · rintro fault ⟨⟩
          rfl
        · rw [isNonnegative_adjust h] at hcounters
          cases hcounters
    | true =>
        refine ⟨nofun, fun _ => ⟨_, rfl⟩, ?_⟩
        rintro result ⟨⟩
        refine ⟨fun _ _ => ⟨adjust_code .., adjust_comment .., lines_adjust .., hcounters⟩, ?_⟩
        -- it may be empty now, but then it is left alone for that reason
        rw [reconcile_eq, adjust_of_lines_eq (lines_adjust stats total), if_pos hcounters, ite_self]

/-- Blank lines only, for a number of lines below zero: all of them become overlap. -/
theorem reconcile_balances_once_nothing_left :
    let stats : LineStats := ⟨0, 0, 3, 0⟩
    let result : LineStats := ⟨0, 0, 0, 2⟩
    stats.isNonnegative = true ∧ stats.isEmpty = false ∧ stats.reconcile (-2) = .ok result ∧
      result.isEmpty = true ∧ result.lines = -2 ∧ result.reconcile (-2) = .ok result := by
  intro stats result
  have hresult : stats.reconcile (-2) = .ok result := rfl
  obtain ⟨hbalanced, hagain⟩ := (reconcile_balances_once stats (-2)).2.2 result hresult
  have hnonnegative := (hbalanced (by decide) (by decide)).2.2.1
  exact ⟨by decide, by decide, hresult, by decide, hnonnegative, hagain⟩

/-! ## The bounds of the overlap -/

/-- Where the number of lines is right, the overlap is within its bounds exactly if the comments
are no more than the lines, and neither are all the others. -/
theorem overlapFits_iff_of_lines {stats : LineStats} {total : Int} (h : stats.lines = total) :
    stats.OverlapFits ↔ stats.code + stats.blank ≤ total ∧ stats.comment ≤ total := by
  rw [lines] at h
  rw [OverlapFits, Int.le_min]
  constructor <;> rintro ⟨_, _⟩ <;> constructor <;> omega

/-- Adjusting keeps the overlap within its bounds exactly if the file is long enough for its code
and for its comments. -/
theorem overlapFits_adjust_iff {stats : LineStats} {total : Int}
    (hnonneg : stats.isNonnegative = true) (hfits : stats.OverlapFits) :
    (stats.adjust total).OverlapFits ↔ stats.code ≤ total ∧ stats.comment ≤ total := by
  obtain ⟨_, _, hblank, _⟩ := isNonnegative_iff.mp hnonneg
  obtain ⟨hothers, hcomments⟩ := (overlapFits_iff_of_lines rfl).mp hfits
  rw [overlapFits_iff_of_lines (lines_adjust stats total), adjust_code, adjust_comment]
  refine and_congr_left fun _ => ?_
  rcases adjust_cases stats total with ⟨hdeficit, h⟩ | ⟨hexcess, hcovered, h⟩ | ⟨_, _, h⟩
  · -- both sides hold, since no more lines are counted twice than are comments
    have hlines : (stats.adjust total).lines = total := lines_adjust stats total
    rw [h] at hlines ⊢
    simp only [lines] at *
    omega
  · rw [h]
    simp only [lines] at *
    omega
  · -- no blank line is left
    rw [h]
    simp only [Int.add_zero]

/-- **When the bounds of the overlap survive.** Statistics of something with no negative counter and
an overlap within its bounds are reconciled with the length of any file that is not empty. The
overlap of the result is within its bounds exactly if neither the code lines nor the comment lines
are more than the file has lines. -/
theorem overlapFits_reconcile_iff {stats : LineStats} {total : Int}
    (hnonneg : stats.isNonnegative = true) (hnonempty : stats.isEmpty = false)
    (hfits : stats.OverlapFits) (htotal : 0 < total) :
    ∃ result, stats.reconcile total = .ok result ∧
      (result.OverlapFits ↔ stats.code ≤ total ∧ stats.comment ≤ total) := by
  have hworks : ¬ (total = 0 ∨ stats.isEmpty = true) := by
    rintro (rfl | hempty)
    · exact Int.lt_irrefl 0 htotal
    · rw [hnonempty] at hempty
      cases hempty
  refine ⟨stats.adjust total, ?_, overlapFits_adjust_iff hnonneg hfits⟩
  rw [reconcile_eq, if_neg hworks, if_pos (isNonnegative_adjust hnonneg total)]

/-- More code than lines: the overlap comes out larger than the comments. -/
theorem overlapFits_reconcile_iff_too_much_code :
    let stats : LineStats := ⟨5, 2, 1, 0⟩
    stats.isNonnegative = true ∧ stats.isEmpty = false ∧ stats.OverlapFits ∧ ¬ stats.code ≤ 4 ∧
      ∃ result, stats.reconcile 4 = .ok result ∧ ¬ result.OverlapFits := by
  intro stats
  obtain ⟨result, hresult, hiff⟩ :=
    @overlapFits_reconcile_iff stats 4 (by decide) (by decide) (by decide) (by decide)
  have hcode : ¬ stats.code ≤ 4 := by decide
  exact ⟨by decide, by decide, by decide, hcode, result, hresult, fun h => hcode (hiff.mp h).1⟩

end LineCensus.LineStats
