/-
# Conservation of lines

A line that some scanner has classified adds exactly one to the number of lines that
its statistics describe: the overlap takes off what a line of code and comment counts
twice. This module carries that over to the statistics of any sequence of lines, and
shows that such statistics are left alone when they are reconciled with the length of
the file they came from.

Bounds on the overlap hold for all kinds, classified or not; only the number of lines
depends on there being no line without a mark.
-/

import LineCensus.Line.Reconcile

namespace LineCensus

namespace LineKind

/-- A kind of line that holds something: code, comment, or both. -/
def IsText (kind : LineKind) : Prop :=
  kind = codeLine ∨ kind = commentLine ∨ kind = mixedLine

/-- A kind that a line is classified by, in contrast to no kind at all. -/
def IsClassified (kind : LineKind) : Prop :=
  kind = blankLine ∨ kind.IsText

theorem isText_iff (kind : LineKind) :
    kind.IsText ↔ kind.blank = false ∧ (kind.code || kind.comment) = true := by
  obtain ⟨blank, code, comment⟩ := kind
  cases blank <;> cases code <;> cases comment <;>
    simp [IsText, codeLine, commentLine, mixedLine]

theorem isText_codeLine : codeLine.IsText := .inl rfl

theorem isText_commentLine : commentLine.IsText := .inr (.inl rfl)

theorem isText_mixedLine : mixedLine.IsText := .inr (.inr rfl)

/-- A comment line is classified, whatever is beside the comment. -/
theorem isText_commentAnd (code : Bool) : (commentAnd code).IsText := by
  cases code
  · exact isText_commentLine
  · exact isText_mixedLine

/-- Blank lines and lines that hold something are told apart. -/
theorem IsText.ne_blankLine {kind : LineKind} (h : kind.IsText) : kind ≠ blankLine := by
  rcases h with rfl | rfl | rfl <;> decide

end LineKind

namespace LineStats

theorem foldl_addKind (stats : LineStats) (kinds : List LineKind) :
    kinds.foldl addKind stats = stats.merge (ofKinds kinds) := by
  induction kinds generalizing stats with
  | nil => simp [ofKinds]
  | cons kind kinds ih =>
      rw [ofKinds, List.foldl_cons, List.foldl_cons, ih, ih (zero.addKind kind), addKind, addKind,
        zero_merge, merge_assoc]

/-- Statistics of lines are the sum of those of each line. -/
theorem ofKinds_cons (kind : LineKind) (kinds : List LineKind) :
    ofKinds (kind :: kinds) = (ofKind kind).merge (ofKinds kinds) := by
  rw [ofKinds, List.foldl_cons, foldl_addKind, addKind, zero_merge]

/-- Statistics of two sequences of lines add up to those of both. -/
theorem ofKinds_append (first second : List LineKind) :
    ofKinds (first ++ second) = (ofKinds first).merge (ofKinds second) := by
  rw [ofKinds, List.foldl_append, foldl_addKind]
  rfl

/-- Statistics that lines can have: no counter is negative, and no line is code and comment
without being code and being comment. -/
structure IsCount (stats : LineStats) : Prop where
  blank_nonneg : 0 ≤ stats.blank
  overlap_nonneg : 0 ≤ stats.overlap
  overlap_le_code : stats.overlap ≤ stats.code
  overlap_le_comment : stats.overlap ≤ stats.comment

theorem IsCount.zero : IsCount zero := ⟨by decide, by decide, by decide, by decide⟩

theorem IsCount.ofKind (kind : LineKind) : IsCount (ofKind kind) := by
  obtain ⟨blank, code, comment⟩ := kind
  cases blank <;> cases code <;> cases comment <;> constructor <;> decide

theorem IsCount.merge {a b : LineStats} (ha : a.IsCount) (hb : b.IsCount) :
    (a.merge b).IsCount where
  blank_nonneg := Int.add_nonneg ha.blank_nonneg hb.blank_nonneg
  overlap_nonneg := Int.add_nonneg ha.overlap_nonneg hb.overlap_nonneg
  overlap_le_code := Int.add_le_add ha.overlap_le_code hb.overlap_le_code
  overlap_le_comment := Int.add_le_add ha.overlap_le_comment hb.overlap_le_comment

/-- Statistics that were counted off lines are such as lines can have. -/
theorem IsCount.ofKinds (kinds : List LineKind) : IsCount (ofKinds kinds) := by
  induction kinds with
  | nil => exact IsCount.zero
  | cons kind kinds ih =>
      rw [ofKinds_cons]
      exact (IsCount.ofKind kind).merge ih

theorem IsCount.isNonnegative {stats : LineStats} (h : stats.IsCount) :
    stats.isNonnegative = true := by
  have hblank := h.blank_nonneg
  have hoverlap := h.overlap_nonneg
  have hcode := h.overlap_le_code
  have hcomment := h.overlap_le_comment
  simp only [LineStats.isNonnegative, Bool.and_eq_true, decide_eq_true_eq]
  omega

/-- Only the statistics of no lines at all are empty. -/
theorem IsCount.eq_zero_of_isEmpty {stats : LineStats} (h : stats.IsCount)
    (hempty : stats.isEmpty = true) : stats = LineStats.zero := by
  obtain ⟨code, comment, blank, overlap⟩ := stats
  have hoverlap := h.overlap_nonneg
  have hcode := h.overlap_le_code
  simp only [isEmpty, Bool.and_eq_true, beq_iff_eq] at hempty hoverlap hcode
  obtain ⟨⟨rfl, rfl⟩, rfl⟩ := hempty
  have hzero : overlap = 0 := by omega
  rw [hzero]
  rfl

/-- One classified line is one line. -/
theorem lines_ofKind {kind : LineKind} (h : kind.IsClassified) : (ofKind kind).lines = 1 := by
  rcases h with rfl | rfl | rfl | rfl <;> rfl

/-- Classified lines are as many as they are counted to be. -/
theorem lines_ofKinds {kinds : List LineKind} (h : ∀ kind ∈ kinds, kind.IsClassified) :
    (ofKinds kinds).lines = kinds.length := by
  induction kinds with
  | nil => rfl
  | cons kind kinds ih =>
      have hfirst := lines_ofKind (h kind List.mem_cons_self)
      have hothers := ih fun other hmem => h other (List.mem_cons_of_mem kind hmem)
      rw [ofKinds_cons, lines_merge, hfirst, hothers, List.length_cons]
      omega

theorem adjust_of_lines_eq {stats : LineStats} {total : Int} (h : stats.lines = total) :
    stats.adjust total = stats := by
  simp [adjust, h]

/-- Statistics that describe the right number of lines need no reconciling. -/
theorem reconcile_of_lines_eq {stats : LineStats} {total : Int} (hcount : stats.IsCount)
    (hlines : stats.lines = total) : stats.reconcile total = .ok stats := by
  have hbalanced : stats.imbalance? total = none := by
    simp [imbalance?, hcount.isNonnegative, hlines]
  simp only [reconcile, adjust_of_lines_eq hlines, hbalanced]
  split <;> rfl

end LineStats

end LineCensus
