/-
# Reading undoes writing

Lines are written by putting a line feed behind the bytes of each. Not every list of texts can
be read back from that. A line that is read never has a line feed in it, since it would have
been cut there, and never ends in a carriage return, since that belongs to its ending. This
module shows that nothing else stands in the way: a list of texts is read back from its bytes
exactly if each text could have been read from some file. Any other character may be in a
line, the other line boundaries of Unicode and inner carriage returns among them.

The last line feed may be left out unless the last line is empty. That line is then the one
that gets lost, because there is nothing left to tell that it was there.
-/

import LineCensus.Proofs.Count.LineEnds
import Mathlib.Data.List.DropRight
import Mathlib.Data.List.Induction

namespace LineCensus

namespace Text

/-- Whether a text can be a line of a file. -/
def IsFileLine (line : Line) : Prop :=
  '\n' ∉ line ∧ line.getLast? ≠ some '\r'

instance : DecidablePred IsFileLine := fun line =>
  inferInstanceAs (Decidable ('\n' ∉ line ∧ line.getLast? ≠ some '\r'))

/-- The bytes of lines, each with a line feed behind it. -/
def encodeLines (lines : List Line) : List UInt8 :=
  lines.flatMap fun line => Utf8.encode line ++ [0x0a]

/-! ## Lines that are read -/

/-- A text is cut behind its line feeds and nowhere in front of them. -/
theorem feed_not_mem_dropLast_of_mem_cutAfterFeeds {text piece : List Char}
    (h : piece ∈ cutAfterFeeds text) : '\n' ∉ piece.dropLast := by
  induction text generalizing piece with
  | nil => cases h
  | cons c rest ih =>
      rw [cutAfterFeeds] at h
      split at h
      · rcases List.mem_cons.mp h with rfl | hrest
        · exact List.not_mem_nil
        · exact ih hrest
      · next hc =>
          split at h
          · rw [List.mem_singleton.mp h]
            exact List.not_mem_nil
          · next first others hpieces =>
              rw [hpieces] at ih
              rcases List.mem_cons.mp h with rfl | hothers
              · cases first with
                | nil => exact List.not_mem_nil
                | cons next first =>
                    rw [List.dropLast_cons_cons, List.mem_cons, not_or]
                    exact ⟨Ne.symm hc, ih List.mem_cons_self⟩
              · exact ih (List.mem_cons_of_mem _ hothers)

/-- Without its line ending a text ends in neither character of one. -/
theorem isLineEnd_getLast_dropLineEnd {text front : List Char} {last : Char}
    (h : dropLineEnd text = front ++ [last]) : isLineEnd last = false := by
  have hcut : text.rdropWhile isLineEnd = front ++ [last] := h
  have hlast := List.rdropWhile_last_not isLineEnd text (by rw [hcut]; simp)
  simp only [hcut, List.getLast_append_singleton, Bool.not_eq_true] at hlast
  exact hlast

theorem isFileLine_dropLineEnd {piece : List Char} (h : '\n' ∉ piece.dropLast) :
    IsFileLine (dropLineEnd piece) := by
  have hprefix : dropLineEnd piece <+: piece := List.rdropWhile_prefix isLineEnd piece
  cases hline : dropLineEnd piece using List.reverseRecOn with
  | nil => exact ⟨List.not_mem_nil, nofun⟩
  | append_singleton front last _ =>
      have hlast := isLineEnd_getLast_dropLineEnd hline
      obtain ⟨ending, rfl⟩ := hline ▸ hprefix
      refine ⟨fun hfeed => ?_, fun hreturn => ?_⟩
      · rcases List.mem_append.mp hfeed with hfront | hsingle
        · rw [List.append_assoc, List.dropLast_append_of_ne_nil (by simp)] at h
          exact h (List.mem_append_left _ hfront)
        · rw [← List.mem_singleton.mp hsingle] at hlast
          exact absurd hlast (by decide)
      · rw [List.getLast?_concat, Option.some.injEq] at hreturn
        rw [hreturn] at hlast
        exact absurd hlast (by decide)

/-- Whatever the bytes are, only texts are read that can be written. -/
theorem isFileLine_of_mem_readLines {bytes : List UInt8} {line : Line}
    (h : line ∈ readLines bytes) : IsFileLine line := by
  rw [readLines_eq_cutAfterFeeds] at h
  obtain ⟨piece, hpiece, rfl⟩ := List.mem_map.mp h
  exact isFileLine_dropLineEnd (feed_not_mem_dropLast_of_mem_cutAfterFeeds hpiece)

/-! ## Lines that are written -/

/-- A line feed is not written unless it is in the text. -/
theorem feed_not_mem_encode {text : List Char} (h : '\n' ∉ text) : 0x0a ∉ Utf8.encode text := by
  intro hfeed
  obtain ⟨front, rest, heq⟩ := List.append_of_mem hfeed
  apply h
  rw [← Utf8.decodeLossy_encode text, heq, Utf8.decodeLossy_append_feed]
  exact List.mem_append_right _ List.mem_cons_self

theorem encode_ne_nil {text : List Char} (h : text ≠ []) : Utf8.encode text ≠ [] := by
  intro hnone
  apply h
  rw [← Utf8.decodeLossy_encode text, hnone]
  simp [Utf8.decodeLossy, Utf8.characters, Utf8.readOnto]

namespace IsFileLine

variable {line : Line} (h : IsFileLine line)

include h

/-- There is nothing to take off the end of such a line. -/
theorem dropLineEnd_eq : dropLineEnd line = line := by
  cases line using List.reverseRecOn with
  | nil => rfl
  | append_singleton front last _ =>
      have hfeed : last ≠ '\n' := by
        rintro rfl
        exact h.1 (List.mem_append_right _ List.mem_cons_self)
      have hreturn : last ≠ '\r' := by
        rintro rfl
        exact h.2 List.getLast?_concat
      have hlast : ¬ isLineEnd last = true := by simp [isLineEnd, hfeed, hreturn]
      exact List.rdropWhile_concat_neg _ _ _ hlast

theorem readLines_encode_append_feed (rest : List UInt8) :
    readLines (Utf8.encode line ++ 0x0a :: rest) = line :: readLines rest := by
  rw [readLines_append_feed (feed_not_mem_encode h.1), Utf8.decodeLossy_encode, h.dropLineEnd_eq]

/-- A line without an ending is read if there is anything in it. -/
theorem readLines_encode (hne : line ≠ []) : readLines (Utf8.encode line) = [line] := by
  rw [readLines, pieces_of_not_mem (feed_not_mem_encode h.1) (encode_ne_nil hne),
    List.map_singleton, Utf8.decodeLossy_encode, h.dropLineEnd_eq]

end IsFileLine

/-- Lines that were written are read before what follows them. -/
theorem readLines_encodeLines_append {lines : List Line} (h : ∀ line ∈ lines, IsFileLine line)
    (rest : List UInt8) : readLines (encodeLines lines ++ rest) = lines ++ readLines rest := by
  induction lines with
  | nil => rfl
  | cons line lines ih =>
      obtain ⟨hline, hlines⟩ := List.forall_mem_cons.mp h
      rw [encodeLines, List.flatMap_cons, ← encodeLines, List.append_assoc, List.append_assoc,
        List.singleton_append, hline.readLines_encode_append_feed, ih hlines, List.cons_append]

theorem readLines_nil : readLines [] = [] := rfl

/-- All lines are read back, and no others, if each can be a line of a file. -/
theorem readLines_encodeLines {lines : List Line} (h : ∀ line ∈ lines, IsFileLine line) :
    readLines (encodeLines lines) = lines := by
  have hlines := readLines_encodeLines_append h []
  rwa [List.append_nil, readLines_nil, List.append_nil] at hlines

/-- The last line feed ends nothing but the last line. -/
theorem dropLast_encodeLines_concat (lines : List Line) (last : Line) :
    (encodeLines (lines ++ [last])).dropLast = encodeLines lines ++ Utf8.encode last := by
  rw [encodeLines, List.flatMap_append, List.flatMap_singleton, ← List.append_assoc,
    List.dropLast_concat, encodeLines]

/-- An empty line needs its line feed. Any other one is read without it. -/
theorem readLines_dropLast_encodeLines_iff {lines : List Line}
    (h : ∀ line ∈ lines, IsFileLine line) :
    readLines (encodeLines lines).dropLast = lines ↔ lines.getLast? ≠ some [] := by
  cases lines using List.reverseRecOn with
  | nil => exact iff_of_true rfl nofun
  | append_singleton lines last _ =>
      obtain ⟨hlines, hlast⟩ := List.forall_mem_append.mp h
      rw [dropLast_encodeLines_concat, readLines_encodeLines_append hlines, List.getLast?_concat,
        List.append_cancel_left_eq, Ne, Option.some.injEq]
      constructor
      · rintro hread rfl
        cases hread
      · exact (hlast last List.mem_cons_self).readLines_encode

end Text

open Text

/-- A file of lines, each with a line feed behind it. -/
def written (lines : List Line) : ByteArray :=
  ⟨(encodeLines lines).toArray⟩

/-- The same file without its last byte, which is the last line feed if there is one. -/
def writtenUnended (lines : List Line) : ByteArray :=
  ⟨(encodeLines lines).dropLast.toArray⟩

/-- **Reading undoes writing.** A list of lines is read back from the file that was written of it if
and only if none of them has a line feed in it or ends in a carriage return. It is then read from
the file without the last line feed as well, unless the last line is empty. All lines that are ever
read are of this kind, so those of any file can be written and read again. -/
theorem linesOf_written_iff (lines : List Line) :
    (linesOf (written lines) = lines ↔ ∀ line ∈ lines, IsFileLine line) ∧
    ((∀ line ∈ lines, IsFileLine line) →
      (linesOf (writtenUnended lines) = lines ↔ lines.getLast? ≠ some [])) ∧
    ∀ bytes, linesOf (written (linesOf bytes)) = linesOf bytes := by
  have hread (bytes : ByteArray) : ∀ line ∈ linesOf bytes, IsFileLine line :=
    fun _ => isFileLine_of_mem_readLines
  refine ⟨⟨fun hlines => ?_, readLines_encodeLines⟩, readLines_dropLast_encodeLines_iff,
    fun bytes => readLines_encodeLines (hread bytes)⟩
  rw [← hlines]
  exact hread (written lines)

/-- Lines with an inner carriage return, with nothing in them, and with other line boundaries,
written with the last line feed and without it. -/
theorem linesOf_written_iff_of_boundaries :
    let lines : List Line := ["a\rb".toList, [], "c\u2028d\u0085".toList]
    (∀ line ∈ lines, IsFileLine line) ∧ lines.getLast? ≠ some [] ∧
    linesOf (written lines) = lines ∧ linesOf (writtenUnended lines) = lines := by
  intro lines
  have hlines : ∀ line ∈ lines, IsFileLine line := by decide
  have hlast : lines.getLast? ≠ some [] := by decide
  obtain ⟨hwritten, hunended, _⟩ := linesOf_written_iff lines
  exact ⟨hlines, hlast, hwritten.mpr hlines, (hunended hlines).mpr hlast⟩

/-- Without the last line feed an empty last line is lost. -/
example : linesOf (writtenUnended [['a'], []]) = [['a']] := by decide +kernel

end LineCensus
