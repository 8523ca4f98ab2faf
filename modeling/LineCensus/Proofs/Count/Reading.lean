/-
# Reading a file that is not UTF-8

A file is cut into lines before its bytes are decoded. This module shows that the order
does not matter: decoding the file as a whole and cutting its text at the line feeds gives
the same lines, whatever the bytes are. So broken characters do no harm beyond their own
line, and a file in which they were replaced for good is counted as before.
-/

import LineCensus.Count
import LineCensus.Proofs.Text.Utf8

namespace LineCensus

namespace Text

/-- A text cut after each line feed. What follows the last one is a piece of its own unless it is
empty. -/
def cutAfterFeeds : List Char → List (List Char)
  | [] => []
  | c :: rest =>
    if c = '\n' then [c] :: cutAfterFeeds rest
    else match cutAfterFeeds rest with
      | [] => [[c]]
      | first :: others => (c :: first) :: others

theorem cutAfterFeeds_append_feed {text : List Char} (h : '\n' ∉ text) (rest : List Char) :
    cutAfterFeeds (text ++ '\n' :: rest) = (text ++ ['\n']) :: cutAfterFeeds rest := by
  induction text with
  | nil => rfl
  | cons c text ih =>
      rw [List.mem_cons, not_or] at h
      rw [List.cons_append, cutAfterFeeds, if_neg (Ne.symm h.1), ih h.2]
      rfl

theorem cutAfterFeeds_of_not_mem {text : List Char} (h : '\n' ∉ text) (hne : text ≠ []) :
    cutAfterFeeds text = [text] := by
  induction text with
  | nil => exact absurd rfl hne
  | cons c text ih =>
      rw [List.mem_cons, not_or] at h
      rw [cutAfterFeeds, if_neg (Ne.symm h.1)]
      cases text with
      | nil => rfl
      | cons next rest => rw [ih h.2 (List.cons_ne_nil _ _)]

/-- A line feed that ends a piece is no part of the line. -/
theorem dropLineEnd_append_feed (text : List Char) :
    dropLineEnd (text ++ ['\n']) = dropLineEnd text := by
  simp [dropLineEnd, isLineEnd]

theorem piecesOnto_eq (finished : List (List UInt8)) (current bytes : List UInt8) :
    piecesOnto finished current bytes = finished.reverse ++ piecesOnto [] current bytes := by
  induction bytes generalizing finished current with
  | nil =>
      simp only [piecesOnto]
      split <;> simp
  | cons byte rest ih =>
      simp only [piecesOnto]
      split
      · rw [ih, ih [_]]
        simp
      · exact ih _ _

/-- Up to the next line feed, bytes are added to the line that has begun. -/
theorem piecesOnto_append {bytes : List UInt8} (h : 0x0a ∉ bytes) (finished : List (List UInt8))
    (current rest : List UInt8) :
    piecesOnto finished current (bytes ++ rest) =
      piecesOnto finished (bytes.reverse ++ current) rest := by
  induction bytes generalizing current with
  | nil => rfl
  | cons byte bytes ih =>
      rw [List.mem_cons, not_or] at h
      rw [List.cons_append, piecesOnto, if_neg (Ne.symm h.1), ih h.2]
      simp

theorem pieces_append_feed {bytes : List UInt8} (h : 0x0a ∉ bytes) (rest : List UInt8) :
    pieces (bytes ++ 0x0a :: rest) = bytes :: pieces rest := by
  rw [pieces, piecesOnto_append h, piecesOnto, if_pos rfl, piecesOnto_eq, pieces]
  simp

theorem pieces_of_not_mem {bytes : List UInt8} (h : 0x0a ∉ bytes) (hne : bytes ≠ []) :
    pieces bytes = [bytes] := by
  have hpieces := piecesOnto_append h [] [] []
  rw [List.append_nil, List.append_nil] at hpieces
  rw [pieces, hpieces, piecesOnto, if_neg (by simpa using hne)]
  simp

theorem decodeLossy_ne_nil {bytes : List UInt8} (h : bytes ≠ []) :
    Utf8.decodeLossy bytes ≠ [] := by
  obtain ⟨byte, rest, rfl⟩ := List.exists_cons_of_ne_nil h
  simp [Utf8.decodeLossy, Utf8.characters_cons]

/-- Cutting bytes and decoding the pieces comes to the same as decoding the bytes and cutting the
text. -/
theorem readLines_eq_cutAfterFeeds (bytes : List UInt8) :
    readLines bytes = (cutAfterFeeds (Utf8.decodeLossy bytes)).map dropLineEnd := by
  have hkept : ∀ {front : List UInt8}, 0x0a ∉ front → '\n' ∉ Utf8.decodeLossy front :=
    fun h hfeed => h (Utf8.feed_mem_of_mem_decodeLossy hfeed)
  by_cases hfeed : 0x0a ∈ bytes
  · -- the first line is the same in both readings, and the rest is shorter
    obtain ⟨front, rest, hbytes, hfront⟩ := List.eq_append_cons_of_mem hfeed
    have shorter : rest.length < bytes.length := by simp [hbytes]; omega
    have ih := readLines_eq_cutAfterFeeds rest
    rw [readLines] at ih
    rw [readLines, hbytes, pieces_append_feed hfront, Utf8.decodeLossy_append_feed,
      cutAfterFeeds_append_feed (hkept hfront), List.map_cons, List.map_cons,
      dropLineEnd_append_feed, ih]
  · by_cases hempty : bytes = []
    · rw [hempty]
      simp [readLines, pieces, piecesOnto, Utf8.decodeLossy, Utf8.characters, Utf8.readOnto,
        cutAfterFeeds]
    · rw [readLines, pieces_of_not_mem hfeed hempty,
        cutAfterFeeds_of_not_mem (hkept hfeed) (decodeLossy_ne_nil hempty), List.map_singleton,
        List.map_singleton]
termination_by bytes.length

end Text

/-! ## Counts see lines alone -/

theorem mapError_ok {α β γ : Type} (f : α → β) (value : γ) :
    (Except.ok value).mapError f = .ok value := rfl

section

variable {bytes others : ByteArray} (h : linesOf bytes = linesOf others)

include h

theorem languageOf?_congr (path : Path) :
    languageOf? path (.ok bytes) = languageOf? path (.ok others) := by
  simp only [languageOf?, Except.toOption, Option.map_some, h]

theorem countLinesAs_congr (scanner : ScannerId) :
    countLinesAs scanner (.ok bytes) = countLinesAs scanner (.ok others) := by
  simp only [countLinesAs, mapError_ok, bind, Except.bind, h]

theorem countLines_congr (path : Path) :
    countLines path (.ok bytes) = countLines path (.ok others) := by
  simp only [countLines, languageOf?_congr h, countLinesAs_congr h]

theorem countFile_congr (root : Option Path) (hint : Option RoleHint) (path : Path) :
    countFile root hint path (.ok bytes) = countFile root hint path (.ok others) := by
  simp only [countFile, languageOf?_congr h, mapError_ok, bind, Except.bind, h]

end

/-- The bytes of a file in which everything that is not UTF-8 has been replaced. -/
def replaced (bytes : ByteArray) : ByteArray :=
  ⟨(Text.Utf8.encode (Text.Utf8.decodeLossy bytes.data.toList)).toArray⟩

/-- **Broken characters break nothing else.** The lines of a file are those of its text, decoded as
a whole and cut after each line feed. Replacing what is not UTF-8 for good changes neither the
lines nor any count of them. -/
theorem linesOf_decodes_as_a_whole (bytes : ByteArray) :
    linesOf bytes =
      (Text.cutAfterFeeds (Text.Utf8.decodeLossy bytes.data.toList)).map Text.dropLineEnd ∧
    linesOf (replaced bytes) = linesOf bytes ∧
    (∀ scanner, countLinesAs scanner (.ok (replaced bytes)) = countLinesAs scanner (.ok bytes)) ∧
    (∀ path, countLines path (.ok (replaced bytes)) = countLines path (.ok bytes)) ∧
    ∀ root hint path,
      countFile root hint path (.ok (replaced bytes)) = countFile root hint path (.ok bytes) := by
  have hlines : linesOf (replaced bytes) = linesOf bytes := by
    rw [linesOf, linesOf, Text.readLines_eq_cutAfterFeeds, Text.readLines_eq_cutAfterFeeds,
      replaced, Text.Utf8.decodeLossy_encode]
  exact ⟨Text.readLines_eq_cutAfterFeeds _, hlines, countLinesAs_congr hlines,
    countLines_congr hlines, countFile_congr hlines⟩

end LineCensus
