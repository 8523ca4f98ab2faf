/-
# Both kinds of line ending

Some systems end a line with a line feed, others with a carriage return and a line feed.
This module shows that nothing that is told about a file depends on which of the two it is.

The carriage return is still part of the stretch of bytes that is decoded, behind whatever
was left unfinished there. It cannot be taken for the rest of a character, so it is read
as itself, at the end of the line, where it is dropped.
-/

import LineCensus.Proofs.Count.Reading

namespace LineCensus

namespace Text

/-- Bytes with a carriage return in front of every line feed. -/
def withReturns (bytes : List UInt8) : List UInt8 :=
  bytes.flatMap fun byte => if byte = 0x0a then [0x0d, 0x0a] else [byte]

theorem withReturns_of_not_mem {bytes : List UInt8} (h : 0x0a ∉ bytes) :
    withReturns bytes = bytes := by
  induction bytes with
  | nil => rfl
  | cons byte rest ih =>
      rw [List.mem_cons, not_or] at h
      rw [withReturns, List.flatMap_cons, if_neg (Ne.symm h.1), List.singleton_append]
      exact congrArg _ (ih h.2)

theorem withReturns_append_feed {bytes : List UInt8} (h : 0x0a ∉ bytes) (rest : List UInt8) :
    withReturns (bytes ++ 0x0a :: rest) = (bytes ++ [0x0d]) ++ 0x0a :: withReturns rest := by
  have hfront := withReturns_of_not_mem h
  rw [withReturns] at hfront
  rw [withReturns, List.flatMap_append, hfront, List.flatMap_cons, if_pos rfl, withReturns,
    List.append_assoc]
  rfl

/-- Whatever stands in front of a carriage return, it is read as itself. -/
theorem decodeLossy_append_return (bytes : List UInt8) :
    Utf8.decodeLossy (bytes ++ [0x0d]) = Utf8.decodeLossy bytes ++ ['\r'] := by
  have hreturn : Utf8.characters [0x0d] = [some '\r'] := by
    simp [Utf8.characters, Utf8.readOnto, Utf8.readChar, Utf8.lead?, Utf8.readFollowing]
  rw [Utf8.decodeLossy, Utf8.characters_append (by decide), hreturn, List.map_append]
  rfl

/-- A carriage return at the end of a text is no part of the line. -/
theorem dropLineEnd_append_return (text : List Char) :
    dropLineEnd (text ++ ['\r']) = dropLineEnd text := by
  simp [dropLineEnd, isLineEnd]

theorem readLines_append_feed {bytes : List UInt8} (h : 0x0a ∉ bytes) (rest : List UInt8) :
    readLines (bytes ++ 0x0a :: rest) =
      dropLineEnd (Utf8.decodeLossy bytes) :: readLines rest := by
  rw [readLines, pieces_append_feed h, List.map_cons, readLines]

/-- The lines are the same with either line ending. -/
theorem readLines_withReturns (bytes : List UInt8) :
    readLines (withReturns bytes) = readLines bytes := by
  by_cases hfeed : 0x0a ∈ bytes
  · -- the first line loses its carriage return, and the rest is shorter
    obtain ⟨front, rest, hbytes, hfront⟩ := List.eq_append_cons_of_mem hfeed
    have shorter : rest.length < bytes.length := by simp [hbytes]; omega
    have hreturn : 0x0a ∉ front ++ [0x0d] := by
      rw [List.mem_append, not_or]
      exact ⟨hfront, by decide⟩
    rw [hbytes, withReturns_append_feed hfront, readLines_append_feed hreturn,
      readLines_append_feed hfront, decodeLossy_append_return, dropLineEnd_append_return,
      readLines_withReturns rest]
  · rw [withReturns_of_not_mem hfeed]
termination_by bytes.length

end Text

/-- A file with a carriage return in front of every line feed. -/
def withReturns (bytes : ByteArray) : ByteArray :=
  ⟨(Text.withReturns bytes.data.toList).toArray⟩

/-- **Line endings do not matter.** A file whose lines end in a carriage return and a line feed has
the lines of the one whose lines end in a line feed alone, also where the bytes in front are not
UTF-8, where there are carriage returns already, and where the last line has no ending. So it is in
the same language and is counted in the same way, by lines and by roles. -/
theorem linesOf_withReturns (bytes : ByteArray) :
    linesOf (withReturns bytes) = linesOf bytes ∧
    Text.firstNonblank? (linesOf (withReturns bytes)) = Text.firstNonblank? (linesOf bytes) ∧
    (∀ path, languageOf? path (.ok (withReturns bytes)) = languageOf? path (.ok bytes)) ∧
    (∀ scanner,
      countLinesAs scanner (.ok (withReturns bytes)) = countLinesAs scanner (.ok bytes)) ∧
    (∀ path, countLines path (.ok (withReturns bytes)) = countLines path (.ok bytes)) ∧
    ∀ root hint path,
      countFile root hint path (.ok (withReturns bytes)) =
        countFile root hint path (.ok bytes) := by
  have hlines : linesOf (withReturns bytes) = linesOf bytes :=
    Text.readLines_withReturns bytes.data.toList
  exact ⟨hlines, congrArg _ hlines, languageOf?_congr hlines, countLinesAs_congr hlines,
    countLines_congr hlines, countFile_congr hlines⟩

/-- A file that ends in an unfinished character and two carriage returns. -/
example :
    let bytes : List UInt8 := [0xe2, 0x82, 0x0a, 0x61, 0x0d, 0x0a, 0xf0, 0x0d, 0x0d]
    Text.readLines (Text.withReturns bytes) = Text.readLines bytes ∧
    Text.readLines bytes = [['\ufffd'], ['a'], ['\ufffd']] := by
  decide +kernel

end LineCensus
