/-
# Decoding is local

A reader of UTF-8 that comes to a byte below 0x80 is in step again: no such byte ever
continues a character, so whatever is wrong in front of it, it is read as itself and so
is everything behind it. A text may therefore be cut at such bytes before it is decoded,
and comes out as if it had been decoded as a whole.

Decoding also undoes encoding. It follows that a text that was once read with replacement
characters can be written and read again without a further change.
-/

import LineCensus.Text.Utf8
import Mathlib.Algebra.Group.Nat.Defs

namespace LineCensus.Text.Utf8

/-- What a lead byte announces: a character of its own, or more bytes, which then amount to more
than a single byte can denote. -/
theorem lead?_cases {byte : UInt8} {lead : Lead} (h : lead? byte = some lead) :
    0x80 ≤ lead.low ∧
    (lead.following = 0 ∧ lead.bits = byte.toNat ∨
      ∃ more, lead.following = more + 1 ∧
        0x80 ≤ (lead.bits * 64 + (lead.low - 0x80)) * 64 ^ more) := by
  simp only [lead?] at h
  split at h
  · cases h
    exact ⟨Nat.le_refl _, .inl ⟨rfl, rfl⟩⟩
  · split at h
    · cases h
    · split at h
      · cases h
        exact ⟨Nat.le_refl _, .inr ⟨0, rfl, by dsimp only; omega⟩⟩
      -- the range of the second byte is what rules out the overlong forms
      · split at h
        · cases h
          dsimp only
          split
          · exact ⟨by omega, .inr ⟨1, rfl, by omega⟩⟩
          · exact ⟨by omega, .inr ⟨1, rfl, by omega⟩⟩
        · split at h
          · cases h
            dsimp only
            split
            · exact ⟨by omega, .inr ⟨2, rfl, by omega⟩⟩
            · exact ⟨by omega, .inr ⟨2, rfl, by omega⟩⟩
          · cases h

/-! ## Bytes that continue no character -/

section

variable {stop : UInt8} (hstop : stop.toNat < 0x80) (rest : List UInt8)

include hstop

/-- Reading following bytes ends in front of a byte that continues no character just as it does at
the end of a text. -/
theorem readFollowing_append (count : Nat) {low : Nat} (hlow : 0x80 ≤ low) (high bits : Nat)
    (bytes : List UInt8) :
    readFollowing count low high bits (bytes ++ stop :: rest) =
      ((readFollowing count low high bits bytes).1,
        (readFollowing count low high bits bytes).2 ++ stop :: rest) := by
  induction count generalizing low high bits bytes with
  | zero => rfl
  | succ count ih =>
      cases bytes with
      | nil =>
          have hrange : ¬ (low ≤ stop.toNat ∧ stop.toNat ≤ high) := by omega
          simp only [List.nil_append, readFollowing, if_neg hrange]
      | cons byte bytes =>
          rw [List.cons_append, readFollowing, readFollowing]
          split
          · exact ih (Nat.le_refl _) _ _ _
          · rfl

theorem readChar_append (byte : UInt8) (bytes : List UInt8) :
    readChar byte (bytes ++ stop :: rest) =
      ((readChar byte bytes).1, (readChar byte bytes).2 ++ stop :: rest) := by
  rw [readChar, readChar]
  cases hlead : lead? byte with
  | none => rfl
  | some lead =>
      simp only [readFollowing_append hstop rest lead.following (lead?_cases hlead).1]

/-- In front of such a byte a text is decoded as if it ended there. -/
theorem characters_append (bytes : List UInt8) :
    characters (bytes ++ stop :: rest) = characters bytes ++ characters (stop :: rest) := by
  match bytes with
  | [] =>
    have hnone : characters [] = [] := by simp [characters, readOnto]
    rw [hnone]
    rfl
  | byte :: bytes =>
    have shorter := length_readChar byte bytes
    rw [List.cons_append, characters_cons, readChar_append hstop, characters_cons byte,
      characters_append (readChar byte bytes).2, List.cons_append]
termination_by bytes.length
decreasing_by simp; omega

end

/-! ## Line feeds -/

theorem readChar_feed (rest : List UInt8) : readChar 0x0a rest = (some '\n', rest) := by
  simp [readChar, lead?, readFollowing]

/-- A text may be cut at its line feeds before it is decoded. -/
theorem decodeLossy_append_feed (bytes rest : List UInt8) :
    decodeLossy (bytes ++ 0x0a :: rest) = decodeLossy bytes ++ '\n' :: decodeLossy rest := by
  rw [decodeLossy, characters_append (by decide), characters_cons, readChar_feed, List.map_append,
    List.map_cons]
  rfl

/-- Following bytes only add to what the lead byte contributes. -/
theorem le_of_readFollowing {count low high bits : Nat} (hlow : 0x80 ≤ low) {bytes : List UInt8}
    {codePoint : Nat} (h : (readFollowing (count + 1) low high bits bytes).1 = some codePoint) :
    (bits * 64 + (low - 0x80)) * 64 ^ count ≤ codePoint := by
  induction count generalizing low high bits bytes with
  | zero =>
      cases bytes with
      | nil => simp [readFollowing] at h
      | cons byte bytes =>
          simp only [readFollowing] at h
          split at h
          · rw [Option.some.injEq] at h
            omega
          · cases h
  | succ count ih =>
      cases bytes with
      | nil => simp [readFollowing] at h
      | cons byte bytes =>
          rw [readFollowing] at h
          split at h
          · have hfirst : bits * 64 + (low - 0x80) ≤ bits * 64 + (byte.toNat - 0x80) := by omega
            calc (bits * 64 + (low - 0x80)) * 64 ^ (count + 1)
                ≤ (bits * 64 + (byte.toNat - 0x80)) * 64 ^ (count + 1) :=
                  Nat.mul_le_mul_right _ hfirst
              _ = ((bits * 64 + (byte.toNat - 0x80)) * 64 + (0x80 - 0x80)) * 64 ^ count := by
                  rw [Nat.pow_succ, Nat.mul_comm (64 ^ count), ← Nat.mul_assoc, Nat.sub_self,
                    Nat.add_zero]
              _ ≤ codePoint := ih (Nat.le_refl _) h
          · cases h

theorem eq_ten_of_ofNat {codePoint : Nat} (h : Char.ofNat codePoint = '\n') : codePoint = 10 := by
  by_cases hvalid : codePoint.isValidChar
  · rw [Char.ofNat, dif_pos hvalid] at h
    exact congrArg Char.toNat h
  · rw [Char.ofNat, dif_neg hvalid] at h
    exact absurd h (by decide)

/-- A line feed is read off its own byte and off no other. -/
theorem eq_feed_of_readChar {byte : UInt8} {bytes : List UInt8}
    (h : (readChar byte bytes).1 = some '\n') : byte = 0x0a := by
  rw [readChar] at h
  cases hlead : lead? byte with
  | none =>
      rw [hlead] at h
      cases h
  | some lead =>
      simp only [hlead, Option.map_eq_some_iff] at h
      obtain ⟨codePoint, hread, hchar⟩ := h
      have hten := eq_ten_of_ofNat hchar
      obtain ⟨hlow, ⟨halone, hbits⟩ | ⟨more, hmore, hlarge⟩⟩ := lead?_cases hlead
      · rw [halone, readFollowing, hbits, Option.some.injEq] at hread
        exact UInt8.toNat_inj.mp (hread.trans hten)
      · rw [hmore] at hread
        have := le_of_readFollowing hlow hread
        omega

/-- What is left after a character is an ending of what there was. -/
theorem readFollowing_suffix (count low high bits : Nat) (bytes : List UInt8) :
    (readFollowing count low high bits bytes).2 <:+ bytes := by
  induction count generalizing low high bits bytes with
  | zero => exact List.suffix_rfl
  | succ count ih =>
      cases bytes with
      | nil => exact List.suffix_rfl
      | cons byte bytes =>
          rw [readFollowing]
          split
          · exact (ih _ _ _ bytes).trans (List.suffix_cons byte bytes)
          · exact List.suffix_rfl

theorem readChar_suffix (byte : UInt8) (bytes : List UInt8) :
    (readChar byte bytes).2 <:+ bytes := by
  rw [readChar]
  cases lead? byte with
  | none => exact List.suffix_rfl
  | some lead => exact readFollowing_suffix _ _ _ _ bytes

theorem feed_mem_of_mem_characters {bytes : List UInt8} (h : some '\n' ∈ characters bytes) :
    0x0a ∈ bytes := by
  match bytes with
  | [] => simp [characters, readOnto] at h
  | byte :: bytes =>
    have shorter := length_readChar byte bytes
    rw [characters_cons, List.mem_cons] at h
    rcases h with hfirst | hlater
    · rw [eq_feed_of_readChar hfirst.symm]
      exact List.mem_cons_self
    · have hrest := feed_mem_of_mem_characters hlater
      exact List.mem_cons_of_mem byte ((readChar_suffix byte bytes).subset hrest)
termination_by bytes.length
decreasing_by simp; omega

/-- Only a line feed is decoded as one. -/
theorem feed_mem_of_mem_decodeLossy {bytes : List UInt8} (h : '\n' ∈ decodeLossy bytes) :
    0x0a ∈ bytes := by
  obtain ⟨character, hmem, hfeed⟩ := List.mem_map.mp h
  cases character with
  | none => exact absurd hfeed (by decide)
  | some c =>
      rw [Option.getD_some] at hfeed
      exact feed_mem_of_mem_characters (hfeed ▸ hmem)

/-! ## Decoding undoes encoding -/

theorem toNat_ofNat {byte : Nat} (h : byte < 0x100) : (UInt8.ofNat byte).toNat = byte :=
  UInt8.toNat_ofNat_of_lt' h

theorem lead?_one {bits : Nat} (h : bits < 0x80) :
    lead? (UInt8.ofNat bits) = some ⟨0, 0x80, 0xbf, bits⟩ := by
  rw [lead?, toNat_ofNat (by omega)]
  exact if_pos h

theorem lead?_two {bits : Nat} (hlow : 2 ≤ bits) (hhigh : bits < 32) :
    lead? (UInt8.ofNat (bits + 0xc0)) = some ⟨1, 0x80, 0xbf, bits⟩ := by
  simp only [lead?, toNat_ofNat (show bits + 0xc0 < 0x100 by omega), Nat.add_sub_cancel]
  rw [if_neg (by omega), if_neg (by omega), if_pos (by omega)]

theorem lead?_three {bits : Nat} (h : bits < 16) :
    lead? (UInt8.ofNat (bits + 0xe0)) =
      some ⟨2, if bits = 0 then 0xa0 else 0x80, if bits = 13 then 0x9f else 0xbf, bits⟩ := by
  simp only [lead?, toNat_ofNat (show bits + 0xe0 < 0x100 by omega), Nat.add_sub_cancel]
  rw [if_neg (by omega), if_neg (by omega), if_neg (by omega), if_pos (by omega)]
  simp only [show bits + 0xe0 = 0xe0 ↔ bits = 0 by omega,
    show bits + 0xe0 = 0xed ↔ bits = 13 by omega]

theorem lead?_four {bits : Nat} (h : bits < 5) :
    lead? (UInt8.ofNat (bits + 0xf0)) =
      some ⟨3, if bits = 0 then 0x90 else 0x80, if bits = 4 then 0x8f else 0xbf, bits⟩ := by
  simp only [lead?, toNat_ofNat (show bits + 0xf0 < 0x100 by omega), Nat.add_sub_cancel]
  rw [if_neg (by omega), if_neg (by omega), if_neg (by omega), if_neg (by omega),
    if_pos (by omega)]
  simp only [show bits + 0xf0 = 0xf0 ↔ bits = 0 by omega,
    show bits + 0xf0 = 0xf4 ↔ bits = 4 by omega]

/-- A following byte in the range that is asked for is taken. -/
theorem readFollowing_succ (count : Nat) {low high : Nat} (bits : Nat) {more : Nat}
    (hmore : more < 64) (hlow : low ≤ more + 0x80) (hhigh : more + 0x80 ≤ high)
    (rest : List UInt8) :
    readFollowing (count + 1) low high bits (UInt8.ofNat (more + 0x80) :: rest) =
      readFollowing count 0x80 0xbf (bits * 64 + more) rest := by
  rw [readFollowing, toNat_ofNat (by omega), if_pos ⟨hlow, hhigh⟩, Nat.add_sub_cancel]

/-- The bytes of a character are read as that character. -/
theorem characters_encodeChar (c : Char) (rest : List UInt8) :
    characters (String.utf8EncodeChar c ++ rest) = some c :: characters rest := by
  have hc : Char.ofNat c.val.toNat = c := Char.ofNat_toNat c
  have hvalid : c.val.toNat < 0xd800 ∨ 0xdfff < c.val.toNat ∧ c.val.toNat < 0x110000 := c.valid
  unfold String.utf8EncodeChar
  generalize c.val.toNat = v at hc hvalid
  dsimp only
  have hlast : v % 64 < 64 := Nat.mod_lt v (by decide)
  have hlastButOne : v / 64 % 64 < 64 := Nat.mod_lt _ (by decide)
  split
  · rw [List.cons_append, List.nil_append, characters_cons, readChar, lead?_one (by omega)]
    simp only [readFollowing, Option.map_some, hc]
  · split
    · have hvalue : v / 64 % 32 * 64 + v % 64 = v := by omega
      rw [List.cons_append, characters_cons, readChar, lead?_two (by omega) (by omega)]
      simp only [List.cons_append, List.nil_append]
      rw [readFollowing_succ 0 _ hlast (by omega) (by omega), readFollowing, hvalue,
        Option.map_some, hc]
    · split
      · have hvalue : (v / 4096 % 16 * 64 + v / 64 % 64) * 64 + v % 64 = v := by omega
        rw [List.cons_append, characters_cons, readChar, lead?_three (by omega)]
        simp only [List.cons_append, List.nil_append]
        rw [readFollowing_succ 1 _ hlastButOne (by split <;> omega) (by split <;> omega),
          readFollowing_succ 0 _ hlast (by omega) (by omega), readFollowing, hvalue,
          Option.map_some, hc]
      · have hvalue :
            ((v / 262144 % 8 * 64 + v / 4096 % 64) * 64 + v / 64 % 64) * 64 + v % 64 = v := by omega
        rw [List.cons_append, characters_cons, readChar, lead?_four (by omega)]
        simp only [List.cons_append, List.nil_append]
        rw [readFollowing_succ 2 _ (Nat.mod_lt _ (by decide)) (by split <;> omega)
            (by split <;> omega),
          readFollowing_succ 1 _ hlastButOne (by omega) (by omega),
          readFollowing_succ 0 _ hlast (by omega) (by omega), readFollowing, hvalue,
          Option.map_some, hc]

theorem characters_encode (text : List Char) : characters (encode text) = text.map some := by
  induction text with
  | nil => simp [encode, characters, readOnto]
  | cons c rest ih =>
      rw [encode, List.flatMap_cons, characters_encodeChar, ← encode, ih, List.map_cons]

/-- What is written is read back. -/
theorem decodeLossy_encode (text : List Char) : decodeLossy (encode text) = text := by
  rw [decodeLossy, characters_encode, List.map_map]
  exact List.map_id text

end LineCensus.Text.Utf8
