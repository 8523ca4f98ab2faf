/-
# Reading UTF-8

Decoding bytes to characters, strictly or with replacement. A byte sequence that
is not UTF-8 is cut into its maximal invalid subparts: the longest stretch of
bytes that begins some well-formed character but cannot be completed, or a single
byte where not even the first one can begin a character. A lossy reading puts one
replacement character for each, a strict one refuses the whole text.

Overlong forms, surrogates and code points past U+10FFFF are excluded by the range
of the second byte alone, which is why a lead byte carries that range.
-/

namespace LineCensus.Text.Utf8

/-- What a lead byte announces: the number of bytes that follow, the range of the
first of them, and the bits it contributes itself. -/
structure Lead where
  following : Nat
  low : Nat
  high : Nat
  bits : Nat

/-- The announcement of a lead byte, none for a byte that begins no character. -/
def lead? (byte : UInt8) : Option Lead :=
  let b := byte.toNat
  if b < 0x80 then some ⟨0, 0x80, 0xbf, b⟩
  else if b < 0xc2 then none
  else if b < 0xe0 then some ⟨1, 0x80, 0xbf, b - 0xc0⟩
  else if b < 0xf0 then
    some ⟨2, if b = 0xe0 then 0xa0 else 0x80, if b = 0xed then 0x9f else 0xbf, b - 0xe0⟩
  else if b < 0xf5 then
    some ⟨3, if b = 0xf0 then 0x90 else 0x80, if b = 0xf4 then 0x8f else 0xbf, b - 0xf0⟩
  else none

/-- Reads `count` following bytes, the first between `low` and `high` and the others in the
full range. A byte out of range is left in place. -/
def readFollowing : (count low high bits : Nat) → List UInt8 → Option Nat × List UInt8
  | 0, _, _, bits, rest => (some bits, rest)
  | _ + 1, _, _, _, [] => (none, [])
  | count + 1, low, high, bits, byte :: rest =>
    if low ≤ byte.toNat ∧ byte.toNat ≤ high then
      readFollowing count 0x80 0xbf (bits * 64 + (byte.toNat - 0x80)) rest
    else (none, byte :: rest)

/-- Reads one character, or one maximal invalid subpart, from a text that begins with `byte`. -/
def readChar (byte : UInt8) (rest : List UInt8) : Option Char × List UInt8 :=
  match lead? byte with
  | none => (none, rest)
  | some lead =>
    let (codePoint?, rest) := readFollowing lead.following lead.low lead.high lead.bits rest
    (codePoint?.map Char.ofNat, rest)

/-- Reading never lengthens what is left. -/
theorem length_readFollowing (count low high bits : Nat) (bytes : List UInt8) :
    (readFollowing count low high bits bytes).2.length ≤ bytes.length := by
  induction count generalizing low high bits bytes with
  | zero => simp [readFollowing]
  | succ count ih =>
    cases bytes with
    | nil => simp [readFollowing]
    | cons byte rest =>
      rw [readFollowing]
      split
      · exact Nat.le_trans (ih ..) (by simp)
      · simp

/-- Reading a character leaves no more than what followed its first byte. -/
theorem length_readChar (byte : UInt8) (rest : List UInt8) :
    (readChar byte rest).2.length ≤ rest.length := by
  rw [readChar]
  cases lead? byte with
  | none => simp
  | some lead => exact length_readFollowing ..

/-- The character that stands for bytes that are not UTF-8. -/
def replacement : Char := '\ufffd'

/-- The characters of `bytes`, last one first, in front of those already `read`. -/
def readOnto (read : List (Option Char)) : List UInt8 → List (Option Char)
  | [] => read
  | byte :: rest =>
    have := length_readChar byte rest
    readOnto ((readChar byte rest).1 :: read) (readChar byte rest).2
termination_by bytes => bytes.length
decreasing_by simp; omega

/-- The characters of a byte sequence, with `none` for each maximal invalid subpart. -/
def characters (bytes : List UInt8) : List (Option Char) :=
  (readOnto [] bytes).reverse

/-- The text of a byte sequence, with the replacement character for what is not UTF-8. -/
def decodeLossy (bytes : List UInt8) : List Char :=
  (characters bytes).map (·.getD replacement)

/-- The text of a byte sequence that is UTF-8 throughout. -/
def decode? (bytes : List UInt8) : Option (List Char) :=
  (characters bytes).mapM id

/-- The bytes of a text. -/
def encode (text : List Char) : List UInt8 :=
  text.flatMap String.utf8EncodeChar

/-- Whatever was read already stays in front. -/
theorem readOnto_eq_append (read : List (Option Char)) (bytes : List UInt8) :
    readOnto read bytes = readOnto [] bytes ++ read := by
  match bytes with
  | [] => simp [readOnto]
  | byte :: rest =>
    have shorter := length_readChar byte rest
    have step (front : List (Option Char)) : readOnto front (byte :: rest) =
        readOnto ((readChar byte rest).1 :: front) (readChar byte rest).2 := by rw [readOnto]
    rw [step, step, readOnto_eq_append (_ :: read), readOnto_eq_append [_]]
    simp
termination_by bytes.length
decreasing_by all_goals simp; omega

/-- The first character of a byte sequence is read before the others. -/
theorem characters_cons (byte : UInt8) (rest : List UInt8) :
    characters (byte :: rest) = (readChar byte rest).1 :: characters (readChar byte rest).2 := by
  rw [characters, readOnto, readOnto_eq_append, characters]
  simp

end LineCensus.Text.Utf8
