/-!
# UTF-8

Bytes are decoded as far as they are well-formed. Each longest start of a sequence that cannot be
continued, and each byte that cannot start one, becomes one replacement character.
-/

namespace Canvas.Text

/-- The character that stands for what is not well-formed. -/
def replacement : Char := '\uFFFD'

/-- What a leading byte announces: how many bytes follow, the bounds of the first of them, and the
bits that it contributes itself. -/
structure Lead where
  following : Nat
  low : Nat
  high : Nat
  bits : Nat

/-- The least following byte. -/
def followingLow : Nat := 0x80

/-- The greatest following byte. -/
def followingHigh : Nat := 0xBF

/-- What a byte announces if it can lead. The bounds of the second byte exclude overlong forms,
surrogates, and numbers beyond the last character. -/
def lead? (byte : Nat) : Option Lead :=
  if byte < 0x80 then some ⟨0, followingLow, followingHigh, byte⟩
  else if 0xC2 ≤ byte ∧ byte ≤ 0xDF then some ⟨1, followingLow, followingHigh, byte - 0xC0⟩
  else if 0xE0 ≤ byte ∧ byte ≤ 0xEF then
    some ⟨2, if byte = 0xE0 then 0xA0 else followingLow,
      if byte = 0xED then 0x9F else followingHigh, byte - 0xE0⟩
  else if 0xF0 ≤ byte ∧ byte ≤ 0xF4 then
    some ⟨3, if byte = 0xF0 then 0x90 else followingLow,
      if byte = 0xF4 then 0x8F else followingHigh, byte - 0xF0⟩
  else none

/-- The character that the following bytes complete, and the bytes behind it. -/
def follow : (following low high bits : Nat) → List UInt8 → Char × List UInt8
  | 0, _, _, bits, rest => (Char.ofNat bits, rest)
  | _ + 1, _, _, _, [] => (replacement, [])
  | following + 1, low, high, bits, byte :: rest =>
    if low ≤ byte.toNat ∧ byte.toNat ≤ high then
      follow following followingLow followingHigh (bits * 64 + (byte.toNat - 0x80)) rest
    else (replacement, byte :: rest)

theorem length_follow (following low high bits : Nat) (bytes : List UInt8) :
    (follow following low high bits bytes).2.length ≤ bytes.length := by
  induction bytes generalizing following low high bits with
  | nil => cases following <;> simp [follow]
  | cons byte rest ih =>
    cases following with
    | zero => simp [follow]
    | succ n =>
      simp only [follow]
      split
      · exact Nat.le_succ_of_le (ih ..)
      · simp

/-- The characters that bytes stand for. -/
def decodeBytes : List UInt8 → List Char
  | [] => []
  | byte :: rest =>
    match lead? byte.toNat with
    | none => replacement :: decodeBytes rest
    | some lead =>
      let followed := follow lead.following lead.low lead.high lead.bits rest
      followed.1 :: decodeBytes followed.2
termination_by bytes => bytes.length
decreasing_by
  · simp
  · exact Nat.lt_succ_of_le (length_follow ..)

/-- The bytes of a text. -/
def encodeChars (cs : List Char) : List UInt8 := cs.flatMap String.utf8EncodeChar

end Canvas.Text
