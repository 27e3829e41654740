import Canvas.Text.Utf8
import Mathlib.Data.UInt

/-!
# Texts read back from their bytes

The bytes of a character lead back to it, whatever follows them: the first tells how many there are,
and the second is within the bounds that exclude overlong forms and surrogates. So every text is
decoded from its bytes as it was.
-/

namespace Canvas.Text

variable {byte : UInt8} {rest : List UInt8} {following low high bits n v : Nat}

theorem decodeBytes_of_lead {lead : Lead} (h : lead? byte.toNat = some lead) :
    decodeBytes (byte :: rest) =
      (follow lead.following lead.low lead.high lead.bits rest).1 ::
        decodeBytes (follow lead.following lead.low lead.high lead.bits rest).2 := by
  rw [decodeBytes, h]

theorem lead?_ofNat (small : v < 256) : lead? (UInt8.ofNat v).toNat = lead? v := by
  rw [UInt8.toNat_ofNat_of_lt' small]

theorem follow_zero : follow 0 low high bits rest = (Char.ofNat bits, rest) := by
  cases rest <;> rfl

/-- A byte within its bounds adds its last six bits. -/
theorem follow_succ (small : n < 64) (least : low ≤ n + 0x80) (greatest : n + 0x80 ≤ high) :
    follow (following + 1) low high bits (UInt8.ofNat (n + 0x80) :: rest) =
      follow following followingLow followingHigh (bits * 64 + n) rest := by
  have value : (UInt8.ofNat (n + 0x80)).toNat = n + 0x80 :=
    UInt8.toNat_ofNat_of_lt' (by change _ < 256; omega)
  rw [follow, value, if_pos ⟨least, greatest⟩, Nat.add_sub_cancel]

/-- Any byte within the usual bounds does. -/
theorem follow_succ_usual (small : n < 64) :
    follow (following + 1) followingLow followingHigh bits (UInt8.ofNat (n + 0x80) :: rest) =
      follow following followingLow followingHigh (bits * 64 + n) rest := by
  apply follow_succ small
  · unfold followingLow
    omega
  · unfold followingHigh
    omega

theorem decodeBytes_one (small : v ≤ 0x7F) :
    decodeBytes (UInt8.ofNat v :: rest) = Char.ofNat v :: decodeBytes rest := by
  have lead : lead? v = some ⟨0, followingLow, followingHigh, v⟩ := by
    rw [lead?, if_pos (by omega)]
  rw [← lead?_ofNat (by omega)] at lead
  rw [decodeBytes_of_lead lead, follow_zero]

theorem decodeBytes_two (large : 0x7F < v) (small : v ≤ 0x7FF) :
    decodeBytes (UInt8.ofNat (v / 64 % 32 + 0xC0) :: UInt8.ofNat (v % 64 + 0x80) :: rest) =
      Char.ofNat v :: decodeBytes rest := by
  have lead : lead? (v / 64 % 32 + 0xC0) =
      some ⟨1, followingLow, followingHigh, v / 64 % 32 + 0xC0 - 0xC0⟩ := by
    rw [lead?, if_neg (by omega), if_pos (by omega)]
  have bits : (v / 64 % 32 + 0xC0 - 0xC0) * 64 + v % 64 = v := by omega
  rw [← lead?_ofNat (by omega)] at lead
  rw [decodeBytes_of_lead lead, follow_succ_usual (by omega), follow_zero, bits]

/-- The second byte is not too small, or fewer bytes would do, and it does not make a surrogate. -/
theorem decodeBytes_three (large : 0x7FF < v) (small : v ≤ 0xFFFF)
    (surrogate : ¬ (0xD800 ≤ v ∧ v ≤ 0xDFFF)) :
    decodeBytes (UInt8.ofNat (v / 4096 % 16 + 0xE0) :: UInt8.ofNat (v / 64 % 64 + 0x80) ::
      UInt8.ofNat (v % 64 + 0x80) :: rest) = Char.ofNat v :: decodeBytes rest := by
  have lead : lead? (v / 4096 % 16 + 0xE0) =
      some ⟨2, if v / 4096 % 16 + 0xE0 = 0xE0 then 0xA0 else followingLow,
        if v / 4096 % 16 + 0xE0 = 0xED then 0x9F else followingHigh,
        v / 4096 % 16 + 0xE0 - 0xE0⟩ := by
    rw [lead?, if_neg (by omega), if_neg (by omega), if_pos (by omega)]
  have least : (if v / 4096 % 16 + 0xE0 = 0xE0 then 0xA0 else followingLow) ≤
      v / 64 % 64 + 0x80 := by
    unfold followingLow
    split <;> omega
  have greatest : v / 64 % 64 + 0x80 ≤
      if v / 4096 % 16 + 0xE0 = 0xED then 0x9F else followingHigh := by
    unfold followingHigh
    split <;> omega
  have bits : ((v / 4096 % 16 + 0xE0 - 0xE0) * 64 + v / 64 % 64) * 64 + v % 64 = v := by omega
  rw [← lead?_ofNat (by omega)] at lead
  rw [decodeBytes_of_lead lead, follow_succ (by omega) least greatest,
    follow_succ_usual (by omega), follow_zero, bits]

/-- The second byte is not too small, or fewer bytes would do, and not beyond the last character. -/
theorem decodeBytes_four (large : 0xFFFF < v) (small : v < 0x110000) :
    decodeBytes (UInt8.ofNat (v / 262144 % 8 + 0xF0) :: UInt8.ofNat (v / 4096 % 64 + 0x80) ::
      UInt8.ofNat (v / 64 % 64 + 0x80) :: UInt8.ofNat (v % 64 + 0x80) :: rest) =
        Char.ofNat v :: decodeBytes rest := by
  have lead : lead? (v / 262144 % 8 + 0xF0) =
      some ⟨3, if v / 262144 % 8 + 0xF0 = 0xF0 then 0x90 else followingLow,
        if v / 262144 % 8 + 0xF0 = 0xF4 then 0x8F else followingHigh,
        v / 262144 % 8 + 0xF0 - 0xF0⟩ := by
    rw [lead?, if_neg (by omega), if_neg (by omega), if_neg (by omega), if_pos (by omega)]
  have least : (if v / 262144 % 8 + 0xF0 = 0xF0 then 0x90 else followingLow) ≤
      v / 4096 % 64 + 0x80 := by
    unfold followingLow
    split <;> omega
  have greatest : v / 4096 % 64 + 0x80 ≤
      if v / 262144 % 8 + 0xF0 = 0xF4 then 0x8F else followingHigh := by
    unfold followingHigh
    split <;> omega
  have bits : (((v / 262144 % 8 + 0xF0 - 0xF0) * 64 + v / 4096 % 64) * 64 + v / 64 % 64) * 64 +
      v % 64 = v := by omega
  rw [← lead?_ofNat (by omega)] at lead
  rw [decodeBytes_of_lead lead, follow_succ (by omega) least greatest,
    follow_succ_usual (by omega), follow_succ_usual (by omega), follow_zero, bits]

/-- The bytes of a character are decoded to it, and what follows them on its own. -/
theorem decodeBytes_utf8EncodeChar (c : Char) (rest : List UInt8) :
    decodeBytes (String.utf8EncodeChar c ++ rest) = c :: decodeBytes rest := by
  have valid : c.val.toNat < 0xD800 ∨ 0xDFFF < c.val.toNat ∧ c.val.toNat < 0x110000 := c.valid
  have same : c :: decodeBytes rest = Char.ofNat c.val.toNat :: decodeBytes rest :=
    congrArg (· :: decodeBytes rest) (Char.ofNat_toNat c).symm
  rw [same]
  simp only [String.utf8EncodeChar]
  split
  · rename_i small
    exact decodeBytes_one small
  · split
    · rename_i large small
      exact decodeBytes_two (by omega) small
    · split
      · rename_i large small
        exact decodeBytes_three (by omega) small (by omega)
      · exact decodeBytes_four (by omega) (by omega)

/-- A text is decoded from its bytes as it was. -/
theorem decodeBytes_encodeChars (cs : List Char) : decodeBytes (encodeChars cs) = cs := by
  induction cs with
  | nil =>
      rw [encodeChars, List.flatMap_nil, decodeBytes]
  | cons c rest ih =>
      rw [encodeChars, List.flatMap_cons, decodeBytes_utf8EncodeChar]
      exact congrArg _ ih

end Canvas.Text
