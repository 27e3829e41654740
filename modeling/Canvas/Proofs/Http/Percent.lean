import Canvas.Http.Percent
import Canvas.Proofs.Text.Utf8

/-!
# Texts with escapes

A text that is to stand in a target is written with escapes for all bytes that could mean something
else there. A path is decoded in two rounds, of which the first leaves some escapes alone. What it
makes of the written text is the text with just these bytes escaped, and the second round makes the
text itself of it.
-/

namespace Canvas.Http.Percent

open Text (encodeChars decodeBytes)

/-- The byte of a hexadecimal digit. -/
def digit (n : Nat) : UInt8 := UInt8.ofNat (Nat.digitChar n).toUpper.toNat

/-- The escape of a byte. -/
def escape (byte : UInt8) : List UInt8 :=
  [0x25, digit (byte.toNat / 16), digit (byte.toNat % 16)]

/-- Put escapes in place of some bytes. -/
def escapeWhere (needed : UInt8 → Bool) (bytes : List UInt8) : List UInt8 :=
  bytes.flatMap fun byte => if needed byte then escape byte else [byte]

/-- The character with the number of a byte. -/
def charOf (byte : UInt8) : Char := Char.ofNat byte.toNat

/-- Whether a byte is written as it is: a letter, a digit, or one of four marks. -/
def isPlain (byte : UInt8) : Bool :=
  byte < 0x80 && ((charOf byte).isAlphanum || ['-', '.', '_', '~'].contains (charOf byte))

/-- A text as it is written in a target. -/
def encode (text : String) : String :=
  String.ofList ((escapeWhere (!isPlain ·) (encodeChars text.toList)).map charOf)

section Rounds

variable {stays needed : UInt8 → Bool} {byte : UInt8} {rest : List UInt8}

theorem digit_spec : ∀ n < 16, Text.hexValue? (charOf (digit n)) = some n ∧
    isPlain (digit n) = true := by
  decide

theorem ne_of_plain {other : UInt8} (plain : isPlain byte = true) (unplain : isPlain other = false) :
    byte ≠ other := by
  rintro rfl
  rw [plain] at unplain
  contradiction

theorem lt_of_plain (plain : isPlain byte = true) : byte < 0x80 :=
  of_decide_eq_true (Bool.and_eq_true_iff.1 plain).1

theorem escaped?_digits (byte : UInt8) :
    escaped? (digit (byte.toNat / 16)) (digit (byte.toNat % 16)) = some byte := by
  have bound : byte.toNat < 256 := byte.toNat_lt
  have high := (digit_spec (byte.toNat / 16) (by omega)).1
  have low := (digit_spec (byte.toNat % 16) (by omega)).1
  have value : byte.toNat / 16 * 16 + byte.toNat % 16 = byte.toNat := by omega
  have read : escaped? (digit (byte.toNat / 16)) (digit (byte.toNat % 16)) =
      some (UInt8.ofNat (byte.toNat / 16 * 16 + byte.toNat % 16)) := by
    unfold charOf at high low
    rw [escaped?, high, low]
    rfl
  rw [read, value, UInt8.ofNat_toNat]

@[simp] theorem unescape_nil : unescape stays [] = [] := rfl

theorem unescape_cons_of_ne (h : byte ≠ 0x25) (rest : List UInt8) :
    unescape stays (byte :: rest) = byte :: unescape stays rest := by
  cases rest with
  | nil => rfl
  | cons first others =>
      cases others with
      | nil => rfl
      | cons second others => rw [unescape, if_neg h]

/-- An escape is left alone or replaced by its byte. -/
theorem unescape_escape (byte : UInt8) (rest : List UInt8) :
    unescape stays (escape byte ++ rest) =
      (if stays byte then escape byte else [byte]) ++ unescape stays rest := by
  have bound : byte.toNat < 256 := byte.toNat_lt
  have sign : isPlain 0x25 = false := by decide
  have high := ne_of_plain (digit_spec (byte.toNat / 16) (by omega)).2 sign
  have low := ne_of_plain (digit_spec (byte.toNat % 16) (by omega)).2 sign
  change unescape stays (0x25 :: _ :: _ :: rest) = _
  rw [unescape, if_pos rfl, escaped?_digits]
  change (if stays byte then 0x25 :: unescape stays (_ :: _ :: rest)
    else byte :: unescape stays rest) = _
  rw [unescape_cons_of_ne high, unescape_cons_of_ne low]
  split
  · rfl
  · rfl

/-- If percent signs are escaped, just the escapes that are to stay are left. -/
theorem unescape_escapeWhere (percent : needed 0x25 = true) (bytes rest : List UInt8) :
    unescape stays (escapeWhere needed bytes ++ rest) =
      escapeWhere (fun byte => needed byte && stays byte) bytes ++ unescape stays rest := by
  induction bytes with
  | nil => rfl
  | cons byte others ih =>
      rw [escapeWhere, List.flatMap_cons, List.append_assoc, escapeWhere, List.flatMap_cons,
        List.append_assoc, ← escapeWhere, ← escapeWhere, ← ih]
      cases escaped : needed byte with
      | true => simp only [if_true, Bool.true_and, unescape_escape]
      | false =>
          have other : byte ≠ 0x25 := by
            rintro rfl
            rw [percent] at escaped
            contradiction
          simp only [Bool.false_and, Bool.false_eq_true, if_false, List.singleton_append]
          exact unescape_cons_of_ne other _

theorem escapeWhere_append (bytes others : List UInt8) :
    escapeWhere needed (bytes ++ others) = escapeWhere needed bytes ++ escapeWhere needed others :=
  List.flatMap_append

theorem escapeWhere_of_unneeded {bytes : List UInt8}
    (unneeded : ∀ byte ∈ bytes, needed byte = false) : escapeWhere needed bytes = bytes := by
  have same : escapeWhere needed bytes = bytes.flatMap fun byte => [byte] := by
    refine List.flatMap_congr fun byte mem => ?_
    rw [unneeded byte mem]
    rfl
  rw [same, List.flatMap_singleton']

theorem escapeWhere_false (bytes : List UInt8) : escapeWhere (fun _ => false) bytes = bytes :=
  List.flatMap_singleton' bytes

end Rounds

section Texts

variable {stays needed : UInt8 → Bool} {text : String} {byte : UInt8} {bytes : List UInt8} {c : Char}

theorem encodeChar_of_small (small : c.toNat < 0x80) :
    String.utf8EncodeChar c = [UInt8.ofNat c.toNat] := by
  have first : c.val.toNat ≤ 0x7F := Nat.le_of_lt_succ small
  simp only [String.utf8EncodeChar, if_pos first]
  rfl

/-- The bytes of a character are large unless it is a small one. -/
theorem le_of_mem_encodeChar (large : 0x80 ≤ c.toNat) :
    ∀ byte ∈ String.utf8EncodeChar c, 0x80 ≤ byte.toNat := by
  have first : ¬ c.val.toNat ≤ 0x7F := Nat.not_le.2 large
  have large {n : Nat} (low : 0x80 ≤ n) (high : n < 256) : 0x80 ≤ (UInt8.ofNat n).toNat := by
    rwa [UInt8.toNat_ofNat_of_lt' high]
  have last (n : Nat) : 0x80 ≤ (UInt8.ofNat (n % 64 + 128)).toNat :=
    large (Nat.le_add_left _ _) (by omega)
  simp only [String.utf8EncodeChar, if_neg first]
  split
  · simp only [List.forall_mem_cons, List.not_mem_nil, false_implies, implies_true, and_true]
    exact ⟨large (by omega) (by omega), last _⟩
  · split
    · simp only [List.forall_mem_cons, List.not_mem_nil, false_implies, implies_true, and_true]
      exact ⟨large (by omega) (by omega), last _, last _⟩
    · simp only [List.forall_mem_cons, List.not_mem_nil, false_implies, implies_true, and_true]
      exact ⟨large (by omega) (by omega), last _, last _, last _⟩

theorem toNat_charOf (byte : UInt8) : (charOf byte).toNat = byte.toNat := by
  have valid : byte.toNat.isValidChar := .inl (Nat.lt_trans byte.toNat_lt (by decide))
  exact (congrArg Char.toNat (dif_pos valid)).trans rfl

/-- Small bytes are those of the characters with their numbers. -/
theorem encodeChars_map_charOf (small : ∀ byte ∈ bytes, byte < 0x80) :
    encodeChars (bytes.map charOf) = bytes := by
  induction bytes with
  | nil => rfl
  | cons byte rest ih =>
      obtain ⟨first, others⟩ := List.forall_mem_cons.1 small
      have one : String.utf8EncodeChar (charOf byte) = [byte] := by
        rw [encodeChar_of_small, toNat_charOf, UInt8.ofNat_toNat]
        rw [toNat_charOf]
        exact first
      rw [encodeChars, List.map_cons, List.flatMap_cons, one]
      exact congrArg _ (ih others)

theorem encodeChars_append (cs others : List Char) :
    encodeChars (cs ++ others) = encodeChars cs ++ encodeChars others :=
  List.flatMap_append

/-- An escape is a percent sign and plain bytes. -/
theorem mem_escape {other : UInt8} (mem : other ∈ escape byte) :
    other = 0x25 ∨ isPlain other = true := by
  have bound : byte.toNat < 256 := byte.toNat_lt
  simp only [escape, List.mem_cons, List.not_mem_nil, or_false] at mem
  rcases mem with percent | rfl | rfl
  · exact .inl percent
  · exact .inr (digit_spec (byte.toNat / 16) (by omega)).2
  · exact .inr (digit_spec (byte.toNat % 16) (by omega)).2

theorem lt_of_mem_escape {other : UInt8} (mem : other ∈ escape byte) : other < 0x80 := by
  rcases mem_escape mem with rfl | plain
  · decide
  · exact lt_of_plain plain

theorem mem_escapeWhere (mem : byte ∈ escapeWhere (!isPlain ·) bytes) :
    byte = 0x25 ∨ isPlain byte = true := by
  obtain ⟨other, -, mem⟩ := List.mem_flatMap.1 mem
  split at mem
  · exact mem_escape mem
  · rename_i plain
    rw [List.mem_singleton.1 mem]
    exact .inr (by simpa using plain)

/-- No other character than percent signs and plain ones is written. -/
theorem charOf_not_mem_encode (other : byte ≠ 0x25) (unplain : isPlain byte = false)
    (text : String) : charOf byte ∉ (encode text).toList := by
  rw [encode, String.toList_ofList]
  intro mem
  obtain ⟨written, within, same⟩ := List.mem_map.1 mem
  obtain rfl : written = byte := by
    rw [← UInt8.toNat_inj, ← toNat_charOf, same, toNat_charOf]
  rcases mem_escapeWhere within with percent | plain
  · exact other percent
  · exact ne_of_plain plain unplain rfl

theorem encodeChars_encode (text : String) :
    encodeChars (encode text).toList = escapeWhere (!isPlain ·) (encodeChars text.toList) := by
  rw [encode, String.toList_ofList]
  apply encodeChars_map_charOf
  intro byte mem
  rcases mem_escapeWhere mem with rfl | plain
  · decide
  · exact lt_of_plain plain

/-- A character, or its escape if it is small and needs one. -/
def respellChar (needed : UInt8 → Bool) (c : Char) : List Char :=
  if c.toNat < 0x80 ∧ needed (UInt8.ofNat c.toNat) then (escape (UInt8.ofNat c.toNat)).map charOf
  else [c]

/-- A text in which just some small characters are escaped. -/
def respell (needed : UInt8 → Bool) (text : String) : String :=
  String.ofList (text.toList.flatMap (respellChar needed))

theorem encodeChars_respellChar (small : ∀ byte, needed byte = true → byte < 0x80) (c : Char) :
    encodeChars (respellChar needed c) = escapeWhere needed (String.utf8EncodeChar c) := by
  unfold respellChar
  by_cases ascii : c.toNat < 0x80
  · rw [encodeChar_of_small ascii]
    by_cases escaped : needed (UInt8.ofNat c.toNat) = true
    · rw [if_pos ⟨ascii, escaped⟩, encodeChars_map_charOf fun _ => lt_of_mem_escape]
      simp [escapeWhere, escaped]
    · rw [if_neg fun both => escaped both.2]
      simp [escapeWhere, escaped, encodeChars, encodeChar_of_small ascii]
  · have unneeded : ∀ byte ∈ String.utf8EncodeChar c, needed byte = false := by
      intro byte mem
      have large := le_of_mem_encodeChar (Nat.not_lt.1 ascii) byte mem
      exact Bool.eq_false_iff.2 fun escaped => Nat.not_lt.2 large (small byte escaped)
    rw [if_neg fun both => ascii both.1, escapeWhere_of_unneeded unneeded]
    exact List.append_nil _

theorem encodeChars_respell (small : ∀ byte, needed byte = true → byte < 0x80) (text : String) :
    encodeChars (respell needed text).toList = escapeWhere needed (encodeChars text.toList) := by
  rw [respell, String.toList_ofList]
  induction text.toList with
  | nil => rfl
  | cons c rest ih =>
      rw [List.flatMap_cons, encodeChars_append, encodeChars_respellChar small, ih, encodeChars,
        encodeChars, List.flatMap_cons, escapeWhere_append]

/-- A text whose escapes are those of just some characters, percent signs among them, is decoded as
the text itself. -/
theorem decode_respell (small : ∀ byte, needed byte = true → byte < 0x80)
    (percent : needed 0x25 = true) (text : String) : decode (respell needed text) = text := by
  have bytes : unescape (fun _ => false) (escapeWhere needed (encodeChars text.toList)) =
      encodeChars text.toList := by
    rw [← List.append_nil (escapeWhere _ _), unescape_escapeWhere percent, unescape_nil,
      List.append_nil]
    simp only [Bool.and_false, escapeWhere_false]
  rw [decode, decodeExcept, encodeChars_respell small, bytes]
  exact (congrArg String.ofList (Text.decodeBytes_encodeChars text.toList)).trans
    (String.ofList_toList)

end Texts

section Paths

variable {stays : UInt8 → Bool} {text : String}

/-- The path whose segments name some texts. -/
def path (names : List String) : List Char := names.flatMap fun name => '/' :: (encode name).toList

/-- If the escapes of some bytes stay when a path is decoded, these bytes are escaped in the segments
that are left, and no others. -/
theorem decodeExcept_path (small : ∀ byte, stays byte = true → byte < 0x80)
    (unplain : ∀ byte, stays byte = true → isPlain byte = false) (names : List String) :
    decodeExcept stays (String.ofList (path names)) =
      String.ofList (names.flatMap fun name => '/' :: (respell stays name).toList) := by
  have needed : (fun byte => !isPlain byte && stays byte) = stays := by
    funext byte
    cases stay : stays byte with
    | true => rw [unplain byte stay]; rfl
    | false => exact Bool.and_false _
  have bytes : unescape stays (encodeChars (path names)) =
      encodeChars (names.flatMap fun name => '/' :: (respell stays name).toList) := by
    have split (part others : List Char) : encodeChars ('/' :: part ++ others) =
        0x2F :: (encodeChars part ++ encodeChars others) := by
      rw [List.cons_append, ← encodeChars_append]
      rfl
    induction names with
    | nil => exact unescape_nil
    | cons name rest ih =>
        rw [path, List.flatMap_cons, List.flatMap_cons, split, split, encodeChars_encode,
          encodeChars_respell small, ← ih, unescape_cons_of_ne (by decide),
          unescape_escapeWhere rfl, needed, path]
  rw [decodeExcept, String.toList_ofList, bytes, Text.decodeBytes_encodeChars]

/-- No slash is left where slashes are escaped. -/
theorem slash_not_mem_respell (slash : stays 0x2F = true) (text : String) :
    '/' ∉ (respell stays text).toList := by
  rw [respell, String.toList_ofList]
  intro mem
  obtain ⟨c, -, mem⟩ := List.mem_flatMap.1 mem
  unfold respellChar at mem
  split at mem
  · obtain ⟨byte, within, same⟩ := List.mem_map.1 mem
    obtain rfl : byte = 0x2F := by
      rw [← UInt8.toNat_inj, ← toNat_charOf, same]
      rfl
    rcases mem_escape within with percent | plain
    · exact absurd percent (by decide)
    · exact absurd plain (by decide)
  · rename_i kept
    obtain rfl := List.mem_singleton.1 mem
    exact kept ⟨by decide, slash⟩

/-- A text of plain characters. -/
def IsPlain (text : String) : Prop :=
  ∀ c ∈ text.toList, c.toNat < 0x80 ∧ isPlain (UInt8.ofNat c.toNat) = true

instance : Decidable (IsPlain text) := List.decidableBAll _ text.toList

theorem isPlain_of_mem_encodeChars (plain : IsPlain text) :
    ∀ byte ∈ encodeChars text.toList, isPlain byte = true := by
  intro byte mem
  obtain ⟨c, hc, mem⟩ := List.mem_flatMap.1 mem
  obtain ⟨small, plain⟩ := plain c hc
  rw [encodeChar_of_small small, List.mem_singleton] at mem
  rwa [mem]

/-- Texts with the same bytes are the same. -/
theorem eq_of_encodeChars_eq {other : String}
    (h : encodeChars text.toList = encodeChars other.toList) : text = other := by
  have chars := congrArg decodeBytes h
  rwa [Text.decodeBytes_encodeChars, Text.decodeBytes_encodeChars, String.toList_inj] at chars

theorem encode_of_plain (plain : IsPlain text) : encode text = text := by
  apply eq_of_encodeChars_eq
  rw [encodeChars_encode]
  apply escapeWhere_of_unneeded
  intro byte mem
  rw [isPlain_of_mem_encodeChars plain byte mem]
  rfl

theorem respell_of_plain (small : ∀ byte, stays byte = true → byte < 0x80)
    (unplain : ∀ byte, stays byte = true → isPlain byte = false) (plain : IsPlain text) :
    respell stays text = text := by
  apply eq_of_encodeChars_eq
  rw [encodeChars_respell small]
  apply escapeWhere_of_unneeded
  intro byte mem
  refine Bool.eq_false_iff.2 fun stay => ?_
  have kept := isPlain_of_mem_encodeChars plain byte mem
  rw [unplain byte stay] at kept
  contradiction

end Paths

end Canvas.Http.Percent
