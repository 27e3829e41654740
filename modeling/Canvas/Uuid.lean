import Canvas.Json.Shape
import Canvas.Text.Digit

/-!
# Universally unique identifiers

Runs and steps are identified by 128-bit numbers. They are written as 32 lower-case hexadecimal
digits in groups of 8, 4, 4, 4 and 12. They are read in either case, with all hyphens or none, and
the hyphenated form may stand in braces or behind `urn:uuid:`, in either case too.
-/

namespace Canvas

/-- An identifier of 128 bits. -/
structure Uuid where
  bits : BitVec 128
  deriving DecidableEq, Inhabited

namespace Uuid

/-- The identifier with all bits zero. -/
def nil : Uuid := ⟨0⟩

/-- The random identifier with the given bits, but for those that mark it as random: version 4 and
variant 1. -/
def ofRandom (bits : BitVec 128) : Uuid :=
  let cleared := bits &&& ~~~((0xF : BitVec 128) <<< 76) &&& ~~~((0x3 : BitVec 128) <<< 62)
  ⟨cleared ||| ((0x4 : BitVec 128) <<< 76) ||| ((0x2 : BitVec 128) <<< 62)⟩

/-- The last `count` hexadecimal digits of a number. -/
def hexDigits : (count : Nat) → Nat → List Char
  | 0, _ => []
  | count + 1, n => hexDigits count (n / 16) ++ [Nat.digitChar (n % 16)]

/-- The number with the given hexadecimal digits. -/
def ofHexDigits? (digits : List Char) : Option Nat :=
  digits.foldlM (fun n c => (Text.hexValue? c).map (n * 16 + ·)) 0

/-- The lengths of the first four groups. -/
def groups : List Nat := [8, 4, 4, 4]

/-- Join digits to groups with hyphens between them. -/
def hyphenate : List Nat → List Char → List Char
  | [], digits => digits
  | n :: rest, digits => digits.take n ++ '-' :: hyphenate rest (digits.drop n)

/-- The digits of groups with hyphens between them; none if a hyphen is not in its place. -/
def unhyphenate? : List Nat → List Char → Option (List Char)
  | [], cs => some cs
  | n :: rest, cs =>
    match cs.drop n with
    | '-' :: tail => (unhyphenate? rest tail).map (cs.take n ++ ·)
    | _ => none

/-- The written form. -/
def toString (id : Uuid) : String :=
  String.ofList (hyphenate groups (hexDigits 32 id.bits.toNat))

instance : ToString Uuid := ⟨toString⟩

/-- Exactly 32 hexadecimal digits. -/
def ofDigits? (digits : List Char) : Option Uuid :=
  if digits.length = 32 then (ofHexDigits? digits).map fun n => ⟨BitVec.ofNat 128 n⟩ else none

/-- Exactly 36 characters with hyphens between the groups. -/
def ofHyphenated? (cs : List Char) : Option Uuid :=
  if cs.length = 36 then (unhyphenate? groups cs).bind ofDigits? else none

/-- The form inside braces, without the closing one. -/
def ofBraced? (cs : List Char) : Option Uuid :=
  if cs.getLast? = some '\x7d' then ofHyphenated? cs.dropLast else none

/-- What marks an identifier as a name among others, in lower case. -/
def urn : List Char := "urn:uuid:".toList

/-- Read an identifier in any of its forms. -/
def ofString? (s : String) : Option Uuid :=
  match s.toList with
  | '\x7b' :: rest => ofBraced? rest
  | cs =>
    if cs.length = 32 then ofDigits? cs
    else if (cs.take urn.length).map Char.toLower = urn then ofHyphenated? (cs.drop urn.length)
    else ofHyphenated? cs

/-- Decode an identifier. -/
def decode : Json.Decoder Uuid := Json.notated "a formatted UUID string" ofString? .badUuid

/-- Encode an identifier. -/
def encode (id : Uuid) : Json := .str id.toString

end Uuid

end Canvas
