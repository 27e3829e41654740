import Canvas.Text.Digit
import Canvas.Text.Utf8

/-!
# Percent escapes

An escape is a percent sign and two hexadecimal digits; it stands for the byte with that value. A
percent sign with anything else behind it stands for itself.
-/

namespace Canvas.Http.Percent

/-- The byte that two characters behind a percent sign name. -/
def escaped? (high low : UInt8) : Option UInt8 := do
  let high ← Text.hexValue? (Char.ofNat high.toNat)
  let low ← Text.hexValue? (Char.ofNat low.toNat)
  return UInt8.ofNat (high * 16 + low)

/-- Put bytes in place of their escapes, except for those that are to stay escaped. -/
def unescape (stays : UInt8 → Bool) : List UInt8 → List UInt8
  | byte :: high :: low :: rest =>
    match if byte = 0x25 then escaped? high low else none with
    | some value =>
      if stays value then byte :: unescape stays (high :: low :: rest)
      else value :: unescape stays rest
    | none => byte :: unescape stays (high :: low :: rest)
  | bytes => bytes

/-- A text with its escapes decoded, except for those that are to stay. -/
def decodeExcept (stays : UInt8 → Bool) (text : String) : String :=
  String.ofList (Text.decodeBytes (unescape stays (Text.encodeChars text.toList)))

/-- A text with all its escapes decoded. -/
def decode (text : String) : String := decodeExcept (fun _ => false) text

end Canvas.Http.Percent
