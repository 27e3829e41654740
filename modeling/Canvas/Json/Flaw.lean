/-!
# Flaws in a JSON text

A text can fail to be JSON in a fixed number of ways. A reader that passes over a value without
keeping it checks less than one that needs the value, and finds another flaw first in a few
places; a `Fault` therefore names both. How deeply lists and objects are nested matters only to a
reader that needs the value.
-/

namespace Canvas.Json

/-- A reason why a text is not JSON. A text that stops where a value is due ends in a value; one
that stops within a word or a numeral ends in a token. -/
inductive Flaw where
  | endInValue
  | endInToken
  | endInList
  | endInObject
  | endInString
  | expectedColon
  | expectedListEnd
  | expectedObjectEnd
  | expectedWord
  | expectedValue
  | keyNotString
  | trailingComma
  | trailingCharacters
  | invalidNumber
  | numberOutOfRange
  | invalidEscape
  | controlCharacter
  | loneSurrogate
  | cutSurrogatePair
  | tooDeep
  deriving DecidableEq, Inhabited

namespace Flaw

/-- The wording of a flaw. -/
def message : Flaw → String
  | endInValue | endInToken => "EOF while parsing a value"
  | endInList => "EOF while parsing a list"
  | endInObject => "EOF while parsing an object"
  | endInString => "EOF while parsing a string"
  | expectedColon => "expected `:`"
  | expectedListEnd => "expected `,` or `]`"
  | expectedObjectEnd => "expected `,` or `\x7d`"
  | expectedWord => "expected ident"
  | expectedValue => "expected value"
  | keyNotString => "key must be a string"
  | trailingComma => "trailing comma"
  | trailingCharacters => "trailing characters"
  | invalidNumber => "invalid number"
  | numberOutOfRange => "number out of range"
  | invalidEscape => "invalid escape"
  | controlCharacter => "control character (\\u0000-\\u001F) found while parsing a string"
  | loneSurrogate => "lone leading surrogate in hex escape"
  | cutSurrogatePair => "unexpected end of hex escape"
  | tooDeep => "recursion limit exceeded"

/-- Whether the text stops too early, rather than holding something wrong. -/
def isEnd : Flaw → Bool
  | endInValue | endInToken | endInList | endInObject | endInString => true
  | _ => false

/-- Whether the flaw lies in a word or a numeral, behind a first character that may begin one. -/
def isInToken : Flaw → Bool
  | endInToken | expectedWord | invalidNumber | numberOutOfRange => true
  | _ => false

end Flaw

/-- The flaw met by a reader that needs the value, and the one met when passing over it. -/
structure Fault where
  onRead : Flaw
  onSkip : Flaw
  deriving DecidableEq, Inhabited

/-- A fault that is the same for both readers. -/
def Fault.both (flaw : Flaw) : Fault := ⟨flaw, flaw⟩

end Canvas.Json
