import Canvas.Decimal.Text
import Canvas.Json.Basic

/-!
# Writing JSON

`compress` writes a value without blanks. `pretty` puts every item and member on a line of its own,
two blanks deeper than its container; empty containers stay on one line.
-/

namespace Canvas.Json

/-- A lower-case hexadecimal digit. -/
def hexDigit (n : Nat) : Char := Nat.digitChar n

/-- A character inside a string: quotes, backslashes and control characters are escaped. -/
def escapeChar (c : Char) : List Char :=
  if c = '"' then ['\\', '"']
  else if c = '\\' then ['\\', '\\']
  else if c = '\n' then ['\\', 'n']
  else if c = '\r' then ['\\', 'r']
  else if c = '\t' then ['\\', 't']
  else if c.toNat = 8 then ['\\', 'b']
  else if c.toNat = 12 then ['\\', 'f']
  else if c.toNat < 32 then ['\\', 'u', '0', '0', hexDigit (c.toNat / 16), hexDigit (c.toNat % 16)]
  else [c]

/-- A string in quotes. -/
def quote (s : String) : String := "\"" ++ String.ofList (s.toList.flatMap escapeChar) ++ "\""

/-- A float; infinities and NaN have no notation and become `null`. -/
def floatText (x : Float) : String :=
  if x.isFinite then Decimal.text x else "null"

mutual

/-- A value without blanks. -/
def compress : Json → String
  | .null => "null"
  | .bool b => if b then "true" else "false"
  | .int i => toString i
  | .float x => floatText x
  | .str s => quote s
  | .arr items => "[" ++ ",".intercalate (compressItems items) ++ "]"
  | .obj members => "\x7b" ++ ",".intercalate (compressMembers members) ++ "\x7d"

def compressItems : List Json → List String
  | [] => []
  | item :: rest => compress item :: compressItems rest

def compressMembers : List (String × Json) → List String
  | [] => []
  | (name, value) :: rest => (quote name ++ ":" ++ compress value) :: compressMembers rest

end

/-- A container over several lines: each part indented by one step more than its brackets. -/
def block (indent : Nat) (opening closing : String) (parts : List String) : String :=
  let margin (n : Nat) := "\n" ++ String.ofList (List.replicate (2 * n) ' ')
  if parts.isEmpty then opening ++ closing
  else
    opening ++ margin (indent + 1) ++ ("," ++ margin (indent + 1)).intercalate parts
      ++ margin indent ++ closing

mutual

/-- A value that starts at a given depth of indentation. -/
def prettyAt (indent : Nat) : Json → String
  | .arr items => block indent "[" "]" (prettyItems (indent + 1) items)
  | .obj members => block indent "\x7b" "\x7d" (prettyMembers (indent + 1) members)
  | .null => "null"
  | .bool b => if b then "true" else "false"
  | .int i => toString i
  | .float x => floatText x
  | .str s => quote s

def prettyItems (indent : Nat) : List Json → List String
  | [] => []
  | item :: rest => prettyAt indent item :: prettyItems indent rest

def prettyMembers (indent : Nat) : List (String × Json) → List String
  | [] => []
  | (name, value) :: rest =>
    (quote name ++ ": " ++ prettyAt indent value) :: prettyMembers indent rest

end

/-- A value over several lines. -/
def pretty (value : Json) : String := prettyAt 0 value

end Canvas.Json
