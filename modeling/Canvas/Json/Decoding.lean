import Canvas.Json.Printer
import Canvas.Json.Reader
import Canvas.Text.Visible

/-!
# Decoding

A decoder asks a document for a value of some type. The first problem met from left to right is the
error. Documents made from a text and documents made from a value at hand follow the same rules but
for a few places, where a text fails as a text; the `Mode` tells them apart.
-/

namespace Canvas.Json

/-- What was found in place of something else. -/
inductive Found where
  | null
  | bool (value : Bool)
  | int (value : Int)
  | float (value : Float)
  | str (value : String)
  | sequence
  | map

/-- A character inside a quoted string of an error text. -/
def quotedChar (c : Char) : List Char :=
  if c = '"' then ['\\', '"']
  else if c = '\\' then ['\\', '\\']
  else if c = '\n' then ['\\', 'n']
  else if c = '\r' then ['\\', 'r']
  else if c = '\t' then ['\\', 't']
  else if c.toNat = 0 then ['\\', '0']
  else if Text.isVisible c then [c]
  else ['\\', 'u', '\x7b'] ++ Nat.toDigits 16 c.toNat ++ ['\x7d']

namespace Found

/-- The wording of what was found. -/
def text : Found → String
  | null => "null"
  | bool b => "boolean `" ++ (if b then "true" else "false") ++ "`"
  | int i => "integer `" ++ toString i ++ "`"
  | float x => "floating point `" ++ Decimal.text x ++ "`"
  | str s => "string \"" ++ String.ofList (s.toList.flatMap quotedChar) ++ "\""
  | sequence => "sequence"
  | map => "map"

end Found

/-- A reason why a document does not hold a value of the wanted type. -/
inductive DecodeError where
  | malformed (flaw : Flaw)
  | invalidType (found : Found) (expected : String)
  | invalidValue (found : Found) (expected : String)
  | invalidLength (length : Nat) (expected : String)
  | missingField (name : String)
  | duplicateField (name : String)
  | unknownVariant (name : String) (variants : List String)
  | badUuid
  | badTimestamp

namespace DecodeError

/-- The wording of an error. -/
def message : DecodeError → String
  | malformed flaw => flaw.message
  | invalidType found expected => "invalid type: " ++ found.text ++ ", expected " ++ expected
  | invalidValue found expected => "invalid value: " ++ found.text ++ ", expected " ++ expected
  | invalidLength length expected =>
    "invalid length " ++ toString length ++ ", expected " ++ expected
  | missingField name => "missing field `" ++ name ++ "`"
  | duplicateField name => "duplicate field `" ++ name ++ "`"
  | unknownVariant name variants =>
    "unknown variant `" ++ name ++ "`, expected one of "
      ++ ", ".intercalate (variants.map fun v => "`" ++ v ++ "`")
  | badUuid => "bad uuid"
  | badTimestamp => "bad timestamp"

end DecodeError

/-- How a document came about: whether it was read from a text, and whether it was set aside whole
before its type was known. -/
structure Mode where
  isText : Bool
  isBuffered : Bool
  deriving DecidableEq

namespace Mode

/-- A value at hand. -/
def value : Mode := ⟨false, false⟩

/-- A text. -/
def text : Mode := ⟨true, false⟩

/-- The same document, set aside. -/
def buffered (mode : Mode) : Mode := ⟨mode.isText, true⟩

/-- Whether kinds are told apart by the next character of a text. -/
def isStreaming (mode : Mode) : Bool := mode.isText && !mode.isBuffered

end Mode

/-- A decoder for values of a type. -/
abbrev Decoder (α : Type) := Mode → Document → Except DecodeError α

mutual

/-- The same value with the members of every object in order of name; of repeated names the last
counts. -/
def normalize : Json → Json
  | .arr items => .arr (normalizeItems items)
  | .obj members => .ofRecord (Dict.ofList (normalizeMembers members))
  | value => value

def normalizeItems : List Json → List Json
  | [] => []
  | item :: rest => normalize item :: normalizeItems rest

def normalizeMembers : List (String × Json) → List (String × Json)
  | [] => []
  | (name, value) :: rest => (name, normalize value) :: normalizeMembers rest

end

namespace Document

/-- What a document holds, as far as its first character tells. -/
def found : Document → Except DecodeError Found
  | .null => .ok .null
  | .bool b => .ok (.bool b)
  | .int i => .ok (.int i)
  | .float x => .ok (.float x)
  | .str s => .ok (.str s)
  | .arr _ _ => .ok .sequence
  | .obj _ _ => .ok .map
  | .unreadable flaw _ => .error (.malformed flaw)

/-- The error of a document that is not of the expected kind. -/
def mismatch {α : Type} (document : Document) (expected : String) : Except DecodeError α := do
  let found ← document.found
  throw (.invalidType found expected)

/-- Take over the first flaw of a text. -/
def demand {α : Type} (result : Except Flaw α) : Except DecodeError α :=
  result.mapError .malformed

/-- Read a document to its end and set it aside. -/
def buffer (document : Document) : Except DecodeError Document := do
  let _ ← demand document.toJson
  return document

end Document

open Document (demand)

/-- Any value. The objects of a text are put in order. -/
def anyValue : Decoder Json := fun mode document => do
  let value ← demand document.toJson
  return if mode.isText then normalize value else value

/-- A string. -/
def string : Decoder String := fun _ document =>
  match document with
  | .str s => .ok s
  | other => other.mismatch "a string"

/-- A truth value. -/
def boolean : Decoder Bool := fun _ document =>
  match document with
  | .bool b => .ok b
  | other => other.mismatch "a boolean"

/-- A natural number; `width` names its type in errors. -/
def natural (width : String) : Decoder Nat := fun _ document =>
  match document with
  | .int (.ofNat n) => .ok n
  | .int i => .error (.invalidValue (.int i) width)
  | other => other.mismatch width

/-- A counter of 64 bits. -/
def counter : Decoder Nat := natural "u64"

/-- A size or position. -/
def size : Decoder Nat := natural "usize"

/-- A string that has to satisfy a notation of its own. -/
def notated {α : Type} (expected : String) (parse : String → Option α) (error : DecodeError) :
    Decoder α := fun _ document =>
  match document with
  | .str s => (parse s).elim (.error error) .ok
  | other => other.mismatch expected

/-- A record. -/
def record : Decoder Record := fun mode document =>
  match document with
  | .obj members fault => do
    match ← anyValue mode (.obj members fault) with
    | .obj members => return Dict.ofList members
    | _ => return Dict.empty
  | other => other.mismatch "a map"

/-- Items of one type, one after the other. -/
def items {α : Type} (item : Decoder α) (mode : Mode) :
    List Document → Except DecodeError (List α)
  | [] => .ok []
  | first :: rest => do
    let first ← item mode first
    let rest ← items item mode rest
    return first :: rest

/-- A list with items of one type. -/
def list {α : Type} (item : Decoder α) : Decoder (List α) := fun mode document =>
  match document with
  | .arr documents fault => do
    let values ← items item mode documents
    demand (Document.closeRead fault)
    return values
  | other => other.mismatch "a sequence"

/-- A value or `null`. -/
def nullable {α : Type} (value : Decoder α) : Decoder (Option α) := fun mode document =>
  match document with
  | .null => .ok none
  | other => some <$> value mode other

/-- The value `null`. What was set aside may also be an empty object. -/
def unit : Decoder Unit := fun mode document =>
  match document with
  | .null => .ok ()
  | .obj [] none => if mode.isBuffered then .ok () else document.mismatch "unit"
  | other => other.mismatch "unit"

/-- The value with a name. -/
def named {α : Type} (variants : List (String × α)) (name : String) : Except DecodeError α :=
  match variants.find? (·.1 = name) with
  | some (_, value) => .ok value
  | none => .error (.unknownVariant name (variants.map (·.1)))

/-- One of several names, as a string and nothing else. -/
def identifier {α : Type} (variants : List (String × α)) : Decoder α := fun _ document =>
  match document with
  | .str name => named variants name
  | other => other.mismatch "variant identifier"

/-- One of several names: a string, or an object with the name as its only member and `null` as its
value. A text that is neither, by its first character, is malformed, and so is one whose object goes
on. -/
def choice {α : Type} (variants : List (String × α)) : Decoder α := fun mode document =>
  match document with
  | .str name => named variants name
  | .obj members fault =>
    if mode.isStreaming then
      match members with
      | [] =>
        match fault with
        | some ⟨.endInObject, _⟩ => .error (.malformed .endInValue)
        | some ⟨.keyNotString, _⟩ | none => .error (.malformed .expectedValue)
        | some fault => .error (.malformed fault.onRead)
      | (name, value) :: rest => do
        let name ← demand name
        let chosen ← named variants name
        unit mode value
        match rest, fault with
        | [], none => return chosen
        | [], some ⟨.endInObject, _⟩ => throw (.malformed .endInObject)
        | _, _ => throw (.malformed .expectedValue)
    else
      match members with
      | [(name, value)] => do
        let name ← demand name
        let chosen ← named variants name
        unit mode value
        return chosen
      | _ => .error (.invalidValue .map "map with a single key")
  | .unreadable flaw _ =>
    .error (.malformed (if mode.isStreaming && flaw.isInToken then .expectedValue else flaw))
  | other =>
    if mode.isStreaming then .error (.malformed .expectedValue)
    else other.mismatch "string or map"

/-- Decode a value at hand. -/
def decode {α : Type} (decoder : Decoder α) (value : Json) : Except DecodeError α :=
  decoder .value (.ofJson value)

/-- Decode a text, which must hold nothing else. -/
def decodeText {α : Type} (decoder : Decoder α) (text : String) : Except DecodeError α := do
  let (document, trailing) := read text
  let value ← decoder .text document
  if trailing then throw (.malformed .trailingCharacters)
  return value

/-- Parse a text. -/
def parse (text : String) : Except DecodeError Json := decodeText anyValue text

end Canvas.Json
