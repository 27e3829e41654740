import Canvas.Json.Decoding

/-!
# Shapes of structures

A `Shape` describes once how a structure stands in JSON: its fields in order, each with its name,
its decoder and its encoder. From this description come the encoder and the decoder of the whole. A
structure may be written as an object, in any order and with members that belong to no field, or as
the list of its fields in order.
-/

namespace Canvas.Json

/-- What becomes of a field that is not written.

A `required` field is missed. An `optional` one has a value of its own when it is absent from an
object, but it has its place in a list. One with a `default` may be left out of both, at the end of
the list. -/
inductive Presence (α : Type) where
  | required
  | optional (absent : α)
  | default (value : α)

/-- A field of a structure. The encoder may leave the field out. -/
structure Field (α : Type) where
  name : String
  presence : Presence α
  decode : Decoder α
  encode : α → Option Json

namespace Field

/-- A field that is always written. -/
def required {α : Type} (name : String) (decode : Decoder α) (encode : α → Json) : Field α :=
  ⟨name, .required, decode, fun value => some (encode value)⟩

/-- A field that has a default and is always written. -/
def defaulted {α : Type} (name : String) (decode : Decoder α) (encode : α → Json) (value : α) :
    Field α :=
  ⟨name, .default value, decode, fun value => some (encode value)⟩

/-- A field that may be `null` or absent and is written as `null` then. -/
def optional {α : Type} (name : String) (decode : Decoder α) (encode : α → Json) :
    Field (Option α) :=
  ⟨name, .optional none, nullable decode, fun value => some (value.elim .null encode)⟩

/-- A field that may be `null` or absent and is left out then. -/
def omittable {α : Type} (name : String) (decode : Decoder α) (encode : α → Json) :
    Field (Option α) :=
  ⟨name, .optional none, nullable decode, fun value => value.map encode⟩

/-- A string field. -/
def string (name : String) : Field String := required name Json.string .str

/-- A record field. -/
def record (name : String) : Field Record := required name Json.record .ofRecord

/-- A field for a natural number. -/
def natural (name : String) (decode : Decoder Nat) : Field Nat :=
  required name decode fun n => .int n

/-- The value of a field that is absent from an object. -/
def absent {α : Type} (field : Field α) : Except DecodeError α :=
  match field.presence with
  | .required => .error (.missingField field.name)
  | .optional value | .default value => .ok value

end Field

/-- The fields of a structure, whose values together form a nested pair. -/
inductive Fields : Type → Type 1 where
  | nil : Fields Unit
  | cons {α β : Type} (field : Field α) (rest : Fields β) : Fields (α × β)

namespace Fields

/-- The number of fields. -/
def count : {τ : Type} → Fields τ → Nat
  | _, .nil => 0
  | _, .cons _ rest => rest.count + 1

/-- The members that stand for the values of the fields, in order. -/
def encode : {τ : Type} → Fields τ → τ → List (String × Json)
  | _, .nil, _ => []
  | _, .cons field rest, (value, values) =>
    match field.encode value with
    | some json => (field.name, json) :: rest.encode values
    | none => rest.encode values

/-- A place for each field, filled as its member is met. -/
def Slots : {τ : Type} → Fields τ → Type
  | _, .nil => Unit
  | _, @Fields.cons α _ _ rest => Option α × rest.Slots

/-- All places empty. -/
def vacant : {τ : Type} → (fields : Fields τ) → fields.Slots
  | _, .nil => ()
  | _, .cons _ rest => (none, rest.vacant)

/-- Decode a member into its place; none if no field has its name. -/
def fill (mode : Mode) (name : String) (document : Document) :
    {τ : Type} → (fields : Fields τ) → fields.Slots → Option (Except DecodeError fields.Slots)
  | _, .nil, _ => none
  | _, .cons field rest, slots =>
    if field.name = name then
      some <|
        match slots.1 with
        | some _ => .error (.duplicateField name)
        | none => do
          let value ← field.decode mode document
          return (some value, slots.2)
    else
      match fill mode name document rest slots.2 with
      | none => none
      | some result => some ((slots.1, ·) <$> result)

/-- Decode members in the order in which they stand. Others are passed over. -/
def fillAll (mode : Mode) {τ : Type} (fields : Fields τ) :
    fields.Slots → List (Except Flaw String × Document) → Except DecodeError fields.Slots
  | slots, [] => .ok slots
  | slots, (name, document) :: rest => do
    let name ← Document.demand name
    match fields.fill mode name document slots with
    | some result => do
      let slots ← result
      fields.fillAll mode slots rest
    | none => do
      Document.demand document.skip
      fields.fillAll mode slots rest

/-- The values of the fields once all members were met. -/
def collect : {τ : Type} → (fields : Fields τ) → fields.Slots → Except DecodeError τ
  | _, .nil, _ => .ok ()
  | _, .cons field rest, slots => do
    let value ← slots.1.elim field.absent .ok
    let values ← rest.collect slots.2
    return (value, values)

/-- Decode an object. -/
def decodeMembers (mode : Mode) {τ : Type} (fields : Fields τ)
    (members : List (Except Flaw String × Document)) (fault : Option Fault) :
    Except DecodeError τ := do
  let slots ← fields.fillAll mode fields.vacant members
  Document.demand (Document.closeRead fault)
  fields.collect slots

/-- Decode the first items of a list, each into the next field. `expected` tells what a list that is
too short should have been. The items that are left over are returned. -/
def decodeItems (mode : Mode) (expected : String) (fault : Option Fault) :
    {τ : Type} → Fields τ → (position : Nat) → List Document →
      Except DecodeError (τ × List Document)
  | _, .nil, _, documents => .ok ((), documents)
  | _, .cons field rest, position, document :: documents => do
    let value ← field.decode mode document
    let (values, left) ← decodeItems mode expected fault rest (position + 1) documents
    return ((value, values), left)
  | _, .cons field rest, position, [] => do
    Document.demand (Document.closeRead fault)
    match field.presence with
    | .default value => do
      let (values, left) ← decodeItems mode expected fault rest position []
      return ((value, values), left)
    | _ => throw (.invalidLength position expected)

end Fields

/-- The end of a list that holds a structure: no item may be left over. -/
def closeItems (mode : Mode) (total : Nat) (left : List Document) (fault : Option Fault) :
    Except DecodeError Unit :=
  match left, fault with
  | [], none => .ok ()
  | [], some ⟨.endInList, _⟩ => .error (.malformed .endInList)
  | [], some ⟨.trailingComma, _⟩ => .error (.malformed .trailingComma)
  | _, _ =>
    if mode.isStreaming then .error (.malformed .trailingCharacters)
    else .error (.invalidLength total "fewer elements in array")

/-- How a structure stands in JSON. -/
structure Shape (α : Type) : Type 1 where
  name : String
  {carrier : Type}
  fields : Fields carrier
  make : carrier → α
  split : α → carrier
  make_split : ∀ value, make (split value) = value := by intro value; rfl

namespace Shape

variable {α : Type} (shape : Shape α)

/-- The members that stand for a structure, in order of its fields. -/
def members (value : α) : List (String × Json) := shape.fields.encode (shape.split value)

/-- A structure as an object. -/
def encode (value : α) : Json := .obj (shape.members value)

/-- What a list that is too short should have been. -/
def expectedItems : String :=
  "struct " ++ shape.name ++ " with " ++ toString shape.fields.count
    ++ (if shape.fields.count = 1 then " element" else " elements")

/-- Decode a structure from an object or from the list of its fields. -/
def decode : Decoder α := fun mode document =>
  match document with
  | .obj members fault => shape.make <$> shape.fields.decodeMembers mode members fault
  | .arr documents fault => do
    let (values, left) ← shape.fields.decodeItems mode shape.expectedItems fault 0 documents
    closeItems mode documents.length left fault
    return shape.make values
  | other => other.mismatch ("struct " ++ shape.name)

end Shape

end Canvas.Json
