import Canvas.Dict

/-!
# JSON values and records

`Json` is a value as it is exchanged with users: numbers without fraction or exponent are integers,
all others are floats, and the two never compare equal. The members of an object stand in the order
in which they are written. A `Record` is an object with its members sorted by name; node
configurations and the inputs and outputs of steps are records.
-/

namespace Canvas

/-- A JSON value. -/
inductive Json where
  | null
  | bool (value : Bool)
  | int (value : Int)
  | float (value : Float)
  | str (value : String)
  | arr (items : List Json)
  | obj (members : List (String × Json))
  deriving BEq, Inhabited

/-- An object whose members are sorted by name. -/
abbrev Record := Dict Json

namespace Json

/-- A record as a value. -/
def ofRecord (record : Record) : Json := .obj record.entries

/-- The members of an object as a record. -/
def record? : Json → Option Record
  | .obj members => some (Dict.ofList members)
  | _ => none

/-- A list of strings as a value. -/
def ofStrings (items : List String) : Json := .arr (items.map .str)

end Json

end Canvas
