import Canvas.Json.Basic
import Canvas.Json.Flaw

/-!
# Documents

A `Document` is a value before anyone has asked for it to be of some kind. Read from a text it keeps
what a decoder has to see in order: repeated names, the order of members, and at which place the
text goes wrong. A decoder that stops earlier never meets the fault behind it. A value that is
already at hand becomes a document without faults (`Document.ofJson`).
-/

namespace Canvas.Json

/-- A value with the faults of its text.

An `unreadable` value fails a reader that needs it, and if `skip` is given also one that passes over
it. The fault of a container stands behind its items; a name can be unreadable too. -/
inductive Document where
  | null
  | bool (value : Bool)
  | int (value : Int)
  | float (value : Float)
  | str (value : String)
  | arr (items : List Document) (fault : Option Fault)
  | obj (members : List (Except Flaw String × Document)) (fault : Option Fault)
  | unreadable (read : Flaw) (skip : Option Flaw)
  deriving Inhabited

namespace Document

/-- A value at which the text goes wrong. -/
def broken (fault : Fault) : Document := .unreadable fault.onRead (some fault.onSkip)

mutual

/-- A value that is at hand, as a document. -/
def ofJson : Json → Document
  | .null => .null
  | .bool b => .bool b
  | .int i => .int i
  | .float x => .float x
  | .str s => .str s
  | .arr items => .arr (ofItems items) none
  | .obj members => .obj (ofMembers members) none

def ofItems : List Json → List Document
  | [] => []
  | item :: rest => ofJson item :: ofItems rest

def ofMembers : List (String × Json) → List (Except Flaw String × Document)
  | [] => []
  | (name, value) :: rest => (.ok name, ofJson value) :: ofMembers rest

end

/-- Stop at the fault behind a container's items. -/
def closeRead : Option Fault → Except Flaw Unit
  | none => .ok ()
  | some fault => .error fault.onRead

/-- Stop, without having needed the items, at the fault behind them. -/
def closeSkip : Option Fault → Except Flaw Unit
  | none => .ok ()
  | some fault => .error fault.onSkip

mutual

/-- Pass over a value. -/
def skip : Document → Except Flaw Unit
  | .unreadable _ (some flaw) => .error flaw
  | .arr items fault => do
    skipItems items
    closeSkip fault
  | .obj members fault => do
    skipMembers members
    closeSkip fault
  | _ => .ok ()

def skipItems : List Document → Except Flaw Unit
  | [] => .ok ()
  | item :: rest => do
    skip item
    skipItems rest

def skipMembers : List (Except Flaw String × Document) → Except Flaw Unit
  | [] => .ok ()
  | (_, value) :: rest => do
    skip value
    skipMembers rest

end

mutual

/-- The value itself. The members of objects keep their order and repetitions. -/
def toJson : Document → Except Flaw Json
  | .null => .ok .null
  | .bool b => .ok (.bool b)
  | .int i => .ok (.int i)
  | .float x => .ok (.float x)
  | .str s => .ok (.str s)
  | .unreadable flaw _ => .error flaw
  | .arr items fault => do
    let items ← itemsToJson items
    closeRead fault
    return .arr items
  | .obj members fault => do
    let members ← membersToJson members
    closeRead fault
    return .obj members

def itemsToJson : List Document → Except Flaw (List Json)
  | [] => .ok []
  | item :: rest => do
    let item ← toJson item
    let rest ← itemsToJson rest
    return item :: rest

def membersToJson : List (Except Flaw String × Document) → Except Flaw (List (String × Json))
  | [] => .ok []
  | (name, value) :: rest => do
    let name ← name
    let value ← toJson value
    let rest ← membersToJson rest
    return (name, value) :: rest

end

end Document

end Canvas.Json
