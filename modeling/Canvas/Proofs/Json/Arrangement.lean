import Canvas.Json.Shape
import Canvas.Proofs.Dict
import Canvas.Proofs.Lookup

/-!
# Values read back in any order

The members of an object may come in an order other than the one in which they were written. An
`Arrangement` puts the members of every object in some order; two of them are to leave them as they
are and to sort them by name. `Reads` states that a decoder makes a value of a JSON value at hand,
and each basic decoder has its lemma.
-/

namespace Canvas

namespace Json

open Document (ofJson ofItems ofMembers toJson itemsToJson membersToJson)

namespace Document

mutual

/-- A document that was made from a value at hand holds this value. -/
theorem toJson_ofJson : ∀ json, toJson (ofJson json) = .ok json
  | .null | .bool _ | .int _ | .float _ | .str _ => rfl
  | .arr items => by
    simp only [ofJson, toJson, itemsToJson_ofItems items]
    rfl
  | .obj members => by
    simp only [ofJson, toJson, membersToJson_ofMembers members]
    rfl

theorem itemsToJson_ofItems : ∀ items, itemsToJson (ofItems items) = .ok items
  | [] => rfl
  | item :: rest => by
    simp only [ofItems, itemsToJson, toJson_ofJson item, itemsToJson_ofItems rest]
    rfl

theorem membersToJson_ofMembers : ∀ members, membersToJson (ofMembers members) = .ok members
  | [] => rfl
  | (name, value) :: rest => by
    simp only [ofMembers, membersToJson, toJson_ofJson value, membersToJson_ofMembers rest]
    rfl

end

theorem buffer_ofJson (json : Json) : (ofJson json).buffer = .ok (ofJson json) := by
  rw [buffer, toJson_ofJson]
  rfl

end Document

/-- Whether a value has no parts. -/
def IsScalar : Json → Prop
  | .arr _ | .obj _ => False
  | _ => True

/-- An order for the members of every object. -/
structure Arrangement where
  arrange : Json → Json
  scalar : ∀ json, json.IsScalar → arrange json = json
  arr : ∀ items, arrange (.arr items) = .arr (items.map arrange)
  obj : ∀ members, (members.map (·.1)).Nodup → ∃ moved, arrange (.obj members) = .obj moved ∧
    moved.Perm (members.map fun member => (member.1, arrange member.2))

namespace Arrangement

/-- All members stay where they are. -/
def asWritten : Arrangement where
  arrange := id
  scalar _ _ := rfl
  arr items := by simp
  obj members _ := ⟨members, rfl, by simp⟩

theorem normalizeItems_eq_map (items : List Json) :
    normalizeItems items = items.map normalize := by
  induction items with
  | nil => rfl
  | cons item rest ih => rw [normalizeItems, ih, List.map_cons]

theorem normalizeMembers_eq_map (members : List (String × Json)) :
    normalizeMembers members = members.map fun member => (member.1, normalize member.2) := by
  induction members with
  | nil => rfl
  | cons member rest ih => rw [normalizeMembers, ih, List.map_cons]

/-- The members are sorted by name. -/
def byName : Arrangement where
  arrange := normalize
  scalar json h := by
    cases json with
    | arr | obj => exact h.elim
    | _ => rfl
  arr items := by rw [normalize, normalizeItems_eq_map]
  obj members distinct := by
    refine ⟨_, rfl, ?_⟩
    rw [normalizeMembers_eq_map]
    apply Dict.perm_ofList
    rwa [List.map_map]

/-- Whether the order of a record and all its parts is not changed. -/
def Keeps (arrangement : Arrangement) (record : Record) : Prop :=
  arrangement.arrange (.ofRecord record) = .ofRecord record

theorem keeps_asWritten (record : Record) : asWritten.Keeps record := rfl

variable (arrangement : Arrangement)

@[simp] theorem arrange_null : arrangement.arrange .null = .null := arrangement.scalar _ trivial

@[simp] theorem arrange_bool (b : Bool) : arrangement.arrange (.bool b) = .bool b :=
  arrangement.scalar _ trivial

@[simp] theorem arrange_int (i : Int) : arrangement.arrange (.int i) = .int i :=
  arrangement.scalar _ trivial

@[simp] theorem arrange_str (s : String) : arrangement.arrange (.str s) = .str s :=
  arrangement.scalar _ trivial

/-- A member is found under its name wherever it stands. -/
theorem find?_arrange {members : List (String × Json)} (distinct : (members.map (·.1)).Nodup)
    {name : String} {json : Json} (listed : (name, json) ∈ members) :
    (arrangement.arrange (.obj members)).record?.bind (·.find? name) =
      some (arrangement.arrange json) := by
  obtain ⟨moved, arranged, written⟩ := arrangement.obj members distinct
  have names := written.map (·.1)
  rw [List.map_map] at names
  have mem : (name, arrangement.arrange json) ∈ moved :=
    written.mem_iff.2 (List.mem_map.2 ⟨_, listed, rfl⟩)
  rw [arranged, record?, Option.bind_some]
  exact Dict.find?_of_mem ((Dict.perm_ofList (names.nodup_iff.2 distinct)).mem_iff.2 mem)

end Arrangement

section Reads

variable {α : Type}

/-- Whether a decoder makes a value of a JSON value at hand, also if that was set aside. -/
def Reads (decode : Decoder α) (json : Json) (value : α) : Prop :=
  ∀ mode : Mode, mode.isText = false → decode mode (.ofJson json) = .ok value

theorem reads_string (s : String) : Reads string (.str s) s := fun _ _ => rfl

theorem reads_boolean (b : Bool) : Reads boolean (.bool b) b := fun _ _ => rfl

theorem reads_natural (width : String) (n : Nat) : Reads (natural width) (.int n) n :=
  fun _ _ => rfl

theorem reads_notated {expected s : String} {parse : String → Option α} {error : DecodeError}
    {value : α} (h : parse s = some value) :
    Reads (notated expected parse error) (.str s) value := by
  intro mode _
  simp [notated, ofJson, h]

/-- A value is chosen by its name, if no other has this name. -/
theorem reads_choice {values : List α} {name : α → String} (distinct : (values.map name).Nodup)
    {value : α} (listed : value ∈ values) :
    Reads (choice (values.map fun item => (name item, item))) (.str (name value)) value := by
  have found : values.find? (name · = name value) = some value :=
    (find?_key_eq_some_iff distinct).2 ⟨listed, rfl⟩
  intro mode _
  simp only [choice, ofJson, named, List.find?_map, Function.comp_def, found, Option.map_some]

theorem reads_record (record : Record) : Reads Json.record (.ofRecord record) record := by
  intro mode atHand
  have members := Document.toJson_ofJson (.ofRecord record)
  simp only [ofRecord, ofJson] at members ⊢
  simp only [Json.record, anyValue, members, atHand, Document.demand, Except.mapError, bind,
    Except.bind, pure, Except.pure]
  exact congrArg Except.ok record.ofList_entries

theorem reads_none (decode : Decoder α) : Reads (nullable decode) .null none := fun _ _ => rfl

theorem reads_some {decode : Decoder α} {json : Json} {value : α} (h : Reads decode json value)
    (other : json ≠ .null) : Reads (nullable decode) json (some value) := by
  intro mode atHand
  have read := h mode atHand
  cases json with
  | null => exact absurd rfl other
  | _ =>
      simp only [nullable, ofJson] at read ⊢
      rw [read]
      rfl

theorem reads_list {decode : Decoder α} {encode : α → Json} {values : List α}
    (h : ∀ value ∈ values, Reads decode (encode value) value) :
    Reads (list decode) (.arr (values.map encode)) values := by
  intro mode atHand
  have all : items decode mode (ofItems (values.map encode)) = .ok values := by
    induction values with
    | nil => rfl
    | cons value rest ih =>
        obtain ⟨head, tail⟩ := List.forall_mem_cons.1 h
        simp only [List.map_cons, ofItems, items, head mode atHand, ih tail]
        rfl
  simp only [list, ofJson, all]
  rfl

end Reads

end Json

end Canvas
