import Canvas.Proofs.Json.Shape

/-!
# What decoding tolerates

A rewriting of JSON relates a value to others that may stand in its place. A decoder tolerates it if
it decodes what was rewritten to the same. Structures tolerate members that belong to no field, and
the list of their fields in place of an object, if every field tolerates what may become of its own
value. Since a list has no names, a field that is absent from the object has to be filled in: one
that has a default with its default, and one that may be `null` with `null`.

Nothing is asked of what fails to be decoded.
-/

namespace Canvas.Json

open Document (ofJson ofItems ofMembers)

variable {α τ : Type} {mode : Mode} {within : String → Json → Json → Prop}

/-- Whether all that a value may be rewritten to is decoded as the value itself. -/
def Tolerates (decode : Decoder α) (rewrites : Json → Json → Prop) : Prop :=
  ∀ mode json written value, rewrites json written →
    decode mode (ofJson json) = .ok value → decode mode (ofJson written) = .ok value

theorem tolerates_eq (decode : Decoder α) : Tolerates decode Eq := by
  rintro mode json _ value rfl decoded
  exact decoded

/-! ### Lists -/

/-- A list is rewritten item by item. -/
inductive ListOf (rewrites : Json → Json → Prop) : Json → Json → Prop
  | items {items written : List Json} (each : List.Forall₂ rewrites items written) :
      ListOf rewrites (.arr items) (.arr written)

theorem items_rewritten {decode : Decoder α} {rewrites : Json → Json → Prop}
    (h : Tolerates decode rewrites) {items written : List Json} {values : List α}
    (each : List.Forall₂ rewrites items written)
    (decoded : Json.items decode mode (ofItems items) = .ok values) :
    Json.items decode mode (ofItems written) = .ok values := by
  induction each generalizing values with
  | nil => exact decoded
  | cons here _ ih =>
      obtain ⟨first, read, decoded⟩ := bind_eq_ok_iff.1 decoded
      obtain ⟨rest, others, decoded⟩ := bind_eq_ok_iff.1 decoded
      refine bind_eq_ok_iff.2 ⟨first, h _ _ _ _ here read, ?_⟩
      exact bind_eq_ok_iff.2 ⟨rest, ih others, decoded⟩

theorem tolerates_list {decode : Decoder α} {rewrites : Json → Json → Prop}
    (h : Tolerates decode rewrites) : Tolerates (list decode) (ListOf rewrites) := by
  rintro mode _ _ values ⟨each⟩ decoded
  obtain ⟨read, items, closed⟩ := bind_eq_ok_iff.1 decoded
  exact bind_eq_ok_iff.2 ⟨read, items_rewritten h each items, closed⟩

/-! ### Members -/

/-- Members are rewritten in their places, each within what its name allows, and others may be
inserted whose names are not known. -/
inductive Extends (known : List String) (within : String → Json → Json → Prop) :
    List (String × Json) → List (String × Json) → Prop
  | nil : Extends known within [] []
  | kept {name : String} {json written : Json} {rest later : List (String × Json)}
      (rewritten : within name json written) (behind : Extends known within rest later) :
      Extends known within ((name, json) :: rest) ((name, written) :: later)
  | added {name : String} {json : Json} {rest later : List (String × Json)}
      (unknown : name ∉ known) (behind : Extends known within rest later) :
      Extends known within rest ((name, json) :: later)

/-- An object is rewritten to another one by its members. -/
inductive ObjectOf (known : List String) (within : String → Json → Json → Prop) :
    Json → Json → Prop
  | members {members written : List (String × Json)} (more : Extends known within members written) :
      ObjectOf known within (.obj members) (.obj written)

section Members

variable {known : List String} {members written : List (String × Json)}

/-- The members with known names stay, each rewritten. -/
theorem Extends.filter (h : Extends known within members written) (kept : String → Prop)
    [DecidablePred kept] (hkept : ∀ name, kept name → name ∈ known) :
    List.Forall₂ (fun member written =>
        kept member.1 ∧ member.1 = written.1 ∧ within member.1 member.2 written.2)
      (members.filter (kept ·.1)) (written.filter (kept ·.1)) := by
  induction h with
  | nil => exact .nil
  | @kept name json rewritten rest later here _ ih =>
      by_cases keep : kept name
      · rw [List.filter_cons_of_pos (by simpa using keep),
          List.filter_cons_of_pos (by simpa using keep)]
        exact .cons ⟨keep, rfl, here⟩ ih
      · rwa [List.filter_cons_of_neg (by simpa using keep),
          List.filter_cons_of_neg (by simpa using keep)]
  | @added name json rest later unknown _ ih =>
      have drop : ¬ kept name := fun keep => unknown (hkept name keep)
      rwa [List.filter_cons_of_neg (by simpa using drop)]

/-- Under a known name there stand as many values as before, each rewritten. -/
theorem Extends.forall₂_valuesOf (h : Extends known within members written) {name : String}
    (hn : name ∈ known) :
    List.Forall₂ (within name) (valuesOf name members) (valuesOf name written) := by
  rw [valuesOf, valuesOf, List.forall₂_map_left_iff, List.forall₂_map_right_iff]
  refine (h.filter (· = name) fun _ same => same ▸ hn).imp ?_
  rintro ⟨_, json⟩ ⟨_, written⟩ ⟨rfl, rfl, here⟩
  exact here

/-- Values that are not rewritten stay the same. -/
theorem Extends.valuesOf_eq (h : Extends known within members written) {name : String}
    (hn : name ∈ known) (fixed : within name = Eq) :
    valuesOf name members = valuesOf name written := by
  have each := h.forall₂_valuesOf hn
  rwa [fixed, List.forall₂_eq_eq_eq] at each

end Members

/-! ### Fields -/

namespace Field

/-- What stands in a list for a field that is absent from an object. -/
def blank? (field : Field α) : Option Json :=
  match field.presence with
  | .required => none
  | .optional _ => some .null
  | .default value => field.encode value

/-- Whether a field tolerates rewritings of its value, and has the same value whether it is absent
or filled in. -/
structure Tolerant (within : String → Json → Json → Prop) (field : Field α) : Prop where
  value : Tolerates field.decode (within field.name)
  blank : ∀ mode json value, field.blank? = some json → field.absent = .ok value →
    field.decode mode (ofJson json) = .ok value

/-- What stands in a list for a field, given the values under its name in an object. -/
inductive Placed (within : String → Json → Json → Prop) (field : Field α) :
    List Json → Json → Prop
  | written {json item : Json} (rewritten : within field.name json item) :
      field.Placed within [json] item
  | absent {item : Json} (blank : field.blank? = some item) : field.Placed within [] item

variable {field : Field α} {values written : List Json} {item : Json} {value : α}

theorem Holds.rewritten (h : field.Holds mode values value) (tolerant : field.Tolerant within)
    (each : List.Forall₂ (within field.name) values written) : field.Holds mode written value := by
  cases each with
  | nil => exact h
  | cons here others =>
      cases others with
      | nil => exact tolerant.value _ _ _ _ here h
      | cons => exact h.elim

theorem Holds.placed (h : field.Holds mode values value) (tolerant : field.Tolerant within)
    (place : field.Placed within values item) : field.decode mode (ofJson item) = .ok value := by
  cases place with
  | written rewritten => exact tolerant.value _ _ _ _ rewritten h
  | absent blank => exact tolerant.blank _ _ _ blank h

end Field

namespace Fields

/-- Whether all fields tolerate what may become of them. -/
def Tolerant (within : String → Json → Json → Prop) : {τ : Type} → Fields τ → Prop
  | _, .nil => True
  | _, .cons field rest => field.Tolerant within ∧ rest.Tolerant within

/-- The list of all fields, given the members of an object. -/
def Positional (within : String → Json → Json → Prop) (members : List (String × Json)) :
    {τ : Type} → Fields τ → List Json → Prop
  | _, .nil, items => items = []
  | _, .cons _ _, [] => False
  | _, .cons field rest, item :: items =>
    field.Placed within (valuesOf field.name members) item ∧ rest.Positional within members items

variable {fields : Fields τ} {members written : List (String × Json)} {items : List Json}
  {values : τ}

theorem Holds.extended (h : fields.Holds mode members values) (tolerant : fields.Tolerant within)
    {known : List String} (names : fields.names ⊆ known)
    (extends_ : Extends known within members written) : fields.Holds mode written values := by
  induction fields with
  | nil => trivial
  | cons field rest ih =>
      obtain ⟨value, values⟩ := values
      obtain ⟨own, others⟩ := List.cons_subset.1 names
      exact ⟨h.1.rewritten tolerant.1 (extends_.forall₂_valuesOf own), ih h.2 tolerant.2 others⟩

theorem Holds.decodeItems (h : fields.Holds mode members values) (tolerant : fields.Tolerant within)
    (list : fields.Positional within members items) (expected : String) (position : Nat) :
    fields.decodeItems mode expected none position (ofItems items) = .ok (values, []) := by
  induction fields generalizing items position with
  | nil =>
      obtain rfl : items = [] := list
      rfl
  | cons field rest ih =>
      obtain ⟨value, values⟩ := values
      match items, list with
      | item :: items, ⟨first, later⟩ =>
          have decoded := h.1.placed tolerant.1 first
          have others := ih h.2 tolerant.2 later (position + 1)
          simp only [ofItems, Fields.decodeItems, decoded, others, bind, Except.bind]
          rfl

end Fields

/-- The items of a list are rewritten in their places, each within what the name of its field
allows. -/
inductive Itemwise (within : String → Json → Json → Prop) :
    List String → List Json → List Json → Prop
  | nil {names : List String} : Itemwise within names [] []
  | cons {name : String} {names : List String} {json written : Json} {rest later : List Json}
      (rewritten : within name json written) (behind : Itemwise within names rest later) :
      Itemwise within (name :: names) (json :: rest) (written :: later)

theorem Fields.decodeItems_itemwise {fields : Fields τ} {items written : List Json} {values : τ}
    {left : List Document} {expected : String} {position : Nat} (tolerant : fields.Tolerant within)
    (itemwise : Itemwise within fields.names items written)
    (decoded : fields.decodeItems mode expected none position (ofItems items) =
      .ok (values, left)) :
    fields.decodeItems mode expected none position (ofItems written) = .ok (values, left) := by
  induction fields generalizing items written position left with
  | nil =>
      cases itemwise
      exact decoded
  | cons field rest ih =>
      cases itemwise with
      | nil => exact decoded
      | cons rewritten behind =>
          obtain ⟨value, read, decoded⟩ := bind_eq_ok_iff.1 decoded
          obtain ⟨others, later, decoded⟩ := bind_eq_ok_iff.1 decoded
          refine bind_eq_ok_iff.2 ⟨value, tolerant.1.value _ _ _ _ rewritten read, ?_⟩
          exact bind_eq_ok_iff.2 ⟨others, ih tolerant.2 behind later, decoded⟩

/-! ### Structures -/

/-- What may stand in the place of a structure: an object with any number of members more, or the
list of its fields in place of an object. What is a list already stays one. -/
inductive Shape.Rewrites (shape : Shape α) (within : String → Json → Json → Prop) :
    Json → Json → Prop
  | object {members written : List (String × Json)}
      (more : Extends shape.fields.names within members written) :
      shape.Rewrites within (.obj members) (.obj written)
  | positional {members : List (String × Json)} {items : List Json}
      (list : shape.fields.Positional within members items) :
      shape.Rewrites within (.obj members) (.arr items)
  | items {items written : List Json}
      (itemwise : Itemwise within shape.fields.names items written) :
      shape.Rewrites within (.arr items) (.arr written)

/-- A list that is closed without a fault has no item left over. -/
theorem eq_nil_of_closeItems {total : Nat} {left : List Document}
    (h : closeItems mode total left none = .ok ()) : left = [] := by
  cases left with
  | nil => rfl
  | cons item left =>
      change (if mode.isStreaming then _ else _) = _ at h
      split at h
      · cases h
      · cases h

theorem Shape.tolerates {shape : Shape α} (distinct : shape.fields.names.Nodup)
    (tolerant : shape.fields.Tolerant within) : Tolerates shape.decode (shape.Rewrites within) := by
  intro mode json written value rewritten decoded
  cases rewritten with
  | @object members written more =>
      obtain ⟨values, read, made⟩ := map_eq_ok_iff.1 decoded
      have holds := (Fields.decodeMembers_iff distinct).1 read
      have later := (Fields.decodeMembers_iff distinct).2
        (holds.extended tolerant (List.Subset.refl _) more)
      simp only [ofJson, decode, later]
      exact congrArg Except.ok made
  | @positional members items list =>
      obtain ⟨values, read, made⟩ := map_eq_ok_iff.1 decoded
      have holds := (Fields.decodeMembers_iff distinct).1 read
      simp only [ofJson, decode, holds.decodeItems tolerant list]
      exact congrArg Except.ok made
  | items itemwise =>
      obtain ⟨⟨values, left⟩, read, closed⟩ := bind_eq_ok_iff.1 decoded
      refine bind_eq_ok_iff.2 ⟨_, Fields.decodeItems_itemwise tolerant itemwise read, ?_⟩
      -- Nothing is left over, so the lengths of the lists do not matter.
      obtain ⟨_, complete, made⟩ := bind_eq_ok_iff.1 closed
      obtain rfl := eq_nil_of_closeItems complete
      exact bind_eq_ok_iff.2 ⟨(), rfl, made⟩

/-! ### Kinds of fields -/

namespace Field

variable {name : String} {decode : Decoder α} {encode : α → Json}

theorem tolerant_required (h : Tolerates decode (within name)) :
    (required name decode encode).Tolerant within :=
  ⟨h, fun _ _ _ blank => by cases blank⟩

/-- A field that is always written and never rewritten. -/
theorem tolerant_kept : (required name decode encode).Tolerant fun _ => Eq :=
  tolerant_required (tolerates_eq decode)

/-- A field with a default may be filled in if the default comes back in every mode. -/
theorem tolerant_defaulted {default : α} (h : Tolerates decode (within name))
    (back : ∀ mode, decode mode (ofJson (encode default)) = .ok default) :
    (defaulted name decode encode default).Tolerant within := by
  refine ⟨h, fun mode json value blank absent => ?_⟩
  cases blank
  cases absent
  exact back mode

theorem tolerant_optional (h : Tolerates (nullable decode) (within name)) :
    (optional name decode encode).Tolerant within := by
  refine ⟨h, fun mode json value blank absent => ?_⟩
  cases blank
  cases absent
  rfl

theorem tolerant_omittable (h : Tolerates (nullable decode) (within name)) :
    (omittable name decode encode).Tolerant within := by
  refine ⟨h, fun mode json value blank absent => ?_⟩
  cases blank
  cases absent
  rfl

end Field

end Canvas.Json
