import Canvas.Proofs.Json.Arrangement

/-!
# Structures read back

An object is decoded to a structure exactly if its members hold the value of each field: under the
name of the field stands one value, which is decoded to it, or none stands there and the field has
this value when it is absent. Where members stand, and what else stands between them, is no matter.
This needs that no two fields have one name.

So a structure comes back from its object, in whatever order the members stand, if every field comes
back from its member and a field that is not written may be absent.
-/

namespace Canvas.Json

open Document (ofJson ofItems ofMembers)

namespace Document

mutual

/-- A value at hand has no faults, so it can be passed over. -/
theorem skip_ofJson : ∀ json, (ofJson json).skip = .ok ()
  | .null | .bool _ | .int _ | .float _ | .str _ => by simp [ofJson, skip]
  | .arr items => by
      simp only [ofJson, skip, skipItems_ofItems items]
      rfl
  | .obj members => by
      simp only [ofJson, skip, skipMembers_ofMembers members]
      rfl

theorem skipItems_ofItems : ∀ items, skipItems (ofItems items) = .ok ()
  | [] => rfl
  | item :: rest => by
      simp only [ofItems, skipItems, skip_ofJson item, skipItems_ofItems rest]
      rfl

theorem skipMembers_ofMembers : ∀ members, skipMembers (ofMembers members) = .ok ()
  | [] => rfl
  | (_, value) :: rest => by
      simp only [ofMembers, skipMembers, skip_ofJson value, skipMembers_ofMembers rest]
      rfl

end

end Document

/-- A sequence of two steps succeeds if both do. -/
theorem bind_eq_ok_iff {ε α β : Type} {first : Except ε α} {next : α → Except ε β} {result : β} :
    first >>= next = .ok result ↔ ∃ value, first = .ok value ∧ next value = .ok result := by
  cases first with
  | error error => simp [bind, Except.bind]
  | ok value => simp [bind, Except.bind]

theorem map_eq_ok_iff {ε α β : Type} {f : α → β} {first : Except ε α} {result : β} :
    f <$> first = .ok result ↔ ∃ value, first = .ok value ∧ f value = result := by
  cases first with
  | error error => simp [Functor.map, Except.map]
  | ok value => simp [Functor.map, Except.map]

variable {α τ : Type} {mode : Mode} {arrangement : Arrangement}

section Members

variable {name other : String} {json : Json} {members : List (String × Json)}

/-- The values that stand under a name, in order. -/
def valuesOf (name : String) (members : List (String × Json)) : List Json :=
  (members.filter (·.1 = name)).map (·.2)

theorem valuesOf_cons_self :
    valuesOf name ((name, json) :: members) = json :: valuesOf name members := by
  simp [valuesOf]

theorem valuesOf_cons_of_ne (h : other ≠ name) :
    valuesOf name ((other, json) :: members) = valuesOf name members := by
  simp [valuesOf, h]

theorem valuesOf_of_forall_not_mem (h : ∀ json, (name, json) ∉ members) :
    valuesOf name members = [] := by
  refine List.map_eq_nil_iff.2 (List.filter_eq_nil_iff.2 ?_)
  rintro ⟨other, json⟩ listed same
  exact h json (of_decide_eq_true same ▸ listed)

theorem valuesOf_of_mem (distinct : (members.map (·.1)).Nodup) (h : (name, json) ∈ members) :
    valuesOf name members = [json] := by
  induction members with
  | nil => exact absurd h List.not_mem_nil
  | cons member members ih =>
      obtain ⟨other, value⟩ := member
      obtain ⟨new, distinct⟩ := List.nodup_cons.1 distinct
      rcases List.mem_cons.1 h with same | later
      · obtain ⟨rfl, rfl⟩ := Prod.mk.inj same
        rw [valuesOf_cons_self, valuesOf_of_forall_not_mem]
        exact fun json later => new (List.mem_map.2 ⟨_, later, rfl⟩)
      · have apart : other ≠ name := fun same => new (same ▸ List.mem_map.2 ⟨_, later, rfl⟩)
        rw [valuesOf_cons_of_ne apart, ih distinct later]

end Members

/-- What becomes of a place when values are met for it one after the other: it takes one value and
no more. -/
def Occupies (decode : Decoder α) (mode : Mode) : Option α → List Json → Option α → Prop
  | place, [], last => last = place
  | some _, _ :: _, _ => False
  | none, json :: rest, last =>
    ∃ value, decode mode (ofJson json) = .ok value ∧ Occupies decode mode (some value) rest last

theorem occupies_cons_iff {decode : Decoder α} {place last : Option α} {json : Json}
    {rest : List Json} :
    Occupies decode mode place (json :: rest) last ↔
      place = none ∧
        ∃ value, decode mode (ofJson json) = .ok value ∧
          Occupies decode mode (some value) rest last := by
  cases place with
  | none => simp [Occupies]
  | some value => simp [Occupies]

/-- Whether a field has a value, given the values that stand under its name. -/
def Field.Holds (field : Field α) (mode : Mode) : List Json → α → Prop
  | [], value => field.absent = .ok value
  | [json], value => field.decode mode (ofJson json) = .ok value
  | _, _ => False

/-- A field has a value exactly if its place comes to hold the value, or stays empty and the value
is that of an absent field. -/
theorem Field.holds_iff {field : Field α} {values : List Json} {value : α} :
    field.Holds mode values value ↔
      ∃ last, Occupies field.decode mode none values last ∧
        last.elim field.absent .ok = .ok value := by
  match values with
  | [] => simp [Field.Holds, Occupies]
  | [json] => simp [Field.Holds, Occupies]
  | _ :: _ :: _ => simp [Field.Holds, Occupies]

/-- Whether a value of a field comes back from the member that is written for it, or from the
absence of a member. -/
def Field.Restores (arrangement : Arrangement) (field : Field α) (value : α) : Prop :=
  match field.encode value with
  | some json => Reads field.decode (arrangement.arrange json) value
  | none => field.absent = .ok value

namespace Fields

/-- The names of the fields. -/
def names : {τ : Type} → Fields τ → List String
  | _, .nil => []
  | _, .cons field rest => field.name :: rest.names

/-- Whether all fields have their values among some members. -/
def Holds (mode : Mode) (members : List (String × Json)) : {τ : Type} → Fields τ → τ → Prop
  | _, .nil, _ => True
  | _, .cons field rest, (value, values) =>
    field.Holds mode (valuesOf field.name members) value ∧ rest.Holds mode members values

theorem fill_of_not_mem {name : String} {document : Document} {fields : Fields τ}
    (other : name ∉ fields.names) (slots : fields.Slots) :
    fields.fill mode name document slots = none := by
  induction fields with
  | nil => rfl
  | cons field rest ih =>
      rw [names, List.mem_cons, not_or] at other
      rw [fill, if_neg (Ne.symm other.1), ih other.2]

/-- A member with the name of no field is passed over. -/
theorem fillAll_pass {name : String} {json : Json} {members : List (String × Json)}
    {fields : Fields τ} (other : name ∉ fields.names) (slots : fields.Slots) :
    fields.fillAll mode slots (ofMembers ((name, json) :: members)) =
      fields.fillAll mode slots (ofMembers members) := by
  simp only [ofMembers, fillAll, fill_of_not_mem other, Document.demand, Except.mapError, bind,
    Except.bind, Document.skip_ofJson]

/-- The members with the name of the first field fill its place, and the others those of the other
fields, whatever their order. -/
theorem fillAll_cons_iff {β : Type} {field : Field α} {rest : Fields β}
    (new : field.name ∉ rest.names) {members : List (String × Json)} {first last : Option α}
    {slots filled : rest.Slots} :
    (Fields.cons field rest).fillAll mode (first, slots) (ofMembers members) = .ok (last, filled) ↔
      Occupies field.decode mode first (valuesOf field.name members) last ∧
        rest.fillAll mode slots (ofMembers members) = .ok filled := by
  induction members generalizing first slots with
  | nil =>
      constructor
      · intro h
        cases h
        exact ⟨rfl, rfl⟩
      · rintro ⟨rfl, h⟩
        cases h
        rfl
  | cons member members ih =>
      obtain ⟨name, json⟩ := member
      by_cases own : field.name = name
      · subst own
        rw [fillAll_pass new, valuesOf_cons_self]
        simp only [ofMembers, fillAll, fill, if_true, Document.demand, Except.mapError, bind,
          Except.bind]
        cases first with
        | some value => simp [Occupies]
        | none =>
            cases decoded : field.decode mode (ofJson json) with
            | error error => simp [Occupies, decoded]
            | ok value => simpa [Occupies, decoded, pure, Except.pure] using ih
      · rw [valuesOf_cons_of_ne (Ne.symm own)]
        simp only [ofMembers, fillAll, fill, if_neg own, Document.demand, Except.mapError, bind,
          Except.bind, Document.skip_ofJson]
        cases filled : rest.fill mode name (ofJson json) slots with
        | none => exact ih
        | some result =>
            cases result with
            | error error => simp [Functor.map, Except.map]
            | ok next => exact ih

/-- All places are filled and collected to some values exactly if the members hold the value of
each field. -/
theorem exists_fillAll_iff {fields : Fields τ} (distinct : fields.names.Nodup)
    {members : List (String × Json)} {values : τ} :
    (∃ slots, fields.fillAll mode fields.vacant (ofMembers members) = .ok slots ∧
      fields.collect slots = .ok values) ↔ fields.Holds mode members values := by
  induction fields with
  | nil =>
      refine iff_of_true ⟨(), ?_, rfl⟩ trivial
      induction members with
      | nil => rfl
      | cons member members ih => exact (fillAll_pass List.not_mem_nil _).trans ih
  | @cons α β field rest ih =>
      obtain ⟨value, values⟩ := values
      obtain ⟨new, distinct⟩ := List.nodup_cons.1 distinct
      show _ ↔ field.Holds mode (valuesOf field.name members) value ∧ rest.Holds mode members values
      rw [← ih distinct, Field.holds_iff]
      constructor
      · rintro ⟨⟨last, slots⟩, filled, collected⟩
        obtain ⟨occupied, others⟩ := (fillAll_cons_iff new).1 filled
        obtain ⟨first, own, collected⟩ := bind_eq_ok_iff.1 collected
        obtain ⟨later, left, collected⟩ := bind_eq_ok_iff.1 collected
        cases collected
        exact ⟨⟨last, occupied, own⟩, slots, others, left⟩
      · rintro ⟨⟨last, occupied, own⟩, slots, filled, collected⟩
        refine ⟨(last, slots), (fillAll_cons_iff new).2 ⟨occupied, filled⟩, ?_⟩
        simp only [collect, own, collected]
        rfl

/-- Members are decoded to some values exactly if they hold the value of each field. -/
theorem decodeMembers_iff {fields : Fields τ} (distinct : fields.names.Nodup)
    {members : List (String × Json)} {values : τ} :
    fields.decodeMembers mode (ofMembers members) none = .ok values ↔
      fields.Holds mode members values := by
  rw [← exists_fillAll_iff distinct, decodeMembers]
  cases filled : fields.fillAll mode fields.vacant (ofMembers members) with
  | error error => simp [bind, Except.bind]
  | ok slots => simp [bind, Except.bind, Document.closeRead, Document.demand, Except.mapError]

/-- Whether the values of all fields come back. -/
def Restores (arrangement : Arrangement) : {τ : Type} → Fields τ → τ → Prop
  | _, .nil, _ => True
  | _, .cons field rest, (value, values) =>
    field.Restores arrangement value ∧ rest.Restores arrangement values

theorem names_encode_sublist {fields : Fields τ} (values : τ) :
    ((fields.encode values).map (·.1)).Sublist fields.names := by
  induction fields with
  | nil => exact .slnil
  | cons field rest ih =>
      obtain ⟨value, values⟩ := values
      cases written : field.encode value with
      | none =>
          simp only [encode, written, names]
          exact (ih values).cons _
      | some json =>
          simp only [encode, written, names, List.map_cons]
          exact (ih values).cons_cons _

/-- The members that are written for some values hold them, whatever their order. -/
theorem holds_of_restores {fields : Fields τ} {values : τ} {members : List (String × Json)}
    (atHand : mode.isText = false) (distinct : fields.names.Nodup)
    (restores : fields.Restores arrangement values) (unique : (members.map (·.1)).Nodup)
    (written : ∀ name ∈ fields.names, ∀ json, (name, json) ∈ members ↔
      (name, json) ∈ (fields.encode values).map fun member =>
        (member.1, arrangement.arrange member.2)) :
    fields.Holds mode members values := by
  induction fields with
  | nil => trivial
  | @cons α β field rest ih =>
      obtain ⟨value, values⟩ := values
      obtain ⟨new, distinct⟩ := List.nodup_cons.1 distinct
      obtain ⟨restored, others⟩ := restores
      have unlisted : ∀ json, (field.name, json) ∉ (rest.encode values).map fun member =>
          (member.1, arrangement.arrange member.2) := by
        intro json listed
        obtain ⟨member, encoded, same⟩ := List.mem_map.1 listed
        refine new ((names_encode_sublist values).subset (List.mem_map.2 ⟨member, encoded, ?_⟩))
        exact congrArg Prod.fst same
      unfold Field.Restores at restored
      cases encoded : field.encode value with
      | none =>
          simp only [encode, encoded] at written restored
          refine ⟨?_, ih distinct others fun name hn => written name (List.mem_cons_of_mem _ hn)⟩
          have empty : valuesOf field.name members = [] :=
            valuesOf_of_forall_not_mem fun json listed =>
              unlisted json ((written _ List.mem_cons_self json).1 listed)
          rw [empty]
          exact restored
      | some json =>
          simp only [encode, encoded, List.map_cons] at written restored
          refine ⟨?_, ih distinct others fun name hn other => ?_⟩
          · have listed := (written _ List.mem_cons_self _).2 List.mem_cons_self
            rw [valuesOf_of_mem unique listed]
            exact restored mode atHand
          · have apart : name ≠ field.name := fun same => new (same ▸ hn)
            rw [written name (List.mem_cons_of_mem _ hn), List.mem_cons]
            exact or_iff_right fun same => apart (congrArg Prod.fst same)

/-- An object that was written for some values is decoded to them, however it is arranged. -/
theorem exists_decodeMembers {fields : Fields τ} {values : τ} (distinct : fields.names.Nodup)
    (restores : fields.Restores arrangement values) :
    ∃ members, arrangement.arrange (.obj (fields.encode values)) = .obj members ∧
      ∀ mode : Mode, mode.isText = false →
        fields.decodeMembers mode (ofMembers members) none = .ok values := by
  have once := distinct.sublist (names_encode_sublist values)
  obtain ⟨members, arranged, written⟩ := arrangement.obj (fields.encode values) once
  have unique : (members.map (·.1)).Nodup := by
    have names := written.map (·.1)
    rw [List.map_map] at names
    exact names.nodup_iff.2 once
  refine ⟨members, arranged, fun mode atHand => (decodeMembers_iff distinct).2 ?_⟩
  exact holds_of_restores atHand distinct restores unique fun _ _ _ => written.mem_iff

end Fields

/-- A structure comes back from its object if its fields do. -/
theorem Shape.reads {shape : Shape α} {value : α} (distinct : shape.fields.names.Nodup)
    (restores : shape.fields.Restores arrangement (shape.split value)) :
    Reads shape.decode (arrangement.arrange (shape.encode value)) value := by
  obtain ⟨members, arranged, decoded⟩ := Fields.exists_decodeMembers distinct restores
  intro mode atHand
  rw [Shape.encode, Shape.members, arranged]
  simp only [ofJson, Shape.decode, decoded mode atHand]
  exact congrArg Except.ok (shape.make_split value)

namespace Field

variable {name : String} {decode : Decoder α} {encode : α → Json}

theorem restores_required {value : α}
    (h : Reads decode (arrangement.arrange (encode value)) value) :
    (required name decode encode).Restores arrangement value := h

theorem restores_defaulted {default value : α}
    (h : Reads decode (arrangement.arrange (encode value)) value) :
    (defaulted name decode encode default).Restores arrangement value := h

/-- A field that may be `null` comes back if `null` is written for nothing else. -/
theorem restores_optional {value : Option α}
    (h : ∀ item ∈ value, Reads decode (arrangement.arrange (encode item)) item ∧
      arrangement.arrange (encode item) ≠ .null) :
    (optional name decode encode).Restores arrangement value := by
  cases value with
  | none =>
      show Reads (nullable decode) (arrangement.arrange .null) none
      rw [arrangement.arrange_null]
      exact reads_none decode
  | some item =>
      obtain ⟨reads, other⟩ := h item rfl
      exact reads_some reads other

theorem restores_omittable {value : Option α}
    (h : ∀ item ∈ value, Reads decode (arrangement.arrange (encode item)) item ∧
      arrangement.arrange (encode item) ≠ .null) :
    (omittable name decode encode).Restores arrangement value := by
  cases value with
  | none => exact rfl
  | some item =>
      obtain ⟨reads, other⟩ := h item rfl
      exact reads_some reads other

theorem restores_string (s : String) : (Field.string name).Restores arrangement s := by
  apply restores_required
  rw [arrangement.arrange_str]
  exact reads_string s

theorem restores_boolean (b : Bool) :
    (required name Json.boolean .bool).Restores arrangement b := by
  apply restores_required
  rw [arrangement.arrange_bool]
  exact reads_boolean b

theorem restores_natural (width : String) (n : Nat) :
    (Field.natural name (Json.natural width)).Restores arrangement n := by
  apply restores_required
  rw [arrangement.arrange_int]
  exact reads_natural width n

theorem restores_record {record : Record} (kept : arrangement.Keeps record) :
    (Field.record name).Restores arrangement record := by
  apply restores_required
  rw [kept]
  exact reads_record record

theorem restores_list {values : List α}
    (h : ∀ value ∈ values, Reads decode (arrangement.arrange (encode value)) value) :
    (required name (list decode) fun values => .arr (values.map encode)).Restores arrangement
      values := by
  apply restores_required
  rw [arrangement.arr, List.map_map]
  exact reads_list h

end Field

end Canvas.Json
