import Canvas.Json.Decoding
import Canvas.Proofs.Json.Shape

/-!
# How deeply values are nested

What is read from a text never has as many levels of lists and objects as the limit, whatever the
text. The limit is met exactly: of lists that hold nothing but the next one, all below it are read,
and all others are refused.
-/

namespace Canvas.Json

open Document (itemsToJson membersToJson toJson)

/-- Whether a value has at most some levels of lists and objects. -/
def FitsIn : (levels : Nat) → Json → Prop
  | 0, .arr _ | 0, .obj _ => False
  | levels + 1, .arr items => ∀ item ∈ items, FitsIn levels item
  | levels + 1, .obj members => ∀ member ∈ members, FitsIn levels member.2
  | _, .null | _, .bool _ | _, .int _ | _, .float _ | _, .str _ => True

section Reading

variable {depth fuel levels : Nat} {cs : List Char} {document : Document} {value : Json}
variable {items : List Document} {members : List (Except Flaw String × Document)}
variable {fault : Option Fault}

/-- Nothing is read where reading ends. -/
@[simp] theorem toJson_broken (fault : Fault) : toJson (.broken fault) = .error fault.onRead := rfl

/-- A value without parts fits whatever is left. -/
theorem fitsIn_of_isScalar (scalar : value.IsScalar) : FitsIn levels value := by
  cases value with
  | arr | obj => exact scalar.elim
  | _ => cases levels <;> trivial

/-- The first level fits if one is left for what is inside. -/
theorem toJson_nested (h : toJson (nested depth document) = .ok value) :
    ∃ levels, depth = levels + 2 ∧ toJson document = .ok value := by
  unfold nested at h
  split at h
  · exact ⟨depth - 2, by omega, h⟩
  · split at h
    · simp [toJson] at h
    · simp [toJson] at h

theorem fitsIn_of_nested_arr
    (fit : ∀ values, itemsToJson items = .ok values → ∀ item ∈ values, FitsIn (depth - 2) item)
    (h : toJson (nested depth (.arr items fault)) = .ok value) : FitsIn (depth - 1) value := by
  obtain ⟨levels, rfl, read⟩ := toJson_nested h
  simp only [toJson, bind_eq_ok_iff] at read
  obtain ⟨values, held, -, -, made⟩ := read
  obtain rfl := Except.ok.inj made
  exact fit values held

theorem fitsIn_of_nested_obj
    (fit : ∀ values, membersToJson members = .ok values →
      ∀ member ∈ values, FitsIn (depth - 2) member.2)
    (h : toJson (nested depth (.obj members fault)) = .ok value) : FitsIn (depth - 1) value := by
  obtain ⟨levels, rfl, read⟩ := toJson_nested h
  simp only [toJson, bind_eq_ok_iff] at read
  obtain ⟨values, held, -, -, made⟩ := read
  obtain rfl := Except.ok.inj made
  exact fit values held

theorem isScalar_of_readWord (word : Json) {rest : List Char} (scalar : word.IsScalar)
    (h : toJson (readWord (.ofJson word) cs rest).1 = .ok value) : value.IsScalar := by
  unfold readWord at h
  split at h
  · rw [Document.toJson_ofJson] at h
    obtain rfl := Except.ok.inj h
    exact scalar
  · simp [ended] at h

theorem isScalar_of_readNumeral {negative : Bool}
    (h : toJson (readNumeral negative cs).1 = .ok value) : value.IsScalar := by
  unfold readNumeral at h
  split at h
  · simp [ended] at h
  · split at h
    · obtain rfl := Except.ok.inj h
      trivial
    · obtain rfl := Except.ok.inj h
      trivial
    · simp [toJson] at h

theorem isScalar_of_readString (h : toJson (readString cs).1 = .ok value) : value.IsScalar := by
  unfold readString at h
  split at h
  · simp [ended] at h
  · obtain rfl := Except.ok.inj h
    trivial
  · simp [toJson] at h

theorem fits_nil {p : Json → Prop} (values : List Json) (h : itemsToJson [] = .ok values) :
    ∀ value ∈ values, p value := by
  obtain rfl := Except.ok.inj h
  exact List.forall_mem_nil p

theorem fits_nil_members {p : Json → Prop} (values : List (String × Json))
    (h : membersToJson [] = .ok values) : ∀ member ∈ values, p member.2 := by
  obtain rfl := Except.ok.inj h
  exact List.forall_mem_nil _

theorem fits_cons {p : Json → Prop} {values : List Json} {item : Document}
    (h : itemsToJson (item :: items) = .ok values)
    (first : ∀ value, toJson item = .ok value → p value)
    (others : ∀ values, itemsToJson items = .ok values → ∀ value ∈ values, p value) :
    ∀ value ∈ values, p value := by
  simp only [itemsToJson, bind_eq_ok_iff] at h
  obtain ⟨value, one, rest, more, made⟩ := h
  obtain rfl := Except.ok.inj made
  exact List.forall_mem_cons.2 ⟨first value one, others rest more⟩

theorem fits_cons_member {p : Json → Prop} {values : List (String × Json)}
    {name : Except Flaw String}
    (h : membersToJson ((name, document) :: members) = .ok values)
    (first : ∀ value, toJson document = .ok value → p value)
    (others : ∀ values, membersToJson members = .ok values → ∀ member ∈ values, p member.2) :
    ∀ member ∈ values, p member.2 := by
  simp only [membersToJson, bind_eq_ok_iff] at h
  obtain ⟨name, -, value, one, rest, more, made⟩ := h
  obtain rfl := Except.ok.inj made
  exact List.forall_mem_cons.2 ⟨first value one, others rest more⟩

theorem fitsIn_of_readValue
    (items : ∀ cs values, itemsToJson (readItems fuel (depth - 1) cs).1 = .ok values →
      ∀ item ∈ values, FitsIn (depth - 2) item)
    (members : ∀ cs values, membersToJson (readMembers fuel (depth - 1) cs).1 = .ok values →
      ∀ member ∈ values, FitsIn (depth - 2) member.2)
    (h : toJson (readValue (fuel + 1) depth cs).1 = .ok value) : FitsIn (depth - 1) value := by
  unfold readValue at h
  split at h
  · simp [ended] at h
  · exact fitsIn_of_isScalar (isScalar_of_readWord .null trivial h)
  · exact fitsIn_of_isScalar (isScalar_of_readWord (.bool true) trivial h)
  · exact fitsIn_of_isScalar (isScalar_of_readWord (.bool false) trivial h)
  · exact fitsIn_of_isScalar (isScalar_of_readString h)
  · exact fitsIn_of_isScalar (isScalar_of_readNumeral h)
  · split at h
    all_goals dsimp only at h
    · exact fitsIn_of_nested_arr fits_nil h
    · exact fitsIn_of_nested_arr fits_nil h
    · exact fitsIn_of_nested_arr (items _) h
  · split at h
    all_goals dsimp only at h
    · exact fitsIn_of_nested_obj fits_nil_members h
    · exact fitsIn_of_nested_obj fits_nil_members h
    · exact fitsIn_of_nested_obj (members _) h
    · exact fitsIn_of_nested_obj fits_nil_members h
  · split at h
    · exact fitsIn_of_isScalar (isScalar_of_readNumeral h)
    · simp [ended] at h

theorem fitsIn_of_readItems
    (value : ∀ cs value, toJson (readValue fuel depth cs).1 = .ok value → FitsIn levels value)
    (items : ∀ cs values, itemsToJson (readItems fuel depth cs).1 = .ok values →
      ∀ item ∈ values, FitsIn levels item) {values : List Json}
    (h : itemsToJson (readItems (fuel + 1) depth cs).1 = .ok values) :
    ∀ item ∈ values, FitsIn levels item := by
  have first := value cs
  unfold readItems at h
  split at h
  · rename_i item read
    rw [read] at first
    exact fits_cons h first fits_nil
  · rename_i item rest read
    rw [read] at first
    split at h
    · exact fits_cons h first fits_nil
    · exact fits_cons h first fits_nil
    · split at h
      · exact fits_cons h first fits_nil
      · exact fits_cons h first (items _)
    · exact fits_cons h first fits_nil

theorem fitsIn_of_readMembers
    (value : ∀ cs value, toJson (readValue fuel depth cs).1 = .ok value → FitsIn levels value)
    (members : ∀ cs values, membersToJson (readMembers fuel depth cs).1 = .ok values →
      ∀ member ∈ values, FitsIn levels member.2) {values : List (String × Json)}
    (h : membersToJson (readMembers (fuel + 1) depth cs).1 = .ok values) :
    ∀ member ∈ values, FitsIn levels member.2 := by
  have broken (fault : Fault) (value : Json) (h : toJson (.broken fault) = .ok value) :
      FitsIn levels value := by simp at h
  unfold readMembers at h
  split at h
  · split at h
    · exact fits_nil_members values h
    · exact fits_cons_member h (broken _) fits_nil_members
  · split at h
    · exact fits_cons_member h (broken _) fits_nil_members
    · rename_i rest _
      have first := value rest
      split at h
      · rename_i read
        rw [read] at first
        exact fits_cons_member h first fits_nil_members
      · rename_i read
        rw [read] at first
        split at h
        · exact fits_cons_member h first fits_nil_members
        · exact fits_cons_member h first fits_nil_members
        · split at h
          · exact fits_cons_member h first fits_nil_members
          · exact fits_cons_member h first (members _)
          · exact fits_cons_member h first fits_nil_members
          · exact fits_cons_member h first fits_nil_members
        · exact fits_cons_member h first fits_nil_members
    · exact fits_cons_member h (broken _) fits_nil_members

/-- What the three readers read fits in the levels that are left, but for the last of them. -/
theorem fitsIn_of_read (fuel : Nat) :
    (∀ depth cs value, toJson (readValue fuel depth cs).1 = .ok value →
      FitsIn (depth - 1) value) ∧
    (∀ depth cs values, itemsToJson (readItems fuel depth cs).1 = .ok values →
      ∀ item ∈ values, FitsIn (depth - 1) item) ∧
    ∀ depth cs values, membersToJson (readMembers fuel depth cs).1 = .ok values →
      ∀ member ∈ values, FitsIn (depth - 1) member.2 := by
  induction fuel with
  | zero =>
      refine ⟨fun depth cs value h => ?_, fun depth cs => fits_nil, fun depth cs =>
        fits_nil_members⟩
      simp [readValue, ended] at h
  | succ fuel ih =>
      obtain ⟨value, items, members⟩ := ih
      refine ⟨fun depth cs _ => ?_, fun depth cs _ => ?_, fun depth cs _ => ?_⟩
      · exact fitsIn_of_readValue (items (depth - 1)) (members (depth - 1))
      · exact fitsIn_of_readItems (value depth) (items depth)
      · exact fitsIn_of_readMembers (value depth) (members depth)

end Reading

section Normal

theorem mem_of_mem_ofList {α : Type} {entry : String × α} {entries : List (String × α)}
    (h : entry ∈ (Dict.ofList entries).entries) : entry ∈ entries := by
  have added (dict : Dict α) (h : entry ∈ (dict.insertAll entries).entries) :
      entry ∈ dict.entries ∨ entry ∈ entries := by
    clear * - h
    induction entries generalizing dict with
    | nil => exact .inl h
    | cons first rest ih =>
        rcases ih _ h with placed | later
        · rcases Dict.mem_place placed with rfl | before
          · exact .inr List.mem_cons_self
          · exact .inl before
        · exact .inr (List.mem_cons_of_mem first later)
  exact (added Dict.empty h).resolve_left List.not_mem_nil

/-- Sorting members adds no levels. -/
theorem FitsIn.normalize {levels : Nat} {value : Json} (h : FitsIn levels value) :
    FitsIn levels value.normalize := by
  induction levels generalizing value with
  | zero =>
      cases value with
      | arr | obj => exact h.elim
      | _ => trivial
  | succ levels ih =>
      cases value with
      | arr items =>
          rw [Json.normalize, Arrangement.normalizeItems_eq_map]
          intro item hitem
          obtain ⟨source, hsource, rfl⟩ := List.mem_map.1 hitem
          exact ih (h source hsource)
      | obj members =>
          rw [Json.normalize, Arrangement.normalizeMembers_eq_map]
          intro member hmember
          obtain ⟨source, hsource, rfl⟩ := List.mem_map.1 (mem_of_mem_ofList hmember)
          exact ih (h source hsource)
      | _ => trivial

end Normal

theorem fst_read (text : String) :
    (read text).1 = (readValue (2 * text.toList.length + 2) depthLimit text.toList).1 := by
  unfold read
  dsimp only
  split
  · rename_i read
    rw [read]
  · rename_i read
    rw [read]

section Parse

variable {text : String} {value : Json} {flaw : Flaw}

theorem parse_of_error (h : toJson (read text).1 = .error flaw) :
    parse text = .error (.malformed flaw) := by
  have decoded : anyValue .text (read text).1 = .error (.malformed flaw) := by
    rw [anyValue, h]
    rfl
  unfold parse decodeText
  generalize read text = reading at decoded ⊢
  obtain ⟨document, trailing⟩ := reading
  dsimp only at decoded ⊢
  rw [decoded]
  rfl

theorem parse_of_ok (h : toJson (read text).1 = .ok value) :
    parse text =
      if (read text).2 then .error (.malformed .trailingCharacters) else .ok value.normalize := by
  have decoded : anyValue .text (read text).1 = .ok value.normalize := by
    rw [anyValue, h]
    rfl
  unfold parse decodeText
  generalize read text = reading at decoded ⊢
  obtain ⟨document, trailing⟩ := reading
  dsimp only at decoded ⊢
  rw [decoded]
  cases trailing with
  | false => rfl
  | true => rfl

/-- A value that is decoded from a text is nested less deeply than the limit. -/
theorem fitsIn_of_parse (h : parse text = .ok value) : FitsIn (depthLimit - 1) value := by
  cases held : toJson (read text).1 with
  | error flaw =>
      rw [parse_of_error held] at h
      contradiction
  | ok source =>
      rw [parse_of_ok held] at h
      split at h
      · contradiction
      · obtain rfl := Except.ok.inj h
        rw [fst_read] at held
        exact ((fitsIn_of_read _).1 _ _ _ held).normalize

end Parse

section Brackets

/-- A list that holds a list, and so on, some number of times. -/
def bracketed : (inner : Nat) → Json
  | 0 => .arr []
  | inner + 1 => .arr [bracketed inner]

/-- The text of such a list, with more text behind it. -/
def brackets : (inner : Nat) → List Char → List Char
  | 0, rest => '[' :: ']' :: rest
  | inner + 1, rest => '[' :: brackets inner (']' :: rest)

theorem toJson_nested_eq (depth : Nat) (document : Document) :
    toJson (nested depth document) =
      if 1 < depth then toJson document else .error .tooDeep := by
  unfold nested
  split
  · rfl
  · split
    · rfl
    · rfl

theorem exists_brackets_eq_cons (inner : Nat) (rest : List Char) :
    ∃ tail, brackets inner rest = '[' :: tail := by
  cases inner with
  | zero => exact ⟨_, rfl⟩
  | succ inner => exact ⟨_, rfl⟩

/-- Lists that hold lists are read as far as there are levels left. -/
theorem readValue_brackets {fuel inner : Nat} (depth : Nat) (rest : List Char)
    (enough : 2 * inner + 1 ≤ fuel) :
    ∃ document, readValue fuel depth (brackets inner rest) = (document, some rest) ∧
      toJson document = if inner + 1 < depth then .ok (bracketed inner) else .error .tooDeep := by
  induction inner generalizing fuel depth rest with
  | zero =>
      obtain ⟨fuel, rfl⟩ := Nat.exists_eq_add_of_le' enough
      exact ⟨nested depth (.arr [] none), rfl, toJson_nested_eq depth _⟩
  | succ inner ih =>
      obtain ⟨fuel, rfl⟩ := Nat.exists_eq_add_of_le' (show 2 ≤ fuel by omega)
      obtain ⟨document, within, held⟩ :=
        ih (depth - 1) (']' :: rest) (show 2 * inner + 1 ≤ fuel by omega)
      have items : readItems (fuel + 1) (depth - 1) (brackets inner (']' :: rest)) =
          ([document], none, some rest) := by
        rw [readItems, within]
        rfl
      obtain ⟨tail, opened⟩ := exists_brackets_eq_cons inner (']' :: rest)
      rw [opened] at items
      refine ⟨nested depth (.arr [document] none), ?_, ?_⟩
      · rw [brackets, opened]
        simp [readValue, dropBlanks, isBlank, items]
      · rw [toJson_nested_eq, toJson, itemsToJson, held]
        by_cases room : inner + 1 + 1 < depth
        · rw [if_pos room, if_pos (by omega), if_pos (by omega)]
          rfl
        · rw [if_neg room, if_neg (by omega : ¬ inner + 1 < depth - 1)]
          split
          · rfl
          · rfl

theorem length_brackets (inner : Nat) (rest : List Char) :
    (brackets inner rest).length = 2 * (inner + 1) + rest.length := by
  induction inner generalizing rest with
  | zero =>
      rw [brackets, List.length_cons, List.length_cons]
      omega
  | succ inner ih =>
      rw [brackets, List.length_cons, ih, List.length_cons]
      omega

theorem normalize_bracketed (inner : Nat) : (bracketed inner).normalize = bracketed inner := by
  induction inner with
  | zero => rfl
  | succ inner ih => rw [bracketed, normalize, normalizeItems, ih, normalizeItems]

/-- Lists that hold lists are decoded exactly if they are fewer than the limit. -/
theorem parse_brackets (inner : Nat) :
    parse (String.ofList (brackets inner [])) =
      if inner + 1 < depthLimit then .ok (bracketed inner) else .error (.malformed .tooDeep) := by
  have enough : 2 * inner + 1 ≤ 2 * (brackets inner []).length + 2 := by
    rw [length_brackets]
    omega
  obtain ⟨document, found, held⟩ := readValue_brackets depthLimit [] enough
  have text : read (String.ofList (brackets inner [])) = (document, false) := by
    unfold read
    rw [String.toList_ofList]
    dsimp only
    rw [found]
    rfl
  split at held
  · rename_i room
    rw [parse_of_ok (by rw [text]; exact held), text, if_pos room, normalize_bracketed]
    rfl
  · rename_i full
    rw [parse_of_error (by rw [text]; exact held), if_neg full]

end Brackets

end Canvas.Json
