/-!
# Sorted dictionaries

A `Dict` maps strings to values and lists its entries in strictly ascending order of key. The order
is part of the type, so two dictionaries that answer every look-up alike are equal
(`Dict.ext_find?`). Writing a key that is already there replaces its value.
-/

namespace Canvas

/-- Entries in strictly ascending order of key. Keys are compared character by character, by code
point. -/
structure Dict (α : Type) where
  entries : List (String × α)
  sorted : entries.Pairwise (fun a b => a.1 < b.1)

namespace Dict

variable {α : Type}

/-- The value written under a key in a list of entries. -/
def lookup (key : String) : List (String × α) → Option α
  | [] => none
  | (k, v) :: rest => if k = key then some v else lookup key rest

/-- Put an entry in its place, replacing the one with the same key. -/
def place (key : String) (value : α) : List (String × α) → List (String × α)
  | [] => [(key, value)]
  | (k, v) :: rest =>
    if key < k then (key, value) :: (k, v) :: rest
    else if key = k then (key, value) :: rest
    else (k, v) :: place key value rest

theorem mem_place {key : String} {value : α} {entries : List (String × α)} {e : String × α}
    (h : e ∈ place key value entries) : e = (key, value) ∨ e ∈ entries := by
  induction entries with
  | nil => simpa [place] using h
  | cons head rest ih =>
    obtain ⟨k, v⟩ := head
    simp only [place] at h
    split at h
    · simpa using h
    · split at h
      · rcases List.mem_cons.1 h with h | h <;> simp [h]
      · rcases List.mem_cons.1 h with h | h
        · simp [h]
        · rcases ih h with h | h <;> simp [h]

theorem pairwise_place {key : String} {value : α} {entries : List (String × α)}
    (h : entries.Pairwise (fun a b => a.1 < b.1)) :
    (place key value entries).Pairwise (fun a b => a.1 < b.1) := by
  induction entries with
  | nil => simp [place]
  | cons head rest ih =>
    obtain ⟨k, v⟩ := head
    rw [List.pairwise_cons] at h
    simp only [place]
    split
    · rename_i hlt
      refine List.pairwise_cons.2 ⟨?_, List.pairwise_cons.2 h⟩
      intro e he
      rcases List.mem_cons.1 he with rfl | he
      · exact hlt
      · exact String.lt_trans hlt (h.1 e he)
    · split
      · rename_i heq
        exact List.pairwise_cons.2 ⟨fun e he => heq ▸ h.1 e he, h.2⟩
      · rename_i hlt hne
        refine List.pairwise_cons.2 ⟨?_, ih h.2⟩
        intro e he
        rcases mem_place he with rfl | he
        · have hle : k ≤ key := String.not_lt.1 hlt
          exact Classical.byContradiction fun hk =>
            hne (String.le_antisymm (String.not_lt.1 hk) hle)
        · exact h.1 e he

/-- The dictionary without entries. -/
def empty : Dict α := ⟨[], .nil⟩

instance : Inhabited (Dict α) := ⟨empty⟩

/-- The value under a key, if there is one. -/
def find? (d : Dict α) (key : String) : Option α := lookup key d.entries

/-- Write a value under a key. -/
def insert (d : Dict α) (key : String) (value : α) : Dict α :=
  ⟨place key value d.entries, pairwise_place d.sorted⟩

/-- Write all entries of a list, first to last. -/
def insertAll (d : Dict α) (entries : List (String × α)) : Dict α :=
  entries.foldl (fun d e => d.insert e.1 e.2) d

/-- The dictionary of a list of entries; of entries with one key the last counts. -/
def ofList (entries : List (String × α)) : Dict α := empty.insertAll entries

/-- Whether a key is there. -/
def contains (d : Dict α) (key : String) : Bool := (d.find? key).isSome

/-- The keys, in ascending order. -/
def keys (d : Dict α) : List String := d.entries.map (·.1)

/-- The entries whose key satisfies a test. -/
def filterKeys (d : Dict α) (keep : String → Bool) : Dict α :=
  ⟨d.entries.filter (fun e => keep e.1), d.sorted.filter _⟩

theorem mem_keys {d : Dict α} {key : String} :
    key ∈ d.keys ↔ ∃ value, d.find? key = some value := by
  obtain ⟨entries, sorted⟩ := d
  simp only [keys, find?]
  clear sorted
  induction entries with
  | nil => simp [lookup]
  | cons head rest ih =>
    simp only [List.map_cons, List.mem_cons, lookup, ih]
    by_cases hk : head.1 = key
    · simp [hk]
    · simp [hk, Ne.symm hk]

@[simp] theorem find?_empty (key : String) : (empty : Dict α).find? key = none := rfl

theorem lookup_place (key key' : String) (value : α) (entries : List (String × α)) :
    lookup key' (place key value entries) =
      if key = key' then some value else lookup key' entries := by
  induction entries with
  | nil => simp [place, lookup]
  | cons head rest ih =>
    obtain ⟨k, v⟩ := head
    simp only [place]
    split
    · simp [lookup]
    · split
      · rename_i h
        subst h
        simp only [lookup]
        split <;> rfl
      · rename_i hne
        simp only [lookup, ih]
        by_cases hk : k = key'
        · subst hk
          simp [hne]
        · simp [hk]

@[simp] theorem find?_insert (d : Dict α) (key key' : String) (value : α) :
    (d.insert key value).find? key' = if key = key' then some value else d.find? key' :=
  lookup_place key key' value d.entries

theorem find?_insertAll_map (d : Dict α) (keys : List String) (value : String → α) (key : String) :
    (d.insertAll (keys.map fun k => (k, value k))).find? key =
      if key ∈ keys then some (value key) else d.find? key := by
  induction keys generalizing d with
  | nil => simp [insertAll]
  | cons k rest ih =>
    have step : d.insertAll ((k :: rest).map fun k => (k, value k)) =
        (d.insert k (value k)).insertAll (rest.map fun k => (k, value k)) := rfl
    rw [step, ih, find?_insert]
    by_cases hr : key ∈ rest
    · simp [hr]
    · by_cases hk : k = key
      · simp [hk]
      · simp [hr, hk, Ne.symm hk]

/-- A dictionary that is tabulated from a function answers as the function does. -/
theorem find?_ofList_map (keys : List String) (value : String → α) (key : String) :
    (ofList (keys.map fun k => (k, value k))).find? key =
      if key ∈ keys then some (value key) else none :=
  find?_insertAll_map empty keys value key

theorem lookup_filter (keep : String → Bool) (key : String) (entries : List (String × α)) :
    lookup key (entries.filter fun e => keep e.1) =
      if keep key then lookup key entries else none := by
  induction entries with
  | nil => simp [lookup]
  | cons head rest ih =>
    by_cases hk : head.1 = key
    · subst hk
      by_cases hkeep : keep head.1
      · simp [lookup, hkeep]
      · simpa [hkeep] using ih
    · by_cases hkeep : keep head.1
      · simpa [lookup, hkeep, hk] using ih
      · simpa [lookup, hkeep, hk] using ih

@[simp] theorem find?_filterKeys (d : Dict α) (keep : String → Bool) (key : String) :
    (d.filterKeys keep).find? key = if keep key then d.find? key else none :=
  lookup_filter keep key d.entries

theorem lookup_eq_none {key : String} {entries : List (String × α)}
    (h : ∀ e ∈ entries, key < e.1) : lookup key entries = none := by
  induction entries with
  | nil => rfl
  | cons head rest ih =>
    have hne : head.1 ≠ key := fun he => String.lt_irrefl key (he ▸ h head (by simp))
    simp only [lookup, hne, if_false]
    exact ih fun e he => h e (by simp [he])

theorem ext_lookup {xs ys : List (String × α)} (hx : xs.Pairwise (fun a b => a.1 < b.1))
    (hy : ys.Pairwise (fun a b => a.1 < b.1)) (h : ∀ key, lookup key xs = lookup key ys) :
    xs = ys := by
  induction xs generalizing ys with
  | nil =>
    cases ys with
    | nil => rfl
    | cons y ys => have := h y.1; simp [lookup] at this
  | cons x xs ih =>
    cases ys with
    | nil => have := h x.1; simp [lookup] at this
    | cons y ys =>
      rw [List.pairwise_cons] at hx hy
      have key_eq : x.1 = y.1 := by
        refine Classical.byContradiction fun hne => ?_
        rcases String.le_total x.1 y.1 with hle | hle
        · have hlt : x.1 < y.1 := Classical.byContradiction fun hn =>
            hne (String.le_antisymm hle (String.not_lt.1 hn))
          have := h x.1
          rw [@lookup_eq_none _ _ (y :: ys)] at this
          · simp [lookup] at this
          · intro e he
            rcases List.mem_cons.1 he with rfl | he
            · exact hlt
            · exact String.lt_trans hlt (hy.1 e he)
        · have hlt : y.1 < x.1 := Classical.byContradiction fun hn =>
            hne (String.le_antisymm (String.not_lt.1 hn) hle)
          have := h y.1
          rw [@lookup_eq_none _ _ (x :: xs)] at this
          · simp [lookup] at this
          · intro e he
            rcases List.mem_cons.1 he with rfl | he
            · exact hlt
            · exact String.lt_trans hlt (hx.1 e he)
      have value_eq : x.2 = y.2 := by
        have := h x.1
        simpa [lookup, key_eq] using this
      have head_eq : x = y := Prod.ext key_eq value_eq
      subst head_eq
      refine congrArg _ (ih hx.2 hy.2 fun key => ?_)
      by_cases hk : x.1 = key
      · subst hk
        rw [lookup_eq_none hx.1, lookup_eq_none hy.1]
      · simpa [lookup, hk] using h key

/-- Dictionaries are equal when every look-up is. -/
theorem ext_find? {d e : Dict α} (h : ∀ key, d.find? key = e.find? key) : d = e := by
  obtain ⟨xs, hx⟩ := d
  obtain ⟨ys, hy⟩ := e
  have : xs = ys := ext_lookup hx hy h
  subst this
  rfl

end Dict

end Canvas
