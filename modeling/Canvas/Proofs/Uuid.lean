import Canvas.Uuid
import Mathlib.Algebra.Ring.Nat

/-!
# Identifiers read back

Every identifier is read back from its written form. The digits carry the number, the groups carry
the digits, and the first character is a digit, so that the written form is taken for no other.
-/

namespace Canvas

namespace Uuid

/-- A digit of a written identifier has its value, and none of the other forms begins with it. -/
theorem hexValue?_digitChar : ∀ digit < 16,
    Text.hexValue? (Nat.digitChar digit) = some digit ∧ Nat.digitChar digit ≠ '\x7b' ∧
      (Nat.digitChar digit).toLower ≠ 'u' := by
  decide

@[simp] theorem length_hexDigits (count n : Nat) : (hexDigits count n).length = count := by
  induction count generalizing n with
  | zero => rfl
  | succ count ih => simp [hexDigits, ih]

theorem mem_hexDigits {count n : Nat} {c : Char} (h : c ∈ hexDigits count n) :
    ∃ digit < 16, c = Nat.digitChar digit := by
  induction count generalizing n with
  | zero => exact absurd h List.not_mem_nil
  | succ count ih =>
      rcases List.mem_append.1 h with first | last
      · exact ih first
      · exact ⟨n % 16, Nat.mod_lt n (by decide), List.mem_singleton.1 last⟩

/-- The last digits of a number are read as what is left of the number. -/
theorem ofHexDigits?_hexDigits (count n : Nat) :
    ofHexDigits? (hexDigits count n) = some (n % 16 ^ count) := by
  induction count generalizing n with
  | zero => simp [hexDigits, ofHexDigits?, Nat.mod_one]
  | succ count ih =>
      have last := (hexValue?_digitChar (n % 16) (Nat.mod_lt n (by decide))).1
      have first := ih (n / 16)
      rw [ofHexDigits?] at first
      rw [ofHexDigits?, hexDigits, List.foldlM_append, first, Nat.pow_succ', Nat.mod_mul]
      simp only [List.foldlM_cons, List.foldlM_nil, last, Option.map_some, bind, Option.bind_some,
        pure]
      congr 1
      omega

theorem length_hyphenate (sizes : List Nat) (digits : List Char) (h : sizes.sum ≤ digits.length) :
    (hyphenate sizes digits).length = digits.length + sizes.length := by
  induction sizes generalizing digits with
  | nil => rfl
  | cons size rest ih =>
      rw [List.sum_cons] at h
      have others := ih (digits.drop size) (by rw [List.length_drop]; omega)
      rw [List.length_drop] at others
      simp only [hyphenate, List.length_append, List.length_cons, List.length_take, others]
      omega

/-- The groups are found again where the hyphens are. -/
theorem unhyphenate?_hyphenate (sizes : List Nat) (digits : List Char)
    (h : sizes.sum ≤ digits.length) :
    unhyphenate? sizes (hyphenate sizes digits) = some digits := by
  induction sizes generalizing digits with
  | nil => rfl
  | cons size rest ih =>
      rw [List.sum_cons] at h
      have others := ih (digits.drop size) (by rw [List.length_drop]; omega)
      have group : (digits.take size).length = size := by
        rw [List.length_take]
        omega
      simp only [hyphenate, unhyphenate?]
      rw [List.drop_left' group, List.take_left' group]
      simp only [others, Option.map_some, List.take_append_drop]

theorem ofDigits?_hexDigits (id : Uuid) : ofDigits? (hexDigits 32 id.bits.toNat) = some id := by
  have bound : id.bits.toNat < 16 ^ 32 := id.bits.isLt
  rw [ofDigits?, if_pos (length_hexDigits 32 _), ofHexDigits?_hexDigits, Nat.mod_eq_of_lt bound,
    Option.map_some, BitVec.ofNat_toNat, BitVec.setWidth_eq]

theorem length_toString (id : Uuid) : id.toString.toList.length = 36 := by
  rw [toString, String.toList_ofList, length_hyphenate, length_hexDigits]
  · rfl
  · rw [length_hexDigits]
    decide

theorem mem_hyphenate {sizes : List Nat} {digits : List Char} {c : Char}
    (h : c ∈ hyphenate sizes digits) : c ∈ digits ∨ c = '-' := by
  induction sizes generalizing digits with
  | nil => exact .inl h
  | cons size rest ih =>
      rcases List.mem_append.1 h with group | others
      · exact .inl (List.mem_of_mem_take group)
      · rcases List.mem_cons.1 others with hyphen | others
        · exact .inr hyphen
        · exact (ih others).imp_left List.mem_of_mem_drop

/-- The written form consists of digits and hyphens. -/
theorem mem_toString {id : Uuid} {c : Char} (h : c ∈ id.toString.toList) :
    (∃ digit < 16, c = Nat.digitChar digit) ∨ c = '-' := by
  rw [toString, String.toList_ofList] at h
  exact (mem_hyphenate h).imp_left mem_hexDigits

theorem ofHyphenated?_toString (id : Uuid) : ofHyphenated? id.toString.toList = some id := by
  rw [ofHyphenated?, if_pos (length_toString id), toString, String.toList_ofList,
    unhyphenate?_hyphenate, Option.bind_some, ofDigits?_hexDigits]
  rw [length_hexDigits]
  decide

/-- A written identifier begins with a digit. -/
theorem exists_toList_eq_cons (id : Uuid) :
    ∃ digit < 16, ∃ rest, id.toString.toList = Nat.digitChar digit :: rest := by
  rw [toString, String.toList_ofList]
  have all : ∀ c ∈ hexDigits 32 id.bits.toNat, ∃ digit < 16, c = Nat.digitChar digit :=
    fun _ => mem_hexDigits
  have length := length_hexDigits 32 id.bits.toNat
  generalize hexDigits 32 id.bits.toNat = digits at all length ⊢
  cases digits with
  | nil => exact absurd length (by simp)
  | cons first others =>
      obtain ⟨digit, small, rfl⟩ := all first List.mem_cons_self
      exact ⟨digit, small, _, rfl⟩

/-- An identifier is read back from its written form. -/
theorem ofString?_toString (id : Uuid) : ofString? id.toString = some id := by
  have read := ofHyphenated?_toString id
  have length := length_toString id
  obtain ⟨digit, small, rest, form⟩ := exists_toList_eq_cons id
  obtain ⟨-, unbraced, unnamed⟩ := hexValue?_digitChar digit small
  rw [form] at read length
  have other : ((Nat.digitChar digit :: rest).take urn.length).map Char.toLower ≠ urn := by
    intro same
    exact unnamed (List.cons.inj same).1
  unfold ofString?
  rw [form]
  split
  · rename_i braced
    exact absurd (List.cons.inj braced).1 unbraced
  · rw [if_neg (by omega), if_neg other]
    exact read

end Uuid

end Canvas
