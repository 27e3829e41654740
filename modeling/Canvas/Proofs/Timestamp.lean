import Canvas.Timestamp
import Mathlib.Algebra.Ring.Nat
import Mathlib.Data.List.TakeWhile
import Mathlib.Tactic.SplitIfs

/-!
# Points in time read back and compared

A point in time of the years that four digits hold is read back from its written form, to the
nanosecond. Each part of the form is read back whatever stands behind it, as long as no digit
follows where digits may go on. The offset is `Z` and moves nothing.

Points in time are compared field by field, the year first. This is a total order.
-/

namespace Canvas

namespace Civil

theorem daysInMonth_le (year : Int) (month : Nat) : daysInMonth year month ≤ 31 := by
  unfold daysInMonth
  split_ifs
  all_goals omega

/-- An offset of nothing moves nothing. -/
theorem minusMinutes_zero {t : Civil} (h : t.Valid) : t.minusMinutes 0 = t := by
  obtain ⟨-, -, -, -, hour, minute, -⟩ := h
  have minutes : ((t.hour * 60 + t.minute : Nat) - (0 : Int)) = (t.hour * 60 + t.minute : Nat) := by
    omega
  have ofDay : ((t.hour * 60 + t.minute : Nat) % (1440 : Int)).toNat = t.hour * 60 + t.minute := by
    omega
  have hours : (t.hour * 60 + t.minute) / 60 = t.hour := by omega
  have rest : (t.hour * 60 + t.minute) % 60 = t.minute := by omega
  simp only [minusMinutes, minutes, ofDay, hours, rest]
  rw [if_neg (by omega), if_neg (by omega)]

section Comparison

variable {a b : Int} {s t u : List Int}

theorem notAbove_cons_iff :
    notAbove (a :: s) (b :: t) = true ↔ a < b ∨ a = b ∧ notAbove s t = true := by
  simp [notAbove]

theorem notAbove_self (t : List Int) : notAbove t t = true := by
  induction t with
  | nil => rfl
  | cons b t ih => exact notAbove_cons_iff.2 (.inr ⟨rfl, ih⟩)

theorem notAbove_trans (h : notAbove s t = true) (h' : notAbove t u = true) :
    notAbove s u = true := by
  induction s generalizing t u with
  | nil => rfl
  | cons a s ih =>
      cases t with
      | nil => contradiction
      | cons b t =>
          cases u with
          | nil => contradiction
          | cons c u =>
              rw [notAbove_cons_iff] at h h' ⊢
              rcases h with lt | ⟨rfl, h⟩
              · rcases h' with lt' | ⟨rfl, -⟩
                · exact .inl (Int.lt_trans lt lt')
                · exact .inl lt
              · exact h'.imp_right fun ⟨same, h'⟩ => ⟨same, ih h h'⟩

theorem notAbove_total (s t : List Int) : notAbove s t = true ∨ notAbove t s = true := by
  induction s generalizing t with
  | nil => exact .inl rfl
  | cons a s ih =>
      cases t with
      | nil => exact .inr rfl
      | cons b t =>
          rw [notAbove_cons_iff, notAbove_cons_iff]
          rcases Int.lt_trichotomy a b with lt | rfl | lt
          · exact .inl (.inl lt)
          · exact (ih t).imp (fun h => .inr ⟨rfl, h⟩) fun h => .inr ⟨rfl, h⟩
          · exact .inr (.inl lt)

end Comparison

end Civil

namespace Timestamp

open Text (dropSpace isSpace ofDigits digitValue)

section Digits

theorem digitChar_of_lt : ∀ digit < 10,
    (Nat.digitChar digit).isDigit = true ∧ digitValue (Nat.digitChar digit) = digit := by
  decide

@[simp] theorem length_decimalDigits (count n : Nat) : (decimalDigits count n).length = count := by
  induction count generalizing n with
  | zero => rfl
  | succ count ih => simp [decimalDigits, ih]

theorem isDigit_of_mem_decimalDigits {count n : Nat} {c : Char} (h : c ∈ decimalDigits count n) :
    c.isDigit = true := by
  induction count generalizing n with
  | zero => exact absurd h List.not_mem_nil
  | succ count ih =>
      rcases List.mem_append.1 h with first | last
      · exact ih first
      · rw [List.mem_singleton.1 last]
        exact (digitChar_of_lt _ (Nat.mod_lt n (by decide))).1

/-- The last digits of a number are read as what is left of the number. -/
theorem ofDigits_decimalDigits (count n : Nat) :
    ofDigits (decimalDigits count n) = n % 10 ^ count := by
  induction count generalizing n with
  | zero => simp [decimalDigits, ofDigits, Nat.mod_one]
  | succ count ih =>
      have last := (digitChar_of_lt (n % 10) (Nat.mod_lt n (by decide))).2
      have first := ih (n / 10)
      rw [ofDigits] at first
      rw [ofDigits, decimalDigits, List.foldl_append, first, Nat.pow_succ', Nat.mod_mul]
      simp only [List.foldl_cons, List.foldl_nil, last]
      omega

/-- A character that is no digit, if there is one, stands at the start of a text. -/
def NoDigitAhead (cs : List Char) : Prop := ∀ c ∈ cs.head?, c.isDigit = false

theorem takeWhile_decimalDigits (count n : Nat) {rest : List Char} (ahead : NoDigitAhead rest) :
    (decimalDigits count n ++ rest).takeWhile Char.isDigit = decimalDigits count n := by
  rw [List.takeWhile_append_of_pos fun _ => isDigit_of_mem_decimalDigits]
  cases rest with
  | nil => simp
  | cons c rest => simp [ahead c rfl]

theorem isSpace_of_isDigit {c : Char} (h : c.isDigit = true) : isSpace c = false := by
  simp only [Char.isDigit, Bool.and_eq_true, decide_eq_true_eq, UInt32.le_iff_toNat_le] at h
  have low : 48 ≤ c.toNat := h.1
  have high : c.toNat ≤ 57 := h.2
  simp [isSpace]
  omega

theorem dropSpace_cons {c : Char} (h : isSpace c = false) (rest : List Char) :
    dropSpace (c :: rest) = c :: rest := by
  simp [dropSpace, h]

theorem exists_decimalDigits_eq_cons (count n : Nat) :
    ∃ c rest, decimalDigits (count + 1) n = c :: rest ∧ c.isDigit = true := by
  cases digits : decimalDigits (count + 1) n with
  | nil =>
      have length := length_decimalDigits (count + 1) n
      rw [digits] at length
      contradiction
  | cons c rest =>
      refine ⟨c, rest, rfl, ?_⟩
      apply @isDigit_of_mem_decimalDigits (count + 1) n
      rw [digits]
      exact List.mem_cons_self

theorem dropSpace_decimalDigits (count n : Nat) (rest : List Char) :
    dropSpace (decimalDigits (count + 1) n ++ rest) = decimalDigits (count + 1) n ++ rest := by
  obtain ⟨c, others, digits, digit⟩ := exists_decimalDigits_eq_cons count n
  rw [digits]
  exact dropSpace_cons (isSpace_of_isDigit digit) _

end Digits

section Parts

/-- A number in as many digits as it may have is read back. -/
theorem number?_decimalDigits {count n : Nat} (small : n < 10 ^ (count + 1)) (rest : List Char) :
    number? (count + 1) (decimalDigits (count + 1) n ++ rest) = some (n, rest) := by
  have taken : (decimalDigits (count + 1) n ++ rest).take (count + 1) =
      decimalDigits (count + 1) n := List.take_left' (length_decimalDigits _ _)
  have digits : (decimalDigits (count + 1) n).takeWhile Char.isDigit =
      decimalDigits (count + 1) n := by
    rw [List.takeWhile_eq_self_iff]
    exact fun _ => isDigit_of_mem_decimalDigits
  have any : (decimalDigits (count + 1) n).isEmpty = false := by
    rw [List.isEmpty_eq_false_iff_exists_mem]
    obtain ⟨c, others, digits, -⟩ := exists_decimalDigits_eq_cons count n
    exact ⟨c, digits ▸ List.mem_cons_self⟩
  simp only [number?, taken, digits, any, length_decimalDigits, ofDigits_decimalDigits,
    Nat.mod_eq_of_lt small, List.drop_left' (length_decimalDigits (count + 1) n)]
  rfl

theorem field?_decimalDigits {low high n : Nat} (small : n < 100) (least : low ≤ n)
    (most : n ≤ high) (rest : List Char) :
    field? low high (decimalDigits 2 n ++ rest) = some (n, rest) := by
  have number := @number?_decimalDigits 1 n (by omega) rest
  simp only [field?, dropSpace_decimalDigits 1 n rest, number]
  simp [least, most]

theorem mark?_cons {mark : Char} (solid : isSpace mark = false) (rest : List Char) :
    mark? mark (mark :: rest) = some rest := by
  simp [mark?, dropSpace_cons solid]

theorem year?_yearText {year : Int} (known : 0 ≤ year ∧ year ≤ 9999) (rest : List Char) :
    year? (yearText year ++ rest) = some (year, rest) := by
  have number := @number?_decimalDigits 3 year.toNat (by omega) rest
  obtain ⟨c, others, digits, digit⟩ := exists_decimalDigits_eq_cons 3 year.toNat
  have unsigned : c ≠ '-' ∧ c ≠ '+' := by
    constructor
    · rintro rfl
      contradiction
    · rintro rfl
      contradiction
  rw [yearText, if_pos known, year?, dropSpace_decimalDigits]
  rw [digits, List.cons_append] at number ⊢
  split
  · rename_i same
    exact absurd (List.cons.inj same).1 unsigned.1
  · rename_i same
    exact absurd (List.cons.inj same).1 unsigned.2
  · rw [number]
    exact congrArg (fun n : Int => some (n, rest)) (Int.toNat_of_nonneg known.1)

theorem fraction?_decimalDigits {count n : Nat} (small : n < 10 ^ (count + 1)) (short : count < 9)
    {rest : List Char} (ahead : NoDigitAhead rest) :
    fraction? ('.' :: decimalDigits (count + 1) n ++ rest) =
      some (n * 10 ^ (8 - count), rest) := by
  have length := length_decimalDigits (count + 1) n
  have digits := takeWhile_decimalDigits (count + 1) n ahead
  have kept : (decimalDigits (count + 1) n).take 9 = decimalDigits (count + 1) n := by
    apply List.take_of_length_le
    omega
  have any : (decimalDigits (count + 1) n).isEmpty = false := by
    obtain ⟨c, others, digits, -⟩ := exists_decimalDigits_eq_cons count n
    rw [digits]
    rfl
  simp only [fraction?, List.cons_append, digits, kept, any, length, ofDigits_decimalDigits,
    Nat.mod_eq_of_lt small, List.drop_left' length]
  rw [show 9 - (count + 1) = 8 - count by omega]
  rfl

/-- A fraction of three, six or nine digits has lost nothing. -/
theorem fraction?_fractionText {nanosecond : Nat} (small : nanosecond < 1000000000)
    {rest : List Char} (ahead : NoDigitAhead rest) (solid : rest.head? ≠ some '.') :
    fraction? (fractionText nanosecond ++ rest) = some (nanosecond, rest) := by
  unfold fractionText
  split_ifs with whole millis micros
  · subst whole
    rw [List.nil_append, fraction?]
    rintro others rfl
    exact solid rfl
  · rw [@fraction?_decimalDigits 2 (nanosecond / 1000000) (by omega) (by omega) _ ahead]
    congr 2
    omega
  · rw [@fraction?_decimalDigits 5 (nanosecond / 1000) (by omega) (by omega) _ ahead]
    congr 2
    omega
  · rw [@fraction?_decimalDigits 8 nanosecond (by omega) (by omega) _ ahead]
    congr 2
    omega

end Parts

/-- The written form, each part behind the other. -/
theorem toList_toString (t : Timestamp) : t.toString.toList =
    yearText t.year ++ '-' :: (decimalDigits 2 t.month ++ '-' :: (decimalDigits 2 t.day ++
      'T' :: (decimalDigits 2 t.hour ++ ':' :: (decimalDigits 2 t.minute ++
        ':' :: (decimalDigits 2 t.second ++ (fractionText t.nanosecond ++ ['Z'])))))) := by
  simp only [toString, String.toList_ofList, List.append_assoc, List.cons_append]

/-- A point in time is read back from its written form. -/
theorem ofString?_toString {t : Timestamp} (known : 0 ≤ t.year ∧ t.year ≤ 9999) :
    ofString? t.toString = some t := by
  have form := toList_toString t
  obtain ⟨civil, valid⟩ := t
  change 0 ≤ civil.year ∧ civil.year ≤ 9999 at known
  have utc := Civil.minusMinutes_zero valid
  obtain ⟨month, months, day, days, hour, minute, second, nanosecond⟩ := id valid
  have mostDays := Civil.daysInMonth_le civil.year civil.month
  have hyphen : isSpace '-' = false := by decide
  have colon : isSpace ':' = false := by decide
  have kept : isKeptYear civil.year = true := by
    simp only [isKeptYear, Bool.and_eq_true, decide_eq_true_eq]
    omega
  have fraction : fraction? (fractionText civil.nanosecond ++ ['Z']) =
      some (civil.nanosecond, ['Z']) := by
    apply fraction?_fractionText nanosecond
    · rintro c ⟨⟩
      decide
    · decide
  have offset : offset? (dropSpace ['Z']) = some (0, []) := rfl
  rw [ofString?, form]
  refine Option.bind_eq_some_iff.2 ⟨_, year?_yearText known _, ?_⟩
  refine Option.bind_eq_some_iff.2 ⟨_, mark?_cons hyphen _, ?_⟩
  refine Option.bind_eq_some_iff.2 ⟨_, field?_decimalDigits (by omega) month months _, ?_⟩
  refine Option.bind_eq_some_iff.2 ⟨_, mark?_cons hyphen _, ?_⟩
  refine Option.bind_eq_some_iff.2 ⟨_, field?_decimalDigits (by omega) day (by omega) _, ?_⟩
  refine Option.bind_eq_some_iff.2 ⟨_, rfl, ?_⟩
  refine Option.bind_eq_some_iff.2 ⟨_, field?_decimalDigits (hour.trans (by decide))
    (Nat.zero_le _) (Nat.le_of_lt_succ hour) _, ?_⟩
  refine Option.bind_eq_some_iff.2 ⟨_, mark?_cons colon _, ?_⟩
  refine Option.bind_eq_some_iff.2 ⟨_, field?_decimalDigits (minute.trans (by decide))
    (Nat.zero_le _) (Nat.le_of_lt_succ minute) _, ?_⟩
  refine Option.bind_eq_some_iff.2 ⟨_, mark?_cons colon _, ?_⟩
  refine Option.bind_eq_some_iff.2 ⟨_, field?_decimalDigits (by omega) (Nat.zero_le _) second _, ?_⟩
  refine Option.bind_eq_some_iff.2 ⟨_, fraction, ?_⟩
  refine Option.bind_eq_some_iff.2 ⟨_, offset, ?_⟩
  simp only [utc]
  rw [dif_pos valid, if_pos ⟨valid, kept, kept, rfl⟩]

end Timestamp

end Canvas
