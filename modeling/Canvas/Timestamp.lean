import Canvas.Json.Shape
import Canvas.Text.Digit
import Canvas.Text.Space

/-!
# Points in time

A `Timestamp` is a date of the Gregorian calendar and a time of day, in UTC, to the nanosecond. Leap
seconds have second 60. `Civil` holds the fields before they are known to name a date. A timestamp
is written in the form of RFC 3339 with `Z` and as many fraction digits as are needed: none, three,
six or nine. It is read with any offset, and leniently: blanks may stand before numbers, a number
may have fewer digits, and the letters may be of either case.
-/

namespace Canvas

/-- The fields of a date and a time of day. -/
structure Civil where
  year : Int
  month : Nat
  day : Nat
  hour : Nat
  minute : Nat
  second : Nat
  nanosecond : Nat
  deriving DecidableEq, Inhabited

namespace Civil

/-- Every fourth year has a leap day, but not the centuries that 400 does not divide. -/
def isLeapYear (year : Int) : Bool := year % 4 = 0 && (year % 100 ≠ 0 || year % 400 = 0)

/-- The number of days of a month. -/
def daysInMonth (year : Int) (month : Nat) : Nat :=
  if month = 2 then if isLeapYear year then 29 else 28
  else if month = 4 ∨ month = 6 ∨ month = 9 ∨ month = 11 then 30
  else 31

/-- Whether the fields name a day and a time of day. -/
def Valid (t : Civil) : Prop :=
  1 ≤ t.month ∧ t.month ≤ 12 ∧ 1 ≤ t.day ∧ t.day ≤ daysInMonth t.year t.month ∧
    t.hour < 24 ∧ t.minute < 60 ∧ t.second ≤ 60 ∧ t.nanosecond < 1000000000

instance (t : Civil) : Decidable t.Valid := by unfold Valid; infer_instance

/-- The fields in order of weight. -/
def weights (t : Civil) : List Int :=
  [t.year, t.month, t.day, t.hour, t.minute, t.second, t.nanosecond]

/-- Whether numbers in order of weight do not exceed others: the first difference decides. -/
def notAbove : List Int → List Int → Bool
  | [], _ => true
  | _ :: _, [] => false
  | a :: as, b :: bs => a < b || (a = b && notAbove as bs)

/-- The same time on the next day. -/
def nextDay (t : Civil) : Civil :=
  if t.day < daysInMonth t.year t.month then { t with day := t.day + 1 }
  else if t.month < 12 then { t with month := t.month + 1, day := 1 }
  else { t with year := t.year + 1, month := 1, day := 1 }

/-- The same time on the day before. -/
def previousDay (t : Civil) : Civil :=
  if 1 < t.day then { t with day := t.day - 1 }
  else if 1 < t.month then
    { t with month := t.month - 1, day := daysInMonth t.year (t.month - 1) }
  else { t with year := t.year - 1, month := 12, day := 31 }

/-- The point in time that is a number of minutes earlier, at most a day. -/
def minusMinutes (t : Civil) (minutes : Int) : Civil :=
  let total := (t.hour * 60 + t.minute : Nat) - minutes
  let ofDay := (total % 1440).toNat
  let moved := { t with hour := ofDay / 60, minute := ofDay % 60 }
  if total < 0 then moved.previousDay
  else if 1440 ≤ total then moved.nextDay
  else moved

end Civil

/-- A date and time of day in UTC. -/
structure Timestamp extends Civil where
  valid : toCivil.Valid
  deriving DecidableEq

namespace Timestamp

open Text (dropSpace isSpace ofDigits)

instance : Inhabited Timestamp := ⟨⟨1970, 1, 1, 0, 0, 0, 0⟩, by decide⟩

/-- Whether a point in time is not later than another. -/
def notAfter (s t : Timestamp) : Bool := Civil.notAbove s.weights t.weights

/-- The last `count` decimal digits of a number. -/
def decimalDigits : (count : Nat) → Nat → List Char
  | 0, _ => []
  | count + 1, n => decimalDigits count (n / 10) ++ [Nat.digitChar (n % 10)]

/-- A year: four digits, or a sign and at least four digits when four do not hold it. -/
def yearText (year : Int) : List Char :=
  if 0 ≤ year ∧ year ≤ 9999 then decimalDigits 4 year.toNat
  else
    let digits := Nat.toDigits 10 year.natAbs
    (if year < 0 then '-' else '+') :: (List.replicate (4 - digits.length) '0' ++ digits)

/-- A fraction of a second: nothing, or a point and three, six or nine digits. -/
def fractionText (nanosecond : Nat) : List Char :=
  if nanosecond = 0 then []
  else if nanosecond % 1000000 = 0 then '.' :: decimalDigits 3 (nanosecond / 1000000)
  else if nanosecond % 1000 = 0 then '.' :: decimalDigits 6 (nanosecond / 1000)
  else '.' :: decimalDigits 9 nanosecond

/-- The written form. -/
def toString (t : Timestamp) : String :=
  String.ofList <|
    yearText t.year ++ '-' :: decimalDigits 2 t.month ++ '-' :: decimalDigits 2 t.day
      ++ 'T' :: decimalDigits 2 t.hour ++ ':' :: decimalDigits 2 t.minute
      ++ ':' :: decimalDigits 2 t.second ++ fractionText t.nanosecond ++ ['Z']

instance : ToString Timestamp := ⟨toString⟩

/-- A number of at least one and at most `width` digits, and the text behind it. -/
def number? (width : Nat) (cs : List Char) : Option (Nat × List Char) :=
  let digits := (cs.take width).takeWhile Char.isDigit
  if digits.isEmpty then none else some (ofDigits digits, cs.drop digits.length)

/-- A character that has to stand here, after white space. -/
def mark? (mark : Char) (cs : List Char) : Option (List Char) :=
  match dropSpace cs with
  | c :: rest => if c = mark then some rest else none
  | [] => none

/-- A number of up to two digits that lies within bounds. -/
def field? (low high : Nat) (cs : List Char) : Option (Nat × List Char) := do
  let (n, rest) ← number? 2 (dropSpace cs)
  if low ≤ n ∧ n ≤ high then some (n, rest) else none

/-- A year: up to four digits, or a sign and any number of digits. -/
def year? (cs : List Char) : Option (Int × List Char) :=
  match dropSpace cs with
  | '-' :: rest => (number? rest.length rest).map fun (n, rest) => (-(n : Int), rest)
  | '+' :: rest => (number? rest.length rest).map fun (n, rest) => ((n : Int), rest)
  | rest => (number? 4 rest).map fun (n, rest) => ((n : Int), rest)

/-- A fraction of a second in nanoseconds, if there is one. Digits behind the ninth are dropped. -/
def fraction? (cs : List Char) : Option (Nat × List Char) :=
  match cs with
  | '.' :: rest =>
    let digits := rest.takeWhile Char.isDigit
    let kept := digits.take 9
    if digits.isEmpty then none
    else some (ofDigits kept * Nat.pow 10 (9 - kept.length), rest.drop digits.length)
  | _ => some (0, cs)

/-- The hours and minutes of an offset behind its sign, as minutes. -/
def offsetMinutes? (cs : List Char) : Option (Nat × List Char) :=
  match cs with
  | a :: b :: rest =>
    match rest.dropWhile (fun c => c = ':' || isSpace c) with
    | c :: d :: rest =>
      if a.isDigit && b.isDigit && c.isDigit && d.isDigit then
        let minutes := ofDigits [c, d]
        if minutes < 60 then some (ofDigits [a, b] * 60 + minutes, rest) else none
      else none
    | _ => none
  | _ => none

/-- An offset from UTC in minutes. It is less than a day. -/
def offset? (cs : List Char) : Option (Int × List Char) :=
  match cs with
  | 'Z' :: rest | 'z' :: rest => some (0, rest)
  | sign :: rest =>
    match cs.take 3 |>.map Char.toUpper with
    | ['U', 'T', 'C'] => some (0, cs.drop 3)
    | _ => do
      let negative ← if sign = '+' then some false
        else if sign = '-' ∨ sign = '−' then some true
        else none
      let (minutes, rest) ← offsetMinutes? rest
      if 1440 ≤ minutes then none
      else some (if negative then -minutes else minutes, rest)
  | [] => none

/-- The years for which dates are kept. -/
def isKeptYear (year : Int) : Bool := -262143 ≤ year && year ≤ 262142

/-- Read a point in time. -/
def ofString? (s : String) : Option Timestamp := do
  let (year, cs) ← year? s.toList
  let cs ← mark? '-' cs
  let (month, cs) ← field? 1 12 cs
  let cs ← mark? '-' cs
  let (day, cs) ← field? 1 31 cs
  let cs ← match cs with
    | 'T' :: rest | 't' :: rest | ' ' :: rest => some rest
    | _ => none
  let (hour, cs) ← field? 0 23 cs
  let cs ← mark? ':' cs
  let (minute, cs) ← field? 0 59 cs
  let cs ← mark? ':' cs
  let (second, cs) ← field? 0 60 cs
  let (nanosecond, cs) ← fraction? cs
  let (offset, cs) ← offset? (dropSpace cs)
  let civil : Civil := ⟨year, month, day, hour, minute, second, nanosecond⟩
  let utc := civil.minusMinutes offset
  if h : utc.Valid then
    if civil.Valid ∧ isKeptYear year ∧ isKeptYear utc.year ∧ (dropSpace cs).isEmpty then
      some ⟨utc, h⟩
    else none
  else none

/-- Decode a point in time. -/
def decode : Json.Decoder Timestamp :=
  Json.notated "an RFC 3339 formatted date and time string" ofString? .badTimestamp

/-- Encode a point in time. -/
def encode (t : Timestamp) : Json := .str t.toString

end Timestamp

end Canvas
