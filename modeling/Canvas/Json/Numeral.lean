import Canvas.Json.Flaw
import Canvas.Text.Digit

/-!
# Numerals

A numeral without fraction and exponent is an integer as long as it fits 64 bits, signed or
unsigned; every other numeral is a float. The digits of a float are collected in a 64-bit
coefficient while they fit; digits behind that only move the point. The coefficient, rounded, is
then multiplied or divided by a rounded power of ten. A result beyond the float range is a fault.
-/

namespace Canvas.Json

/-- A number that was read. -/
inductive Number where
  | int (value : Int)
  | float (value : Float)

/-- Digits gathered so far: a 64-bit coefficient and a power of ten. -/
structure Gathered where
  coefficient : Nat
  exponent : Int
  deriving DecidableEq

namespace Gathered

/-- No digit yet. -/
def zero : Gathered := ⟨0, 0⟩

/-- Take the digits of a whole part. Once one does not fit, the rest only count. -/
def whole (g : Gathered) : List Char → Gathered
  | [] => g
  | c :: rest =>
    let next := g.coefficient * 10 + Text.digitValue c
    if next < Nat.pow 2 64 then whole ⟨next, g.exponent⟩ rest
    else ⟨g.coefficient, g.exponent + (rest.length + 1)⟩

/-- Take the digits of a fraction. Once one does not fit, the rest are dropped. -/
def fraction (g : Gathered) : List Char → Gathered
  | [] => g
  | c :: rest =>
    let next := g.coefficient * 10 + Text.digitValue c
    if next < Nat.pow 2 64 then fraction ⟨next, g.exponent - 1⟩ rest else g

/-- Divide by a power of ten, in steps of at most 308 places. -/
def divideBy (x : Float) (places : Nat) : Float :=
  if places ≤ 308 then x / Float.ofScientific 1 false places
  else if x == 0 then x
  else divideBy (x / 1e308) (places - 308)
termination_by places

/-- The float nearest to the gathered digits, as far as two roundings allow. -/
def toFloat? (g : Gathered) : Option Float :=
  let x := Float.ofNat g.coefficient
  if g.exponent < 0 then some (divideBy x g.exponent.natAbs)
  else if g.exponent ≤ 308 then
    let y := x * Float.ofScientific 1 false g.exponent.toNat
    if y.isFinite then some y else none
  else if g.coefficient = 0 then some x
  else none

end Gathered

/-- The largest exponent that is kept; with a larger one every number but zero is out of range or
vanishes. -/
def exponentLimit : Nat := Nat.pow 2 31 - 1

/-- A numeral without its sign, split at the point and the exponent. -/
structure Numeral where
  whole : List Char
  fraction : Option (List Char)
  exponent : Option (Bool × List Char)

namespace Numeral

/-- The exponent as a number; beyond the limit any larger one will do. -/
def exponentValue (digits : List Char) : Nat :=
  digits.foldl (fun n c => min (n * 10 + Text.digitValue c) (exponentLimit + 1)) 0

/-- The number that a numeral stands for, or none if it is out of range. -/
def value (negative : Bool) (numeral : Numeral) : Option Number :=
  let g := Gathered.zero.whole numeral.whole
  let signed (x : Float) : Number := .float (if negative then -x else x)
  match numeral.fraction, numeral.exponent with
  | none, none =>
    if g.exponent ≠ 0 then g.toFloat?.map signed
    else if negative then
      if g.coefficient = 0 ∨ Nat.pow 2 63 < g.coefficient then
        some (signed (Float.ofNat g.coefficient))
      else some (.int (-g.coefficient))
    else some (.int g.coefficient)
  | fraction, exponent =>
    let g := g.fraction (fraction.getD [])
    match exponent with
    | none => g.toFloat?.map signed
    | some (down, digits) =>
      let e := exponentValue digits
      if exponentLimit < e then
        if g.coefficient ≠ 0 ∧ ¬ down then none else some (signed 0)
      else
        let shifted := if down then g.exponent - e else g.exponent + e
        (Gathered.mk g.coefficient shifted).toFloat?.map signed

end Numeral

/-- What was found where a numeral begins: a numeral and the text behind it, or a fault. -/
abbrev NumeralScan := Except Fault (Numeral × List Char)

/-- The digits at the start of a text, and the rest. -/
def spanDigits (cs : List Char) : List Char × List Char := cs.span Char.isDigit

/-- A digit is missing here: at the end of the text a reader reports the end. -/
def missingDigit (rest : List Char) : Fault :=
  if rest.isEmpty then ⟨.endInToken, .invalidNumber⟩ else .both .invalidNumber

/-- Read an exponent behind its letter. -/
def scanExponent (numeral : Numeral) (cs : List Char) : NumeralScan :=
  let (down, cs) := match cs with
    | '+' :: rest => (false, rest)
    | '-' :: rest => (true, rest)
    | _ => (false, cs)
  let (digits, rest) := spanDigits cs
  if digits.isEmpty then .error (missingDigit rest)
  else .ok (⟨numeral.whole, numeral.fraction, some (down, digits)⟩, rest)

/-- Read what may follow the digits before the exponent. -/
def scanTail (numeral : Numeral) (cs : List Char) : NumeralScan :=
  match cs with
  | 'e' :: rest | 'E' :: rest => scanExponent numeral rest
  | _ => .ok (numeral, cs)

/-- Read a numeral behind its sign. A zero stands alone before the point. -/
def scanNumeral (cs : List Char) : NumeralScan := do
  let (whole, rest) := spanDigits cs
  match whole with
  | [] => .error (missingDigit rest)
  | '0' :: _ :: _ => .error (.both .invalidNumber)
  | _ =>
    match rest with
    | '.' :: rest =>
      let (fraction, rest) := spanDigits rest
      if fraction.isEmpty then .error (missingDigit rest)
      else scanTail ⟨whole, some fraction, none⟩ rest
    | _ => scanTail ⟨whole, none, none⟩ rest

end Canvas.Json
