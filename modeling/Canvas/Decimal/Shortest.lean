/-!
# Shortest decimals

A finite float stands for an interval of reals, those that round to it. `shortest` finds the decimal
with the fewest digits inside this interval, and of those the one nearest to the float itself; of
two equally near ones it takes the even one. All comparisons are made on natural numbers.
-/

namespace Canvas

/-- The decimal `coefficient * 10 ^ exponent`. -/
structure Decimal where
  coefficient : Nat
  exponent : Int
  deriving DecidableEq

namespace Decimal

/-- The non-negative number `mantissa * 2 ^ exponent`. -/
structure Binary where
  mantissa : Nat
  exponent : Int
  deriving DecidableEq

/-- The magnitude of a finite float. -/
def Binary.ofFloat (x : Float) : Binary :=
  let bits := x.toBits.toNat
  let exponent : Nat := bits / Nat.pow 2 52 % Nat.pow 2 11
  let fraction := bits % Nat.pow 2 52
  if exponent = 0 then ⟨fraction, -1074⟩ else ⟨fraction + Nat.pow 2 52, (exponent : Int) - 1075⟩

/-- Whether a float is written with a minus sign; this includes the negative zero. -/
def isNegative (x : Float) : Bool := Nat.pow 2 63 ≤ x.toBits.toNat

namespace Binary

/-- How `c * 10 ^ k` compares with `u * 2 ^ p`. -/
def compareScaled (c : Nat) (k : Int) (u : Nat) (p : Int) : Ordering :=
  compare (c * Nat.pow 10 k.toNat * Nat.pow 2 (-p).toNat)
    (u * Nat.pow 2 p.toNat * Nat.pow 10 (-k).toNat)

/-- The whole part of the number divided by `10 ^ k`. -/
def quotient (b : Binary) (k : Int) : Nat :=
  (b.mantissa * Nat.pow 2 b.exponent.toNat * Nat.pow 10 (-k).toNat) /
    (Nat.pow 2 (-b.exponent).toNat * Nat.pow 10 k.toNat)

/-- The exponent of the leading decimal digit of a positive number; no float is smaller than
`10 ^ (-342)`. -/
def leadingExponent (b : Binary) : Int :=
  ((Nat.toDigits 10 (b.quotient (-342))).length : Int) - 343

/-- Whether `c * 10 ^ k` rounds to the float with magnitude `b`. In quarters of the last binary
place, the interval reaches from the value two units up and two units down, or one unit down where
the binade below starts; its ends belong to it when the mantissa is even. -/
def covers (b : Binary) (c : Nat) (k : Int) : Bool :=
  let below := if b.mantissa = Nat.pow 2 52 ∧ -1074 < b.exponent then 1 else 2
  let low := compareScaled c k (4 * b.mantissa - below) (b.exponent - 2)
  let high := compareScaled c k (4 * b.mantissa + 2) (b.exponent - 2)
  if b.mantissa % 2 = 0 then low != .lt && high != .gt else low == .gt && high == .lt

/-- The decimal with `n` digits that lies inside the interval, nearest to the value. -/
def candidate (b : Binary) (n : Nat) : Option Decimal :=
  let k := b.leadingExponent - n + 1
  let c := b.quotient k
  match b.covers c k, b.covers (c + 1) k with
  | false, false => none
  | true, false => some ⟨c, k⟩
  | false, true => some ⟨c + 1, k⟩
  | true, true =>
    match compareScaled (2 * c + 1) k (2 * b.mantissa) b.exponent with
    | .gt => some ⟨c, k⟩
    | .lt => some ⟨c + 1, k⟩
    | .eq => if c % 2 = 0 then some ⟨c, k⟩ else some ⟨c + 1, k⟩

/-- The shortest decimal that rounds to the float with magnitude `b`; seventeen digits always
suffice. -/
def shortest (b : Binary) : Decimal :=
  ((List.range 17).findSome? fun i => b.candidate (i + 1)).getD ⟨0, 0⟩

end Binary

/-- The same decimal without zeros at the end of its coefficient. -/
def trim (coefficient : Nat) (exponent : Int) : Decimal :=
  if _h : coefficient ≠ 0 ∧ coefficient % 10 = 0 then trim (coefficient / 10) (exponent + 1)
  else ⟨coefficient, exponent⟩
termination_by coefficient
decreasing_by omega

/-- The shortest decimal of a finite float's magnitude. -/
def shortest (x : Float) : Decimal :=
  let d := (Binary.ofFloat x).shortest
  trim d.coefficient d.exponent

end Decimal

end Canvas
