import Canvas.Decimal.Shortest

/-!
# Decimal text of floats

`positional` writes every digit before and after the point. `scientific` writes one digit before the
point and a signed exponent. `compact` is the first for numbers whose leading digit has an exponent
from -5 to 15 and the second for all others. Each shows that the number is a float: by a point or by
an exponent.
-/

namespace Canvas.Decimal

/-- A run of zeros. -/
def zeros (n : Nat) : List Char := List.replicate n '0'

/-- The digits of the coefficient. -/
def digits (d : Decimal) : List Char := Nat.toDigits 10 d.coefficient

/-- The exponent of the leading digit. -/
def leading (d : Decimal) : Int := (d.digits.length : Int) - 1 + d.exponent

/-- All digits, with a point. -/
def positional (d : Decimal) : List Char :=
  let digits := d.digits
  if 0 ≤ d.exponent then digits ++ zeros d.exponent.toNat ++ ['.', '0']
  else
    let places := (-d.exponent).toNat
    if places < digits.length then
      digits.take (digits.length - places) ++ '.' :: digits.drop (digits.length - places)
    else '0' :: '.' :: zeros (places - digits.length) ++ digits

/-- One digit before the point and a signed exponent; no point if there is no second digit. -/
def scientific (d : Decimal) : List Char :=
  let mantissa := match d.digits with
    | [] => []
    | [c] => [c]
    | c :: rest => c :: '.' :: rest
  let sign := if d.leading < 0 then '-' else '+'
  mantissa ++ 'e' :: sign :: Nat.toDigits 10 d.leading.natAbs

/-- Positional for leading exponents from -5 to 15, else scientific. -/
def compact (d : Decimal) : List Char :=
  if -5 ≤ d.leading ∧ d.leading ≤ 15 then d.positional else d.scientific

/-- The text of a finite float: a sign if it is negative, and the compact form of its shortest
digits. -/
def text (x : Float) : String :=
  let magnitude := if x == 0 then ['0', '.', '0'] else (shortest x).compact
  String.ofList (if isNegative x then '-' :: magnitude else magnitude)

end Canvas.Decimal
