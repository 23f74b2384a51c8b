import SourceIndex.Text.Basic

/-!
# Floats with a fixed number of places

A float is a sign and a value `m * 2 ^ q` with natural `m` and integer `q`. Its text with a fixed
number of decimal places is the exact value rounded to that many places, a tie going to the even
neighbour. The sign of a float is written even when the rounded value is zero.
-/

namespace SourceIndex

/-- The parts of a float. A finite one is `± significand * 2 ^ exponent`. -/
inductive FloatParts where
  | finite (negative : Bool) (significand : Nat) (exponent : Int)
  | infinite (negative : Bool)
  | notANumber
  deriving DecidableEq, Repr

/-- The parts of the float with the given bits. -/
def FloatParts.ofBits (bits : UInt64) : FloatParts :=
  let n := bits.toNat
  let negative := decide (Nat.pow 2 63 ≤ n)
  let exponent : Nat := n / Nat.pow 2 52 % Nat.pow 2 11
  let mantissa : Nat := n % Nat.pow 2 52
  if exponent = 2047 then
    if mantissa = 0 then .infinite negative else .notANumber
  else if exponent = 0 then .finite negative mantissa (-1074)
  else .finite negative (Nat.pow 2 52 + mantissa) ((exponent : Int) - 1075)

/-- The quotient of two numbers, rounded to the nearest integer and to the even one of two. -/
def roundDiv (num den : Nat) : Nat :=
  let quotient := num / den
  let twice := 2 * (num % den)
  if twice < den then quotient
  else if den < twice then quotient + 1
  else if quotient % 2 = 0 then quotient else quotient + 1

/-- The value `significand * 2 ^ exponent` in units of the last of `places` places. -/
def scaledValue (places significand : Nat) : Int → Nat
  | .ofNat q => significand * Nat.pow 2 q * Nat.pow 10 places
  | .negSucc q => roundDiv (significand * Nat.pow 10 places) (Nat.pow 2 (q + 1))

/-- A number of units of the last place as digits with a point before the last `places` of them. -/
def pointedText (places units : Nat) : Text :=
  let places' := Text.ofNat (units % Nat.pow 10 places)
  Text.ofNat (units / Nat.pow 10 places) ++
    '.' :: List.replicate (places - places'.length) '0' ++ places'

/-- The text of a float with a fixed number of places. -/
def fixedText (places : Nat) (x : Float) : Text :=
  match FloatParts.ofBits x.toBits with
  | .finite negative significand exponent =>
    (if negative then ['-'] else []) ++ pointedText places (scaledValue places significand exponent)
  | .infinite negative => if negative then "-inf".toList else "inf".toList
  | .notANumber => "nan".toList

end SourceIndex
