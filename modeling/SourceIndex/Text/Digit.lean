import SourceIndex.Text.Blank

/-!
# Written integers

An integer is written with the decimal digits of any script, possibly with single underscores
between them, a sign in front and blanks around it.
-/

namespace SourceIndex

/-- The zeros of the decimal digits of all scripts; the other nine digits follow each of them. -/
def digitZeros : List Nat :=
  [48, 1632, 1776, 1984, 2406, 2534, 2662, 2790, 2918, 3046, 3174, 3302, 3430, 3558, 3664, 3792,
  3872, 4160, 4240, 6112, 6160, 6470, 6608, 6784, 6800, 6992, 7088, 7232, 7248, 42528, 43216, 43264,
  43472, 43504, 43600, 44016, 65296, 66720, 68912, 69734, 69872, 69942, 70096, 70384, 70736, 70864,
  71248, 71360, 71472, 71904, 72016, 72784, 73040, 73120, 92768, 92864, 93008, 120782, 120792,
  120802, 120812, 120822, 123200, 123632, 125264, 130032]

/-- The value of a decimal digit. -/
def decimalValue? (c : Char) : Option Nat :=
  (digitZeros.find? fun z => decide (z ≤ c.toNat ∧ c.toNat < z + 10)).map (c.toNat - ·)

namespace Text

/-- The value of digits with single underscores between them; `n` is the value of the digits in
front of them. -/
def digitsFrom? (n : Nat) : Text → Option Nat
  | [] => some n
  | '_' :: c :: rest => (decimalValue? c).bind fun d => digitsFrom? (10 * n + d) rest
  | c :: rest => (decimalValue? c).bind fun d => digitsFrom? (10 * n + d) rest

/-- The value of one or more digits with single underscores between them. -/
def natural? : Text → Option Nat
  | [] => none
  | c :: rest => (decimalValue? c).bind fun d => digitsFrom? d rest

/-- The value of a written integer. -/
def integer? (s : Text) : Option Int :=
  match s.trim with
  | '-' :: rest => (natural? rest).map fun n => -(n : Int)
  | '+' :: rest => (natural? rest).map Int.ofNat
  | s => (natural? s).map Int.ofNat

end Text

end SourceIndex
