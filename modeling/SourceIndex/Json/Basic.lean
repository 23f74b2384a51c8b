import SourceIndex.OrderedMap
import SourceIndex.Text.Basic

/-!
# JSON values

The values of the audit trail and of the settings. A number keeps whether it was written as an
integer; one with a fraction or an exponent is kept as its exact decimal value, with the sign of
zero. The fields of an object have distinct keys and keep their order until they are written, which
sorts them.
-/

namespace SourceIndex

/-- A number of a JSON text. A decimal fraction is `± digits * 10 ^ exponent`. -/
inductive JsonNumber where
  | int (n : Int)
  | decimal (negative : Bool) (digits : Nat) (exponent : Int)
  | nan
  | infinity (negative : Bool)
  deriving DecidableEq, Repr, Inhabited

/-- A JSON value. -/
inductive Json where
  | null
  | bool (b : Bool)
  | num (n : JsonNumber)
  | str (s : Text)
  | arr (items : List Json)
  | obj (fields : List (Text × Json))
  deriving Repr, Inhabited

namespace Json

/-- The integer `n`. -/
def int (n : Int) : Json :=
  .num (.int n)

/-- The string with the characters of `s`. -/
def string (s : String) : Json :=
  .str s.toList

/-- The value of a field of an object. -/
def field? (fields : List (Text × Json)) (key : Text) : Option Json :=
  fields.lookup key

/-- The fields with the value of `key` set: in place if there is one, else at the end. -/
def setField (key : Text) (value : Json) (fields : List (Text × Json)) : List (Text × Json) :=
  alterEntries key (fun _ => value) fields

/-- Whether a key may stand before another one in sorted order. -/
def keyOrder (a b : Text × Json) : Bool :=
  !Text.precedes b.1 a.1

/-- The fields in the order of their keys. -/
def sortFields (fields : List (Text × Json)) : List (Text × Json) :=
  fields.mergeSort keyOrder

end Json

end SourceIndex
