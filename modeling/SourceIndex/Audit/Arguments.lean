import SourceIndex.Json.Basic

/-!
# Describing arguments

What an audit trail records of the arguments of an operation. Numbers, truth values and paths are
recorded as they are; of a text only whether it is empty and how long it is, of an array its length,
and of an object its keys. Arguments are described in the order of their names, and of two entries
with one name the later counts.
-/

namespace SourceIndex

namespace Audit

/-- The name of an entry derived from the name of an argument. -/
def derived (key : Text) (what : String) : Text :=
  key ++ '_' :: what.toList

/-- The keys of fields in the order of their code points. -/
def sortedKeys (fields : List (Text × Json)) : List Text :=
  (fields.map Prod.fst).mergeSort fun a b => !b.precedes a

/-- What is recorded of an argument. -/
def describeOne (key : Text) (value : Json) : List (Text × Json) :=
  match value with
  | .str s =>
    if key = "path".toList then [(key, value)]
    else [(derived key "present", .bool !s.isEmpty), (derived key "length", .int s.length)]
  | .arr items =>
    [(derived key "type", .string "list"), (derived key "length", .int items.length)]
  | .obj fields =>
    [(derived key "type", .string "dict"),
      (derived key "keys", .arr ((sortedKeys fields).map .str))]
  | .null | .bool _ | .num _ => [(key, value)]

/-- What is recorded of the arguments of an operation. -/
def describe (arguments : List (Text × Json)) : List (Text × Json) :=
  ((Json.sortFields arguments).flatMap fun (key, value) => describeOne key value).foldl
    (fun recorded entry => Json.setField entry.1 entry.2 recorded) []

end Audit

end SourceIndex
