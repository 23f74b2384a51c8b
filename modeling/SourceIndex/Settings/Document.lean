import SourceIndex.Json.Basic

/-!
# Settings documents

What a settings file holds, whichever format it is written in. A value that no setting takes, such
as a fraction or a date, is kept only as something that is there.
-/

namespace SourceIndex

/-- A value of a settings document. The empty value counts as absent for limits, and `other` is a
value that no setting takes. -/
inductive Document where
  | null
  | bool (b : Bool)
  | int (n : Int)
  | text (s : Text)
  | list (items : List Document)
  | table (fields : List (Text × Document))
  | other
  deriving Repr, Inhabited

namespace Document

mutual

/-- The document that a JSON value is. -/
def ofJson : Json → Document
  | .null => .null
  | .bool b => .bool b
  | .num (.int n) => .int n
  | .num _ => .other
  | .str s => .text s
  | .arr items => .list (ofItems items)
  | .obj fields => .table (ofFields fields)

/-- The documents that JSON values are. -/
def ofItems : List Json → List Document
  | [] => []
  | v :: rest => ofJson v :: ofItems rest

/-- The fields of a table that the fields of a JSON object are. -/
def ofFields : List (Text × Json) → List (Text × Document)
  | [] => []
  | (k, v) :: rest => (k, ofJson v) :: ofFields rest

end

end Document

end SourceIndex
