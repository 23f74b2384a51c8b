import SourceIndex.Json.Reader
import SourceIndex.Json.Writer

/-!
# Audit trails

An audit trail is a text with one JSON object on each line. Appending an event adds one line.
Reading gives the newest records from a time on, the oldest of them first; lines that do not hold an
object are skipped, so a damaged line does not hide the others. Times compare as texts.
-/

namespace SourceIndex

/-- An operation as an audit trail records it, with the version of the index that it used. -/
structure TrailEntry where
  timestamp : Text
  operation : Text
  ok : Bool
  indexVersion : Int
  metadata : List (Text × Json)

namespace TrailEntry

/-- The fields of an event. -/
def fields (e : TrailEntry) : List (Text × Json) :=
  [("timestamp".toList, .str e.timestamp), ("operation".toList, .str e.operation),
    ("ok".toList, .bool e.ok), ("index_version".toList, .int e.indexVersion),
    ("metadata".toList, .obj e.metadata)]

/-- The line of an event with the newline that ends it. -/
def line (e : TrailEntry) : Text :=
  (Json.obj e.fields).write ++ ['\n']

end TrailEntry

/-- The text of an audit trail. -/
abbrev AuditTrail := Text

namespace AuditTrail

/-- The trail with one more event. -/
def append (trail : AuditTrail) (e : TrailEntry) : AuditTrail :=
  trail ++ e.line

/-- The text with a newline at every end of a line: a carriage return, a newline or both. -/
def unifyLineEnds : Text → Text
  | '\r' :: '\n' :: rest => '\n' :: unifyLineEnds rest
  | '\r' :: rest => '\n' :: unifyLineEnds rest
  | c :: rest => c :: unifyLineEnds rest
  | [] => []

/-- The record that a line holds. -/
def record? (line : Text) : Option (List (Text × Json)) :=
  match Json.read? line with
  | some (.obj fields) => some fields
  | _ => none

/-- The records of a trail, the oldest first. -/
def records (trail : AuditTrail) : List (List (Text × Json)) :=
  (unifyLineEnds trail).lines.filterMap record?

/-- Whether a record has a time, and not one before the given one. -/
def isSince (since : Text) (record : List (Text × Json)) : Bool :=
  match Json.field? record "timestamp".toList with
  | some (.str time) => !time.precedes since
  | _ => false

/-- The last `limit` records of a trail, of those not before a time if one is given. -/
def read (trail : AuditTrail) (since : Option Text) (limit : Int) : List (List (Text × Json)) :=
  if limit < 1 then []
  else
    let records :=
      match since with
      | some time => trail.records.filter (isSince time)
      | none => trail.records
    records.drop (records.length - limit.toNat)

end AuditTrail

end SourceIndex
