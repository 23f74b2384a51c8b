import SourceIndex.Toml.Scalar

/-!
# Reading TOML

`Toml.read?` reads a whole text as a table. A statement is a header, which opens a table or adds
one to an array of tables, or a key with a value, which goes into the table opened last. A header
may not open a table twice, a value may not be set twice, and nothing may be added from outside to
an inline array or table.
-/

namespace SourceIndex

namespace Toml

/-- The keys that lead from the whole document to a value. -/
abbrev Key := List Text

/-- The fields of a table. -/
abbrev Fields := List (Text × Document)

/-! ## Keys -/

/-- Whether a character can be part of a key without quotes. -/
def isBareKeyChar (c : Char) : Bool :=
  c.isAlphanum || c == '-' || c == '_'

/-- One part of a key. -/
def keyPart? : Text → Option (Text × Text)
  | '"' :: rest => basicString? false (rest.length + 1) [] rest
  | '\'' :: rest => literalString? rest
  | s =>
    match s.span isBareKeyChar with
    | ([], _) => none
    | (part, rest) => some (part, rest)

/-- The parts of a key with points between them, and the text behind the blanks that follow. The
first argument bounds the number of parts. -/
def keyFrom? : Nat → Text → Option (Key × Text)
  | 0, _ => none
  | parts + 1, s =>
    match keyPart? s with
    | none => none
    | some (part, rest) =>
      match skipSpaces rest with
      | '.' :: rest => (keyFrom? parts (skipSpaces rest)).map fun (key, rest) => (part :: key, rest)
      | rest => some ([part], rest)

/-- A key and the text behind the blanks that follow. -/
def key? (s : Text) : Option (Key × Text) :=
  keyFrom? (s.length + 1) s

/-! ## Tables -/

/-- What a table becomes when `f` changes the table that a key leads to from it. Missing tables are
created. If `throughArrays` holds, an array of tables stands for its last one. -/
def changeAt? (throughArrays : Bool) (f : Fields → Option Fields) : Key → Fields → Option Fields
  | [], fields => f fields
  | k :: key, fields =>
    match fields.lookup k with
    | none =>
      (changeAt? throughArrays f key []).map fun sub => alterEntries k (fun _ => .table sub) fields
    | some (.table sub) =>
      (changeAt? throughArrays f key sub).map fun sub => alterEntries k (fun _ => .table sub) fields
    | some (.list items) =>
      match throughArrays, items.getLast? with
      | true, some (.table sub) =>
        (changeAt? throughArrays f key sub).map fun sub =>
          alterEntries k (fun _ => .list (items.dropLast ++ [.table sub])) fields
      | _, _ => none
    | some _ => none

/-- The table with a new value. -/
def addValue? (name : Text) (value : Document) (fields : Fields) : Option Fields :=
  if (fields.lookup name).isSome then none else some (alterEntries name (fun _ => value) fields)

/-- The table with a new table at the end of an array of tables. -/
def addTable? (name : Text) (fields : Fields) : Option Fields :=
  match fields.lookup name with
  | none => some (alterEntries name (fun _ => .list [.table []]) fields)
  | some (.list items) =>
    some (alterEntries name (fun _ => .list (items ++ [.table []])) fields)
  | some _ => none

/-- Whether a value is an array or a table. -/
def isContainer : Document → Bool
  | .list _ => true
  | .table _ => true
  | _ => false

/-! ## Values -/

/-- The text behind a comment; the text itself if there is none. A comment ends before a newline. -/
def afterComment? : Text → Option Text
  | '#' :: rest =>
    let (comment, rest) := rest.span (· != '\n')
    if comment.any isForbidden then none else some rest
  | s => some s

/-- The text behind blanks, newlines and comments. The first argument bounds the number of
comments. -/
def afterArrayBlanks? : Nat → Text → Option Text
  | 0, s => some s
  | comments + 1, s =>
    match skipSpacesAndNewlines s with
    | '#' :: rest => (afterComment? ('#' :: rest)).bind (afterArrayBlanks? comments)
    | rest => some rest

/-- Whether a key lies in or at one of the closed containers. -/
def isClosed (closed : List Key) (key : Key) : Bool :=
  closed.any fun k => k.isPrefixOf key

mutual

/-- The value at the start of a text. The first argument bounds the number of steps. -/
def value? : Nat → Text → Option (Document × Text)
  | 0, _ => none
  | steps + 1, s =>
    match s with
    | '[' :: rest =>
      match afterArrayBlanks? rest.length rest with
      | some (']' :: rest) => some (.list [], rest)
      | some rest => items? steps [] rest
      | none => none
    | '\x7b' :: rest =>
      match skipSpaces rest with
      | '\x7d' :: rest => some (.table [], rest)
      | rest => pairs? steps [] [] rest
    | '"' :: rest => (string? ('"' :: rest)).map fun (s, rest) => (.text s, rest)
    | '\'' :: rest => (string? ('\'' :: rest)).map fun (s, rest) => (.text s, rest)
    | s => scalar? s

/-- The rest of an array from the start of an item on; `read` holds the items before it, the last
one first. -/
def items? : Nat → (read : List Document) → Text → Option (Document × Text)
  | 0, _, _ => none
  | steps + 1, read, s =>
    match value? steps s with
    | none => none
    | some (v, rest) =>
      match afterArrayBlanks? rest.length rest with
      | some (']' :: rest) => some (.list (v :: read).reverse, rest)
      | some (',' :: rest) =>
        match afterArrayBlanks? rest.length rest with
        | some (']' :: rest) => some (.list (v :: read).reverse, rest)
        | some rest => items? steps (v :: read) rest
        | none => none
      | _ => none

/-- The rest of an inline table from the start of a key on; `closed` holds the keys of the
containers in it, and `fields` what was read of it. -/
def pairs? : Nat → (closed : List Key) → (fields : Fields) → Text → Option (Document × Text)
  | 0, _, _, _ => none
  | steps + 1, closed, fields, s =>
    match key? s with
    | some (key, '=' :: rest) =>
      match value? steps (skipSpaces rest) with
      | none => none
      | some (v, rest) =>
        if isClosed closed key then none
        else
          match changeAt? false (addValue? (key.getLast?.getD []) v) key.dropLast fields with
          | none => none
          | some fields =>
            match skipSpaces rest with
            | '\x7d' :: rest => some (.table fields, rest)
            | ',' :: rest =>
              pairs? steps (if isContainer v then key :: closed else closed) fields
                (skipSpaces rest)
            | _ => none
    | _ => none

end

/-! ## Statements -/

/-- What was read of a document: its fields and the key of the table opened last. No header may open
a key in `opened`, nor one in `pending` once the next header is read. The keys of inline arrays and
tables are `closed`. -/
structure State where
  fields : Fields := []
  header : Key := []
  opened : List Key := []
  pending : List Key := []
  closed : List Key := []

namespace State

/-- Opens a table. -/
def openTable? (st : State) (key : Key) : Option State :=
  let opened := st.pending ++ st.opened
  if opened.contains key || isClosed st.closed key then none
  else
    (changeAt? true some key st.fields).map fun fields =>
      { st with fields := fields, header := key, opened := key :: opened, pending := [] }

/-- Adds a table to an array of tables and opens it. What was known of the array's last table does
not hold for the new one. -/
def openItem? (st : State) (key : Key) : Option State :=
  let opened := st.pending ++ st.opened
  if isClosed st.closed key then none
  else
    let isBelow (k : Key) : Bool := key.isPrefixOf k
    (changeAt? true (addTable? (key.getLast?.getD [])) key.dropLast st.fields).map fun fields =>
      { st with
        fields := fields
        header := key
        opened := key :: opened.filter fun k => !isBelow k
        pending := []
        closed := st.closed.filter fun k => !isBelow k }

/-- The keys between a header and the last part of a key below it. -/
def between (header key : Key) : List Key :=
  (List.range (key.length - 1)).map fun i => header ++ key.take (i + 1)

/-- Sets a value in the table opened last. -/
def set? (st : State) (key : Key) (value : Document) : Option State :=
  let onTheWay := between st.header key
  if onTheWay.any st.opened.contains || isClosed st.closed (st.header ++ key.dropLast) then none
  else
    (changeAt? true (addValue? (key.getLast?.getD []) value) (st.header ++ key.dropLast)
      st.fields).map fun fields =>
        { st with
          fields := fields
          pending := onTheWay ++ st.pending
          closed := if isContainer value then (st.header ++ key) :: st.closed else st.closed }

/-- Reads a statement. -/
def statement? (st : State) : Text → Option (State × Text)
  | '[' :: '[' :: rest =>
    match key? (skipSpaces rest) with
    | some (key, ']' :: ']' :: rest) => (st.openItem? key).map (·, rest)
    | _ => none
  | '[' :: rest =>
    match key? (skipSpaces rest) with
    | some (key, ']' :: rest) => (st.openTable? key).map (·, rest)
    | _ => none
  | s =>
    match key? s with
    | some (key, '=' :: rest) =>
      match value? (2 * rest.length + 2) (skipSpaces rest) with
      | some (v, rest) => (st.set? key v).map (·, rest)
      | none => none
    | _ => none

/-- Reads all statements. The first argument bounds the number of lines. -/
def statements? : Nat → State → Text → Option State
  | 0, _, _ => none
  | lines + 1, st, s =>
    match skipSpaces s with
    | [] => some st
    | '\n' :: rest => statements? lines st rest
    | s =>
      let read := if s.startsWith ['#'] then some (st, s) else st.statement? s
      match read with
      | none => none
      | some (st, rest) =>
        match afterComment? (skipSpaces rest) with
        | some [] => some st
        | some ('\n' :: rest) => statements? lines st rest
        | _ => none

end State

/-- The text with a newline for each carriage return that stands before a newline. -/
def joinLineEnds : Text → Text
  | '\r' :: '\n' :: rest => '\n' :: joinLineEnds rest
  | c :: rest => c :: joinLineEnds rest
  | [] => []

/-- The table that a text holds. -/
def read? (s : Text) : Option Fields :=
  let s := joinLineEnds s
  (State.statements? (s.length + 1) {} s).map (·.fields)

end Toml

end SourceIndex
