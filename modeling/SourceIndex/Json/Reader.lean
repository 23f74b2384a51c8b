import SourceIndex.Json.Basic

/-!
# Reading JSON

`Json.read?` accepts exactly one value with blanks around it. Besides the standard forms it takes
the words for infinities and for the value that is not a number. A control character in a string,
a comma before a closing bracket and anything behind the value make the text malformed. Of several
fields with one key the last counts.
-/

namespace SourceIndex

namespace Json

/-- The text without the blanks that may stand between the parts of a value. -/
def skipBlanks (s : Text) : Text :=
  s.dropWhile fun c => c == ' ' || c == '\t' || c == '\n' || c == '\r'

/-! ## Strings -/

/-- The value of a hexadecimal digit. -/
def hexValue? (c : Char) : Option Nat :=
  if '0' ≤ c ∧ c ≤ '9' then some (c.toNat - '0'.toNat)
  else if 'a' ≤ c ∧ c ≤ 'f' then some (c.toNat - 'a'.toNat + 10)
  else if 'A' ≤ c ∧ c ≤ 'F' then some (c.toNat - 'A'.toNat + 10)
  else none

/-- The value of four hexadecimal digits. -/
def hex4? (a b c d : Char) : Option Nat := do
  some (((((← hexValue? a) * 16 + (← hexValue? b)) * 16) + (← hexValue? c)) * 16 + (← hexValue? d))

/-- Whether a UTF-16 unit is the first of a pair. -/
def isHighUnit (n : Nat) : Bool :=
  decide (0xD800 ≤ n ∧ n < 0xDC00)

/-- Whether a UTF-16 unit is the second of a pair. -/
def isLowUnit (n : Nat) : Bool :=
  decide (0xDC00 ≤ n ∧ n < 0xE000)

/-- The character of a UTF-16 unit; the replacement character for half of a pair. -/
def unitChar (n : Nat) : Char :=
  if isHighUnit n || isLowUnit n then '\ufffd' else Char.ofNat n

/-- The character of a pair of UTF-16 units. -/
def pairChar (high low : Nat) : Char :=
  Char.ofNat (0x10000 + (high - 0xD800) * 0x400 + (low - 0xDC00))

/-- The character that a backslash and a letter stand for. -/
def escapeChar? (c : Char) : Option Char :=
  if c == '"' || c == '\\' || c == '/' then some c
  else if c == 'n' then some '\n'
  else if c == 'r' then some '\r'
  else if c == 't' then some '\t'
  else if c == 'b' then some '\x08'
  else if c == 'f' then some '\x0c'
  else none

/-- The code points and UTF-16 units of a string, from inside its quotes, and the text after it;
`read` is what was read of the string, the last one first. -/
def unitsFrom? (read : List Nat) : Text → Option (List Nat × Text)
  | [] => none
  | '"' :: rest => some (read.reverse, rest)
  | '\\' :: 'u' :: a :: b :: c :: d :: rest =>
    match hex4? a b c d with
    | some unit => unitsFrom? (unit :: read) rest
    | none => none
  | '\\' :: c :: rest =>
    match escapeChar? c with
    | some c => unitsFrom? (c.toNat :: read) rest
    | none => none
  | c :: rest => if c.toNat < 0x20 || c == '\\' then none else unitsFrom? (c.toNat :: read) rest

/-- The text of code points and UTF-16 units: pairs of units become one character. -/
def joinUnits : List Nat → Text
  | [] => []
  | high :: low :: rest =>
    if isHighUnit high && isLowUnit low then pairChar high low :: joinUnits rest
    else unitChar high :: joinUnits (low :: rest)
  | [unit] => [unitChar unit]

/-- The string at the start of a text, from inside its quotes, and the text after it. -/
def string? (s : Text) : Option (Text × Text) :=
  (unitsFrom? [] s).map fun (units, rest) => (joinUnits units, rest)

/-! ## Numbers -/

/-- The run of decimal digits at the start of a text and the text after it. -/
def takeDigits (s : Text) : Text × Text :=
  s.span Char.isDigit

/-- The number that decimal digits denote. -/
def digitsValue (digits : Text) : Nat :=
  digits.foldl (fun n c => 10 * n + (c.toNat - '0'.toNat)) 0

/-- The digits behind a point, unless there are none. -/
def fraction? : Text → Option (Text × Text)
  | '.' :: rest =>
    match takeDigits rest with
    | ([], _) => none
    | (digits, rest) => some (digits, rest)
  | _ => none

/-- An exponent. -/
def exponent? : Text → Option (Int × Text)
  | e :: rest =>
    if e == 'e' || e == 'E' then
      let (sign, rest) : Int × Text :=
        match rest with
        | '-' :: rest => (-1, rest)
        | '+' :: rest => (1, rest)
        | rest => (1, rest)
      match takeDigits rest with
      | ([], _) => none
      | (digits, rest) => some (sign * digitsValue digits, rest)
    else none
  | [] => none

/-- A number without its sign. -/
def unsignedNumber? (negative : Bool) (s : Text) : Option (JsonNumber × Text) :=
  match takeDigits s with
  | ([], _) => none
  | (first :: others, rest) =>
    let (digits, rest) :=
      if first == '0' then (['0'], others ++ rest) else (first :: others, rest)
    let (places, rest) := (fraction? rest).getD ([], rest)
    let hasFraction := !places.isEmpty
    match exponent? rest, hasFraction with
    | none, false =>
      let n : Int := digitsValue digits
      some (.int (if negative then -n else n), rest)
    | none, true => some (.decimal negative (digitsValue (digits ++ places)) (-places.length), rest)
    | some (e, rest), _ =>
      some (.decimal negative (digitsValue (digits ++ places)) (e - places.length), rest)

/-! ## Values -/

/-- A word that stands for a value. -/
def word? (s : Text) : Option (Json × Text) :=
  [("null", null), ("true", .bool true), ("false", .bool false), ("NaN", .num .nan),
    ("Infinity", .num (.infinity false)), ("-Infinity", .num (.infinity true))].findSome?
      fun (w, v) => (s.after? w.toList).map (v, ·)

/-- A number or a word. -/
def scalar? (s : Text) : Option (Json × Text) :=
  match word? s with
  | some found => some found
  | none =>
    match s with
    | '-' :: rest => (unsignedNumber? true rest).map fun (n, rest) => (.num n, rest)
    | s => (unsignedNumber? false s).map fun (n, rest) => (.num n, rest)

mutual

/-- The value at the start of a text. The first argument bounds the number of steps. -/
def value? : Nat → Text → Option (Json × Text)
  | 0, _ => none
  | steps + 1, s =>
    match s with
    | '"' :: rest => (string? rest).map fun (s, rest) => (.str s, rest)
    | '[' :: rest =>
      match skipBlanks rest with
      | ']' :: rest => some (.arr [], rest)
      | rest => items? steps [] rest
    | '\x7b' :: rest =>
      match skipBlanks rest with
      | '\x7d' :: rest => some (.obj [], rest)
      | rest => fields? steps [] rest
    | s => scalar? s

/-- The rest of an array from the start of an item on; `read` holds the items before it, the last
one first. -/
def items? : Nat → List Json → Text → Option (Json × Text)
  | 0, _, _ => none
  | steps + 1, read, s =>
    match value? steps s with
    | none => none
    | some (v, rest) =>
      match skipBlanks rest with
      | ',' :: rest => items? steps (v :: read) (skipBlanks rest)
      | ']' :: rest => some (.arr (v :: read).reverse, rest)
      | _ => none

/-- The rest of an object from the start of a field on; `read` holds the fields before it. -/
def fields? : Nat → List (Text × Json) → Text → Option (Json × Text)
  | 0, _, _ => none
  | steps + 1, read, s =>
    match s with
    | '"' :: rest =>
      match string? rest with
      | none => none
      | some (k, rest) =>
        match skipBlanks rest with
        | ':' :: rest =>
          match value? steps (skipBlanks rest) with
          | none => none
          | some (v, rest) =>
            match skipBlanks rest with
            | ',' :: rest => fields? steps (setField k v read) (skipBlanks rest)
            | '\x7d' :: rest => some (.obj (setField k v read), rest)
            | _ => none
        | _ => none
    | _ => none

end

/-- The value that a text holds, if it holds exactly one. Every step reads a character or follows
one that did, so the bound on the steps is never reached. -/
def read? (s : Text) : Option Json := do
  let (v, rest) ← value? (2 * s.length + 2) (skipBlanks s)
  if (skipBlanks rest).isEmpty then some v else none

end Json

end SourceIndex
