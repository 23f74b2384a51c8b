import SourceIndex.Settings.Document
import SourceIndex.Text.Basic

/-!
# TOML strings, numbers and dates

The scalar values of TOML, each read from the start of a text. Strings stand in one or three quotes
of either kind; only double quotes take escapes. Integers may be decimal, hexadecimal, octal or
binary, with single underscores between digits. Fractions, dates and times are checked, but no
setting takes them, so their values are not kept.
-/

namespace SourceIndex

namespace Toml

/-- The text without the spaces and tabs at its start. -/
def skipSpaces (s : Text) : Text :=
  s.dropWhile fun c => c == ' ' || c == '\t'

/-- The text without the spaces, tabs and newlines at its start. -/
def skipSpacesAndNewlines (s : Text) : Text :=
  s.dropWhile fun c => c == ' ' || c == '\t' || c == '\n'

/-- Whether a character may not stand in a string or a comment: a control character other than a
tab. -/
def isForbidden (c : Char) : Bool :=
  (decide (c.toNat < 0x20) && c != '\t') || c == '\x7f'

/-! ## Strings -/

/-- Whether a character is a hexadecimal digit. -/
def isHexDigit (c : Char) : Bool :=
  c.isDigit || ('a' ≤ c && c ≤ 'f') || ('A' ≤ c && c ≤ 'F')

/-- The value of a digit, hexadecimal ones included. -/
def digitValue (c : Char) : Nat :=
  if c.isDigit then c.toNat - '0'.toNat
  else if 'a' ≤ c then c.toNat - 'a'.toNat + 10
  else c.toNat - 'A'.toNat + 10

/-- The number that digits denote in a base. -/
def numberOf (base : Nat) (digits : Text) : Nat :=
  digits.foldl (fun n c => base * n + digitValue c) 0

/-- The character whose code point is given by hexadecimal digits. -/
def codePoint? (digits : Text) : Option Char :=
  let n := numberOf 16 digits
  if digits.all isHexDigit && decide (n.isValidChar) then some (Char.ofNat n) else none

/-- The character that a backslash and a letter stand for. -/
def escape? (c : Char) : Option Char :=
  if c == 'b' then some '\x08'
  else if c == 't' then some '\t'
  else if c == 'n' then some '\n'
  else if c == 'f' then some '\x0c'
  else if c == 'r' then some '\r'
  else if c == '"' || c == '\\' then some c
  else none

/-- The text behind a line that ends with a backslash, from behind the backslash: the next text that
is not blank. -/
def afterLineEnd? (s : Text) : Option Text :=
  match skipSpaces s with
  | [] => some []
  | '\n' :: rest => some (skipSpacesAndNewlines rest)
  | _ => none

/-- The rest of a string in double quotes and the text behind it; `read` is what was read of it, the
last character first. The first argument bounds the number of steps. -/
def basicString? (multiline : Bool) : Nat → (read : Text) → Text → Option (Text × Text)
  | 0, _, _ => none
  | steps + 1, read, s =>
    match s with
    | [] => none
    | '"' :: rest =>
      if !multiline then some (read.reverse, rest)
      else
        match rest with
        | '"' :: '"' :: rest => some (read.reverse, rest)
        | _ => basicString? multiline steps ('"' :: read) rest
    | '\\' :: 'u' :: a :: b :: c :: d :: rest =>
      match codePoint? [a, b, c, d] with
      | some x => basicString? multiline steps (x :: read) rest
      | none => none
    | '\\' :: 'U' :: a :: b :: c :: d :: e :: f :: g :: h :: rest =>
      match codePoint? [a, b, c, d, e, f, g, h] with
      | some x => basicString? multiline steps (x :: read) rest
      | none => none
    | '\\' :: c :: rest =>
      if multiline && (c == ' ' || c == '\t' || c == '\n') then
        match afterLineEnd? (c :: rest) with
        | some rest => basicString? multiline steps read rest
        | none => none
      else
        match escape? c with
        | some x => basicString? multiline steps (x :: read) rest
        | none => none
    | c :: rest =>
      if c == '\\' || (isForbidden c && !(multiline && c == '\n')) then none
      else basicString? multiline steps (c :: read) rest

/-- A string in single quotes and the text behind it, from inside the quotes. -/
def literalString? (s : Text) : Option (Text × Text) :=
  match s.span (· != '\'') with
  | (body, '\'' :: rest) => if body.any isForbidden then none else some (body, rest)
  | _ => none

/-- The text in front of three single quotes and the text behind them. -/
def beforeTripleQuote? : Text → Option (Text × Text)
  | [] => none
  | '\'' :: '\'' :: '\'' :: rest => some ([], rest)
  | c :: rest => (beforeTripleQuote? rest).map fun (body, after) => (c :: body, after)

/-- Up to two more quotes behind a string that three quotes have closed belong to the string. -/
def withTrailingQuotes (quote : Char) (s : Text) : Text → Text × Text
  | c :: d :: rest =>
    if c == quote then
      if d == quote then (s ++ [quote, quote], rest) else (s ++ [quote], d :: rest)
    else (s, c :: d :: rest)
  | [c] => if c == quote then (s ++ [quote], []) else (s, [c])
  | [] => (s, [])

/-- The text without a newline at its start. -/
def skipNewline : Text → Text
  | '\n' :: rest => rest
  | s => s

/-- The string at the start of a text. -/
def string? : Text → Option (Text × Text)
  | '"' :: '"' :: '"' :: rest =>
    (basicString? true (rest.length + 1) [] (skipNewline rest)).map fun (s, rest) =>
      withTrailingQuotes '"' s rest
  | '"' :: rest => basicString? false (rest.length + 1) [] rest
  | '\'' :: '\'' :: '\'' :: rest =>
    match beforeTripleQuote? (skipNewline rest) with
    | some (s, rest) =>
      if s.any fun c => isForbidden c && c != '\n' then none
      else some (withTrailingQuotes '\'' s rest)
    | none => none
  | '\'' :: rest => literalString? rest
  | _ => none

/-! ## Numbers -/

/-- Digits behind the first one, with single underscores between them. -/
def moreDigits (isDigit : Char → Bool) : Text → Text × Text
  | '_' :: d :: rest =>
    if isDigit d then
      let (digits, rest) := moreDigits isDigit rest
      (d :: digits, rest)
    else ([], '_' :: d :: rest)
  | d :: rest =>
    if isDigit d then
      let (digits, rest) := moreDigits isDigit rest
      (d :: digits, rest)
    else ([], d :: rest)
  | [] => ([], [])

/-- One or more digits, with single underscores between them. -/
def digits? (isDigit : Char → Bool) : Text → Option (Text × Text)
  | [] => none
  | d :: rest =>
    if isDigit d then
      let (digits, rest) := moreDigits isDigit rest
      some (d :: digits, rest)
    else none

/-- The digits of the whole part of a number: a zero, or digits that do not start with one. -/
def wholePart? : Text → Option (Text × Text)
  | '0' :: rest => some (['0'], rest)
  | s => digits? Char.isDigit s

/-- The text behind a point and digits; the text itself if they are missing. -/
def skipFraction (s : Text) : Text :=
  match s with
  | '.' :: rest =>
    match digits? Char.isDigit rest with
    | some (_, rest) => rest
    | none => s
  | _ => s

/-- The text behind a sign; the text itself if there is none. -/
def skipSign : Text → Text
  | '+' :: rest => rest
  | '-' :: rest => rest
  | s => s

/-- The text behind an exponent; the text itself if there is none. -/
def skipExponent (s : Text) : Text :=
  match s with
  | e :: rest =>
    if e == 'e' || e == 'E' then
      match digits? Char.isDigit (skipSign rest) with
      | some (_, rest) => rest
      | none => s
    else s
  | [] => s

/-- An integer in another base, from behind its zero. -/
def basedNumber? : Text → Option (Nat × Text)
  | 'x' :: rest => (digits? isHexDigit rest).map fun (ds, rest) => (numberOf 16 ds, rest)
  | 'b' :: rest =>
    (digits? (fun c => c == '0' || c == '1') rest).map fun (ds, rest) => (numberOf 2 ds, rest)
  | 'o' :: rest =>
    (digits? (fun c => '0' ≤ c && c ≤ '7') rest).map fun (ds, rest) => (numberOf 8 ds, rest)
  | _ => none

/-- A decimal number. -/
def decimalNumber? (s : Text) : Option (Document × Text) := do
  let (digits, rest) ← wholePart? (skipSign s)
  let after := skipExponent (skipFraction rest)
  if after.length < rest.length then some (.other, after)
  else
    let n : Int := numberOf 10 digits
    some (.int (if s.startsWith ['-'] then -n else n), rest)

/-- A number. -/
def number? (s : Text) : Option (Document × Text) :=
  let based :=
    match s with
    | '0' :: rest => basedNumber? rest
    | _ => none
  match based with
  | some (n, rest) => some (.int n, rest)
  | none => decimalNumber? s

/-! ## Dates and times -/

/-- A number of exactly `count` decimal digits. -/
def fixedNumber? (count : Nat) (s : Text) : Option (Nat × Text) :=
  let digits := s.take count
  if digits.length = count ∧ digits.all Char.isDigit then some (numberOf 10 digits, s.drop count)
  else none

/-- The number of days of a month. -/
def daysInMonth (year month : Nat) : Nat :=
  if month = 2 then
    if year % 4 = 0 ∧ (year % 100 ≠ 0 ∨ year % 400 = 0) then 29 else 28
  else if month = 4 ∨ month = 6 ∨ month = 9 ∨ month = 11 then 30
  else 31

/-- The text behind a time of day, with seconds and possibly fractions of them. -/
def afterTime? (s : Text) : Option Text := do
  let (hour, s) ← fixedNumber? 2 s
  let (minute, s) ← fixedNumber? 2 (← s.after? [':'])
  let (second, s) ← fixedNumber? 2 (← s.after? [':'])
  if 23 < hour ∨ 59 < minute ∨ 59 < second then none
  else
    match s with
    | '.' :: rest =>
      match rest.span Char.isDigit with
      | ([], _) => some s
      | (_, rest) => some rest
    | _ => some s

/-- The text behind the offset of a time; the text itself if there is none. -/
def skipOffset (s : Text) : Text :=
  match s with
  | 'Z' :: rest => rest
  | 'z' :: rest => rest
  | sign :: rest =>
    if sign == '+' || sign == '-' then
      let offset : Option Text := do
        let (hour, t) ← fixedNumber? 2 rest
        let (minute, t) ← fixedNumber? 2 (← t.after? [':'])
        if 23 < hour ∨ 59 < minute then none else some t
      offset.getD s
    else s
  | [] => s

/-- The text behind a time and its offset that belong to a date; the text itself if there are
none. -/
def skipTime (s : Text) : Text :=
  match s with
  | c :: rest =>
    if c == 'T' || c == 't' || c == ' ' then ((afterTime? rest).map skipOffset).getD s else s
  | [] => s

/-- The form of a date: year, month and day with the text behind it. The day of the month may still
be one that the month does not have. -/
def datePattern? (s : Text) : Option ((Nat × Nat × Nat) × Text) := do
  let (year, s) ← fixedNumber? 4 s
  let (month, s) ← fixedNumber? 2 (← s.after? ['-'])
  let (day, s) ← fixedNumber? 2 (← s.after? ['-'])
  if month < 1 ∨ 12 < month ∨ day < 1 ∨ 31 < day then none else some ((year, month, day), s)

/-- A word for a value that is no finite number, possibly with a sign. -/
def afterSpecial? (s : Text) : Option Text :=
  let s := skipSign s
  (s.after? "inf".toList).or (s.after? "nan".toList)

/-- A value that is neither a string, nor an array nor a table. -/
def scalar? (s : Text) : Option (Document × Text) :=
  match s.after? "true".toList, s.after? "false".toList with
  | some rest, _ => some (.bool true, rest)
  | _, some rest => some (.bool false, rest)
  | none, none =>
    match datePattern? s with
    | some ((year, month, day), rest) =>
      if year = 0 ∨ daysInMonth year month < day then none else some (.other, skipTime rest)
    | none =>
      match afterTime? s with
      | some rest => some (.other, rest)
      | none => (number? s).or ((afterSpecial? s).map (.other, ·))

end Toml

end SourceIndex
