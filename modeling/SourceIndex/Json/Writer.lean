import SourceIndex.Json.Basic

/-!
# Writing JSON

`Json.write` puts a value on one line of ASCII: fields in the order of their keys, a space behind
every comma and colon, and every other character as one or two escapes of four hexadecimal digits.
`Json.writeIndented` spreads arrays and objects over lines. A fraction is written with its shortest
digits: positionally if the first digit stands between the fourth place behind the point and the
sixteenth before it, else with an exponent.
-/

namespace SourceIndex

/-! ## Strings -/

/-- The escape of a UTF-16 unit. -/
def unitEscape (n : Nat) : Text :=
  '\\' :: 'u' :: Text.hex 4 n

/-- A character as it stands in a string. -/
def writeChar (c : Char) : Text :=
  if c == '"' then ['\\', '"']
  else if c == '\\' then ['\\', '\\']
  else if c == '\n' then ['\\', 'n']
  else if c == '\r' then ['\\', 'r']
  else if c == '\t' then ['\\', 't']
  else if c == '\x08' then ['\\', 'b']
  else if c == '\x0c' then ['\\', 'f']
  else if 0x20 ≤ c.toNat ∧ c.toNat < 0x7F then [c]
  else if c.toNat < 0x10000 then unitEscape c.toNat
  else
    unitEscape (0xD800 + (c.toNat - 0x10000) / 0x400) ++
      unitEscape (0xDC00 + (c.toNat - 0x10000) % 0x400)

/-- A string in quotes. -/
def writeString (s : Text) : Text :=
  '"' :: s.flatMap writeChar ++ ['"']

/-! ## Numbers -/

/-- The digits of a decimal fraction without zeros at the end, and the exponent that goes with them.
-/
def normalDigits (digits : Nat) (exponent : Int) : Text × Int :=
  let text := Text.ofNat digits
  let kept := (text.reverse.dropWhile (· == '0')).reverse
  (kept, exponent + (text.length - kept.length : Nat))

/-- An exponent with its sign and at least two digits. -/
def writeExponent (e : Int) : Text :=
  let digits := Text.ofNat e.natAbs
  (if e < 0 then '-' else '+') :: (if digits.length < 2 then '0' :: digits else digits)

/-- The value `digits * 10 ^ exponent`. -/
def writeDecimal (digits : Nat) (exponent : Int) : Text :=
  match normalDigits digits exponent with
  | ([], _) => "0.0".toList
  | (first :: others, exponent) =>
    let digits := first :: others
    let leading : Int := others.length + exponent
    if leading < -4 ∨ 16 ≤ leading then
      first :: (if others.isEmpty then [] else '.' :: others) ++ 'e' :: writeExponent leading
    else if 0 ≤ exponent then
      digits ++ List.replicate exponent.toNat '0' ++ ['.', '0']
    else if 0 ≤ leading then
      digits.take (leading.toNat + 1) ++ '.' :: digits.drop (leading.toNat + 1)
    else
      '0' :: '.' :: List.replicate (-leading - 1).toNat '0' ++ digits

/-- A number. -/
def JsonNumber.write : JsonNumber → Text
  | int n => Text.ofInt n
  | decimal negative digits exponent =>
    (if negative then ['-'] else []) ++ writeDecimal digits exponent
  | nan => "NaN".toList
  | infinity negative => if negative then "-Infinity".toList else "Infinity".toList

/-! ## Values -/

namespace Json

mutual

/-- The value with the fields of all its objects in the order of their keys. -/
def sorted : Json → Json
  | arr items => .arr (sortedItems items)
  | obj fields => .obj (sortFields (sortedFields fields))
  | v => v

/-- The items of an array with the fields of all their objects sorted. -/
def sortedItems : List Json → List Json
  | [] => []
  | v :: rest => sorted v :: sortedItems rest

/-- The fields of an object with the fields of all objects in them sorted. -/
def sortedFields : List (Text × Json) → List (Text × Json)
  | [] => []
  | (k, v) :: rest => (k, sorted v) :: sortedFields rest

end

mutual

/-- A value on one line, with its fields as they stand. -/
def writeAsIs : Json → Text
  | null => "null".toList
  | bool b => if b then "true".toList else "false".toList
  | num n => n.write
  | str s => writeString s
  | arr items => '[' :: writeItems items ++ [']']
  | obj fields => '\x7b' :: writeFields fields ++ ['\x7d']

/-- The items of an array with commas between them. -/
def writeItems : List Json → Text
  | [] => []
  | [v] => writeAsIs v
  | v :: rest => writeAsIs v ++ ',' :: ' ' :: writeItems rest

/-- The fields of an object with commas between them. -/
def writeFields : List (Text × Json) → Text
  | [] => []
  | [(k, v)] => writeString k ++ ':' :: ' ' :: writeAsIs v
  | (k, v) :: rest => writeString k ++ ':' :: ' ' :: writeAsIs v ++ ',' :: ' ' :: writeFields rest

end

/-- A value on one line, with its fields sorted. -/
def write (v : Json) : Text :=
  writeAsIs v.sorted

/-- A newline and the blanks of an indentation level of two. -/
def lineBreak (level : Nat) : Text :=
  '\n' :: List.replicate (2 * level) ' '

mutual

/-- A value over several lines, with its fields as they stand; `level` is the indentation. -/
def writeIndentedAsIs (level : Nat) : Json → Text
  | arr (v :: rest) =>
    '[' :: writeIndentedItems (level + 1) (v :: rest) ++ lineBreak level ++ [']']
  | obj (f :: rest) =>
    '\x7b' :: writeIndentedFields (level + 1) (f :: rest) ++ lineBreak level ++ ['\x7d']
  | arr [] => ['[', ']']
  | obj [] => ['\x7b', '\x7d']
  | v => writeAsIs v

/-- The items of an array on lines of their own. -/
def writeIndentedItems (level : Nat) : List Json → Text
  | [] => []
  | [v] => lineBreak level ++ writeIndentedAsIs level v
  | v :: rest =>
    lineBreak level ++ writeIndentedAsIs level v ++ ',' :: writeIndentedItems level rest

/-- The fields of an object on lines of their own. -/
def writeIndentedFields (level : Nat) : List (Text × Json) → Text
  | [] => []
  | [(k, v)] => lineBreak level ++ writeString k ++ ':' :: ' ' :: writeIndentedAsIs level v
  | (k, v) :: rest =>
    lineBreak level ++ writeString k ++ ':' :: ' ' :: writeIndentedAsIs level v ++
      ',' :: writeIndentedFields level rest

end

/-- A value over several lines, with its fields sorted. -/
def writeIndented (v : Json) : Text :=
  writeIndentedAsIs 0 v.sorted

end Json

end SourceIndex
