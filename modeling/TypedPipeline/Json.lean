import TypedPipeline.Datum

/-!
# JSON texts

Plain data is written as JSON either without any blanks or, for files that people look at, with
every member and every item on a line of its own, indented by two spaces for each level.

## Implementation notes

Both writers are three mutually recursive functions, one for values and one each for what is behind
the first item or member of a collection. Empty collections are written in two characters on one
line by either writer.

What is not a collection is written by `leafChars` for both. Floats are written with the fewest
digits that read back to them, which is a property of `Decimal.shortest`; JSON has no text for
infinities and for what is no number, so these are null.

The written texts hold any character that is no control character as it is. Only quotes and
backslashes are escaped beyond that, so a slash is not.

## Main definitions

* `Json.compact`, `Json.pretty` — the two texts
-/

namespace TypedPipeline.Json

/-! ### Texts and numbers -/

/-- The lower-case hexadecimal digit of a number below 16. -/
def hexDigit (n : Nat) : Char :=
  if n < 10 then Char.ofNat ('0'.toNat + n) else Char.ofNat ('a'.toNat + n - 10)

/-- How a character stands inside quotes: quotes and backslashes behind a backslash, control
characters as escapes, all else as it is. Control characters without a short escape are written by
their code. -/
def escapeChar (c : Char) : List Char :=
  match c with
  | '"' => ['\\', '"']
  | '\\' => ['\\', '\\']
  | '\x08' => ['\\', 'b']
  | '\t' => ['\\', 't']
  | '\n' => ['\\', 'n']
  | '\x0c' => ['\\', 'f']
  | '\r' => ['\\', 'r']
  | _ =>
    if c.toNat < 0x20 then
      ['\\', 'u', '0', '0', hexDigit (c.toNat / 16), hexDigit (c.toNat % 16)]
    else [c]

/-- A text in quotes. -/
def quoted (s : String) : List Char := '"' :: s.toList.flatMap escapeChar ++ ['"']

/-- The style of numbers: positional from `1e-5` up to `1e16`, with `.0` behind a whole number,
otherwise with an exponent that has its sign. -/
def floatStyle : FloatStyle where
  window := some (-5, 15)
  pointZero := true
  exponentPlus := true
  tie := .toEven
  nan := "null"
  infinity := "null"

/-- The text of a number; what is not finite is null. -/
def floatChars (x : Binary64) : List Char :=
  if x.isFinite then (floatStyle.render x).toList else "null".toList

/-- The text of a value that is not a collection. -/
def leafChars : Datum → List Char
  | .null => "null".toList
  | .boolean true => "true".toList
  | .boolean false => "false".toList
  | .integer n => (toString n).toList
  | .float x => floatChars x
  | .string s => quoted s
  | .array _ => []
  | .object _ => []

/-! ### Without blanks -/

mutual

/-- The characters of a value, without blanks. -/
def compactChars : Datum → List Char
  | .array items => '[' :: compactItems items
  | .object members => '{' :: compactMembers members
  | v => leafChars v

/-- The items of an array and its end. -/
def compactItems : List Datum → List Char
  | [] => [']']
  | [v] => compactChars v ++ [']']
  | v :: rest => compactChars v ++ ',' :: compactItems rest

/-- The members of an object and its end. -/
def compactMembers : List (String × Datum) → List Char
  | [] => ['}']
  | [(k, v)] => quoted k ++ ':' :: compactChars v ++ ['}']
  | (k, v) :: rest => quoted k ++ ':' :: compactChars v ++ ',' :: compactMembers rest

end

/-- The text of a value, without blanks. -/
def compact (v : Datum) : String := String.ofList (compactChars v)

/-! ### On lines -/

/-- A line break and the indentation of a level. -/
def newLine (level : Nat) : List Char := '\n' :: List.replicate (2 * level) ' '

mutual

/-- The characters of a value whose first character stands on a level. The level is that of the line
on which the value begins, also where a name stands before it. -/
def prettyChars (level : Nat) : Datum → List Char
  | .array [] => ['[', ']']
  | .object [] => ['{', '}']
  | .array items => '[' :: prettyItems level items
  | .object members => '{' :: prettyMembers level members
  | v => leafChars v

/-- The items of an array that begins on a level, and its end. -/
def prettyItems (level : Nat) : List Datum → List Char
  | [] => [']']
  | [v] => newLine (level + 1) ++ prettyChars (level + 1) v ++ newLine level ++ [']']
  | v :: rest =>
    newLine (level + 1) ++ prettyChars (level + 1) v ++ ',' :: prettyItems level rest

/-- The members of an object that begins on a level, and its end. -/
def prettyMembers (level : Nat) : List (String × Datum) → List Char
  | [] => ['}']
  | [(k, v)] =>
    newLine (level + 1) ++ quoted k ++ ':' :: ' ' :: prettyChars (level + 1) v ++
      newLine level ++ ['}']
  | (k, v) :: rest =>
    newLine (level + 1) ++ quoted k ++ ':' :: ' ' :: prettyChars (level + 1) v ++
      ',' :: prettyMembers level rest

end

/-- The text of a value, on lines. -/
def pretty (v : Datum) : String := String.ofList (prettyChars 0 v)

end TypedPipeline.Json
