import TypedPipeline.Datum
import TypedPipeline.Yaml.Literal
import TypedPipeline.Yaml.Token

/-!
# Writing YAML

Plain data is written in block form: every member and every item on a line of its own. A text is
written plain if it reads back as itself, otherwise in quotes, and a text of several lines as a
literal.

## Implementation notes

What is written is put on a page character by character, with the column and whether a blank is
needed before the next word. This is how it is decided where a new line begins, and it is the same
for texts, collections and keys.

The form of a text depends on its shape, which is found in one pass: whether it has breaks, special
characters, or blanks at places where they would be lost. A form that a shape does not allow gives
way to the next one, and double quotes are always allowed, since there every character can be
escaped. Long lines are not folded.

Sequences that are values of members are not indented, and all other collections are. Empty
collections have no lines of their own.

## Main definitions

* `Yaml.Shape`, `Yaml.Shape.ofText` — what a text allows
* `Yaml.styleOf` — the form in which a text is written
* `Yaml.render` — the text of a value
-/

namespace TypedPipeline.Yaml

/-! ### What a text allows

A text is looked at as a reader would look at it. If any part of it could be taken for something
else, it is not written plain. -/

/-- Whether a character is written as it is. -/
def isPrintable (c : Char) : Bool :=
  let n := c.toNat
  n == 0xA || (0x20 ≤ n && n ≤ 0x7E) || (0xA0 ≤ n && n ≤ 0xD7FF) ||
    (0xE000 ≤ n && n ≤ 0xFFFD && n != 0xFEFF) || 0x10000 ≤ n

/-- Line breaks in a text that is written. -/
def isLineBreak (c : Char) : Bool := isBreak c || c == '\r' || c == '\u0085'

/-- What a text has that matters for its form. -/
structure Shape where
  /-- It has characters that would end a plain text or begin something else. -/
  indicators : Bool := false
  lineBreaks : Bool := false
  /-- It has characters that need an escape. -/
  special : Bool := false
  /-- It begins or ends with a space or a break. -/
  blankEnds : Bool := false
  trailingSpace : Bool := false
  /-- A space follows a break. -/
  breakSpace : Bool := false
  /-- A break follows a space. -/
  spaceBreak : Bool := false

/-- The characters that begin something other than a plain text. -/
def openingIndicators : List Char :=
  ['#', ',', '[', ']', '{', '}', '&', '*', '!', '|', '>', '\'', '"', '%', '@', '\x60']

/-- Whether the next character is a blank, a break or missing. -/
def blankOrEnd : List Char → Bool
  | [] => true
  | c :: _ => c == ' ' || c == '\t' || isLineBreak c || c == '\x00'

/-- Whether a character is an indicator at its place: `first` in the text, `blankBefore` it, and
`rest` behind it. -/
def isIndicator (first blankBefore : Bool) (c : Char) (rest : List Char) : Bool :=
  if first then
    openingIndicators.contains c || ((c == '?' || c == ':' || c == '-') && blankOrEnd rest)
  else (c == ':' && blankOrEnd rest) || (c == '#' && blankBefore)

namespace Shape

/-- Takes in the characters from a place on. `before` is the character before the place. -/
def scan (s : Shape) (before : Option Char) : List Char → Shape
  | [] => s
  | c :: rest =>
    let first := before.isNone
    let wasSpace := before == some ' '
    let wasBreak := (before.map isLineBreak).getD false
    let blankBefore := (before.map fun b => blankOrEnd [b]).getD true
    let atEnd := first || rest.isEmpty
    let s := {
      s with
      indicators := s.indicators || isIndicator first blankBefore c rest
      special := s.special || !isPrintable c
      lineBreaks := s.lineBreaks || isLineBreak c
      blankEnds := s.blankEnds || (atEnd && (c == ' ' || isLineBreak c))
      trailingSpace := s.trailingSpace || (c == ' ' && rest.isEmpty)
      breakSpace := s.breakSpace || (c == ' ' && wasBreak)
      spaceBreak := s.spaceBreak || (isLineBreak c && wasSpace) }
    scan s (some c) rest

/-- The shape of a text. -/
def ofText (text : List Char) : Shape :=
  let mark (c : Char) : Bool := text.take 3 == [c, c, c]
  scan { indicators := mark '-' || mark '.' } none text

/-- Whether the text may be plain. -/
def plainAllowed (s : Shape) : Bool :=
  !(s.indicators || s.lineBreaks || s.special || s.blankEnds || s.breakSpace || s.spaceBreak)

/-- Whether the text may stand in single quotes. -/
def singleAllowed (s : Shape) : Bool := !(s.special || s.breakSpace || s.spaceBreak)

/-- Whether the text may be a literal. -/
def literalAllowed (s : Shape) : Bool := !(s.special || s.trailingSpace || s.spaceBreak)

end Shape

/-- The form in which a text would be written if nothing forbids it: a literal if it has several
lines, single quotes if it would be read as something other than a text, else plain. -/
def wantedStyle (text : String) : ScalarForm :=
  if text.toList.contains '\n' then .literal
  else
    match Literal.ofText text with
    | .text => if isPaddedNumber text.toList then .singleQuoted else .plain
    | _ => .singleQuoted

/-- The form in which a text is written. A key on the line of its value (`inKey`) is no literal. -/
def styleOf (wanted : ScalarForm) (inKey : Bool) (text : List Char) : ScalarForm :=
  let shape := Shape.ofText text
  let style := if inKey && shape.lineBreaks then .doubleQuoted else wanted
  let style :=
    if style == .plain && (!shape.plainAllowed || (text.isEmpty && inKey)) then .singleQuoted
    else style
  let style :=
    if style == .singleQuoted && !shape.singleAllowed then .doubleQuoted else style
  if style == .literal && (text.isEmpty || !shape.literalAllowed || inKey) then .doubleQuoted
  else style

/-! ### Laying out

Nothing that was written is changed later. A space between two words is written when the second one
comes and not before. -/

/-- What has been written: the characters, the latest first, and where the line stands. -/
structure Page where
  written : List Char := []
  column : Nat := 0
  /-- A blank or a break was written last. -/
  blank : Bool := true
  /-- Only indentation and indicators stand on the line. -/
  indenting : Bool := true

namespace Page

/-- Writes a character of a line. -/
def put (p : Page) (c : Char) : Page :=
  { p with written := c :: p.written, column := p.column + 1 }

/-- Writes a break. -/
def putBreak (p : Page) (c : Char) : Page :=
  { p with written := c :: p.written, column := 0 }

/-- Writes an indicator, with a space before it if one is needed. -/
def indicator (p : Page) (text : List Char) (spaced blank indenting : Bool) : Page :=
  let p := if spaced && !p.blank then p.put ' ' else p
  let p := text.foldl put p
  { p with blank, indenting := p.indenting && indenting }

/-- Goes to an indentation, on a new line unless only indentation stands before it. -/
def indentTo (p : Page) (indent : Nat) : Page :=
  let p :=
    if !p.indenting || indent < p.column || (p.column == indent && !p.blank) then p.putBreak '\n'
    else p
  let p := (List.replicate (indent - p.column) ' ').foldl put p
  { p with blank := true, indenting := true }

/-! ### Scalars

In single quotes, a break of the text has to be doubled, because a reader folds a single one into a
space. In a literal, breaks are what they are. -/

/-- Writes a plain text. -/
def plain (p : Page) (text : List Char) : Page :=
  let p := if !p.blank && !text.isEmpty then p.put ' ' else p
  let p := text.foldl put p
  { p with blank := false, indenting := false }

/-- Writes the characters of a text in single quotes. `broken` says whether a break came last. -/
def singleChars (indent : Nat) : Page → (broken : Bool) → List Char → Page
  | p, broken, [] => if broken then p.indentTo indent else p
  | p, broken, c :: rest =>
    if isLineBreak c then
      let p := if !broken && c == '\n' then p.putBreak '\n' else p
      singleChars indent { (p.putBreak c) with indenting := true } true rest
    else if c == ' ' then singleChars indent (p.put c) broken rest
    else
      let p := if broken then p.indentTo indent else p
      let p := if c == '\'' then p.put c else p
      singleChars indent { (p.put c) with indenting := false } false rest

/-- Writes a text in single quotes. -/
def single (p : Page) (indent : Nat) (text : List Char) : Page :=
  let p := p.indicator ['\''] true false false
  let p := singleChars indent p false text
  { (p.indicator ['\''] false false false) with blank := false, indenting := false }

/-- The upper-case hexadecimal digits of a code, filled up to a width. -/
def hexDigits (width code : Nat) : List Char :=
  let ds := (Nat.toDigits 16 code).map Char.toUpper
  List.replicate (width - ds.length) '0' ++ ds

/-- A character in double quotes. -/
def doubleChar (c : Char) : List Char :=
  match c with
  | '\x00' => ['\\', '0']
  | '\x07' => ['\\', 'a']
  | '\x08' => ['\\', 'b']
  | '\t' => ['\\', 't']
  | '\n' => ['\\', 'n']
  | '\x0b' => ['\\', 'v']
  | '\x0c' => ['\\', 'f']
  | '\r' => ['\\', 'r']
  | '\x1b' => ['\\', 'e']
  | '"' => ['\\', '"']
  | '\\' => ['\\', '\\']
  | '\u0085' => ['\\', 'N']
  | '\u2028' => ['\\', 'L']
  | '\u2029' => ['\\', 'P']
  | _ =>
    if isPrintable c then [c]
    else
      let n := c.toNat
      if n ≤ 0xFF then '\\' :: 'x' :: hexDigits 2 n
      else if n ≤ 0xFFFF then '\\' :: 'u' :: hexDigits 4 n
      else '\\' :: 'U' :: hexDigits 8 n

/-- Writes a text in double quotes. -/
def double (p : Page) (text : List Char) : Page :=
  let p := p.indicator ['"'] true false false
  let p := (text.flatMap doubleChar).foldl put p
  { (p.indicator ['"'] false false false) with blank := false, indenting := false }

/-- The mark behind `|` for the breaks at the end of a text: none for one break, `-` for no break,
`+` for several, and for a text that is a break. -/
def chomping (text : List Char) : List Char :=
  match text.reverse with
  | [] => ['-']
  | [c] => if isLineBreak c then ['+'] else ['-']
  | c :: d :: _ => if !isLineBreak c then ['-'] else if isLineBreak d then ['+'] else []

/-- The mark behind `|` for the indentation, where the text begins with a space or a break. -/
def indentMark (text : List Char) : List Char :=
  match text with
  | [] => []
  | c :: _ => if c == ' ' || isLineBreak c then ['2'] else []

/-- Writes the lines of a literal. `broken` says whether a break came last. -/
def literalChars (indent : Nat) : Page → (broken : Bool) → List Char → Page
  | p, _, [] => p
  | p, broken, c :: rest =>
    if isLineBreak c then
      literalChars indent { (p.putBreak c) with indenting := true } true rest
    else
      let p := if broken then p.indentTo indent else p
      literalChars indent { (p.put c) with indenting := false } false rest

/-- Writes a literal. -/
def literal (p : Page) (indent : Nat) (text : List Char) : Page :=
  let p := p.indicator ['|'] true false false
  let p := p.indicator (indentMark text) false false false
  let p := p.indicator (chomping text) false false false
  let p := { (p.putBreak '\n') with blank := true, indenting := true }
  literalChars indent p true text

/-- Writes a text in a form. `indent` is the indentation of its lines. -/
def scalar (p : Page) (indent : Nat) (style : ScalarForm) (text : List Char) : Page :=
  match style with
  | .plain => p.plain text
  | .singleQuoted => p.single indent text
  | .doubleQuoted => p.double text
  | .literal => p.literal indent text
  | .folded => p.literal indent text

/-! ### Values

The functions follow the structure of the data. Where a collection begins depends on what was
written before it on the line. -/

/-- The style of numbers: positional from `1e-5` up to `1e16`, with `.0` behind a whole number,
otherwise with an exponent. -/
def floatStyle : FloatStyle where
  window := some (-5, 15)
  pointZero := true
  exponentPlus := false
  tie := .toEven
  nan := ".nan"
  infinity := ".inf"

/-- The text of a number; what is no number has no sign. -/
def floatText (x : Binary64) : String := floatStyle.render x

/-- The form that is wanted for a value, and its text. -/
def leafText : Datum → ScalarForm × String
  | .null => (.plain, "null")
  | .boolean b => (.plain, if b then "true" else "false")
  | .integer n => (.plain, toString n)
  | .float x => (.plain, floatText x)
  | .string s => (wantedStyle s, s)
  | .array _ => (.plain, "[]")
  | .object _ => (.plain, "\x7b\x7d")

/-- The indentation inside a collection at `indent`, and of the lines of a scalar there. The
outermost collection is not indented. -/
def inside (indent : Option Nat) : Nat :=
  match indent with
  | none => 0
  | some n => n + 2

/-- The indentation of the lines of a scalar. -/
def insideScalar (indent : Option Nat) : Nat := (indent.getD 0) + 2

/-- Whether a text is short enough for a key on the line of its value. -/
def isSimpleKey (text : String) : Bool :=
  !(Shape.ofText text.toList).lineBreaks && text.utf8ByteSize ≤ 128

/-- Writes the key of a member at an indentation, up to its colon. -/
def key (p : Page) (indent : Nat) (text : String) : Page :=
  let cs := text.toList
  let p := p.indentTo indent
  if isSimpleKey text then
    let p := p.scalar (indent + 2) (styleOf (wantedStyle text) true cs) cs
    p.indicator [':'] false false false
  else
    let p := p.indicator ['?'] true false true
    let p := p.scalar (indent + 2) (styleOf (wantedStyle text) false cs) cs
    (p.indentTo indent).indicator [':'] true false true

mutual

/-- Writes a value at an indentation; `member` says whether it is the value of a member. -/
def value (indent : Option Nat) (member : Bool) (p : Page) : Datum → Page
  | .array [] =>
    (p.indicator ['['] true true false).indicator [']'] false false false
  | .object [] =>
    (p.indicator ['{'] true true false).indicator ['}'] false false false
  | .array items =>
    let inner :=
      match indent with
      | some n => if member && !p.indenting then n else n + 2
      | none => 0
    sequence inner p items
  | .object members => mapping (inside indent) p members
  | leaf =>
    let (wanted, text) := leafText leaf
    let cs := text.toList
    p.scalar (insideScalar indent) (styleOf wanted false cs) cs

/-- Writes the items of a sequence. -/
def sequence (indent : Nat) (p : Page) : List Datum → Page
  | [] => p
  | item :: rest =>
    let p := (p.indentTo indent).indicator ['-'] true false true
    sequence indent (value (some indent) false p item) rest

/-- Writes the members of a mapping. -/
def mapping (indent : Nat) (p : Page) : List (String × Datum) → Page
  | [] => p
  | (name, v) :: rest =>
    let p := p.key indent name
    mapping indent (value (some indent) true p v) rest

end

end Page

/-- The text of a value. -/
def render (v : Datum) : String :=
  String.ofList ((Page.value none false {} v).indentTo 0).written.reverse

end TypedPipeline.Yaml
