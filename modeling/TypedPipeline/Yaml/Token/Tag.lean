import TypedPipeline.Yaml.Token.Scalar

/-!
# Scanning tags, anchors and directives

A tag is a handle and a suffix. The handle stands for text that a directive, or a default, gives it;
the tag `!` alone has the empty handle.

Tags are read but their handles are not replaced here, because a directive may have defined them.
The grammar of nodes does it.

## Main definitions

* `Yaml.scanName?` — the name behind `&` or `*`
* `Yaml.scanTag?` — a tag
* `Yaml.scanDirective?` — a line that begins with `%`
-/

namespace TypedPipeline.Yaml

/-- What may follow the name of an anchor directly, blanks and breaks apart. -/
def nameEnds : List Char := ['?', ':', ',', ']', '}', '%', '@', '\x60']

/-- Reads a name of word characters behind an indicator. -/
def scanName? (cells : List Cell) : Option (String × List Cell) :=
  let name := (cells.takeWhile fun c => isWordChar c.char).map Cell.char
  let rest := cells.dropWhile fun c => isWordChar c.char
  if name.isEmpty then none
  else if atBlankOrEnd rest || nameEnds.any (startsWith · rest) then
    some (String.ofList name, rest)
  else none

/-! ### Tags

A tag is written out between angle brackets, or with a handle in front. Characters that cannot stand
in it are written as the octets of their encoding. -/

/-- The characters of a tag besides word characters and escapes. -/
def tagChars : List Char :=
  [';', '/', '?', ':', '@', '&', '=', '+', '$', '.', '!', '~', '*', '\'', '(', ')']

/-- Reads an octet written as `%` and two hexadecimal digits. -/
def tagOctet? : List Cell → Option (Nat × List Cell)
  | p :: a :: b :: rest => do
    if p.char != '%' then none
    let high ← hexValue? a.char
    let low ← hexValue? b.char
    some (16 * high + low, rest)
  | _ => none

/-- Reads `n` octets that continue a character, onto the bits read so far. -/
def tagOctets? : Nat → Nat → List Cell → Option (Nat × List Cell)
  | 0, code, cells => some (code, cells)
  | n + 1, code, cells => do
    let (octet, rest) ← tagOctet? cells
    if octet / 64 != 2 then none
    tagOctets? n (code * 64 + octet % 64) rest

/-- Reads a character written as the octets of its encoding. -/
def tagEscape? (cells : List Cell) : Option (Char × List Cell) := do
  let (octet, rest) ← tagOctet? cells
  let (more, code) ←
    if octet < 0x80 then some (0, octet)
    else if octet / 32 == 6 then some (1, octet % 32)
    else if octet / 16 == 14 then some (2, octet % 16)
    else if octet / 8 == 30 then some (3, octet % 8)
    else none
  let (code, rest) ← tagOctets? more code rest
  some ((charOfCode? code).getD '\uFFFD', rest)

/-- Reads the characters of a tag. In a verbatim tag and in a directive comma and brackets are among
them. -/
def tagRun? (verbatim : Bool) : Nat → List Char → List Cell → Option (List Char × List Cell)
  | 0, _, _ => none
  | _ + 1, text, [] => some (text, [])
  | fuel + 1, text, c :: rest =>
    if c.char == '%' then do
      let (d, rest) ← tagEscape? (c :: rest)
      tagRun? verbatim fuel (text ++ [d]) rest
    else if isWordChar c.char || tagChars.contains c.char ||
        (verbatim && [',', '[', ']'].contains c.char) then
      tagRun? verbatim fuel (text ++ [c.char]) rest
    else some (text, c :: rest)

/-- Reads the characters of a tag behind `text`. -/
def scanTagText? (verbatim : Bool) (text : List Char) (cells : List Cell) :
    Option (List Char × List Cell) :=
  tagRun? verbatim (cells.length + 1) text cells

/-- Reads `!`, word characters, and a second `!` if there is one. -/
def scanHandle? (cells : List Cell) : Option (List Char × List Cell) :=
  match cells with
  | [] => none
  | c :: rest =>
    if c.char != '!' then none
    else
      let word := (rest.takeWhile fun c => isWordChar c.char).map Cell.char
      let rest := rest.dropWhile fun c => isWordChar c.char
      if startsWith '!' rest then some ('!' :: word ++ ['!'], rest.drop 1)
      else some ('!' :: word, rest)

/-- The handle and the suffix of a tag, without the check of what follows. -/
def scanTagParts? (cells : List Cell) : Option (List Char × List Char × List Cell) :=
  match cells with
  | bang :: next :: rest =>
    if next.char == '<' then do
      let (suffix, rest) ← scanTagText? true [] rest
      if suffix.isEmpty || !startsWith '>' rest then none
      some ([], suffix, rest.drop 1)
    else shorthand? (bang :: next :: rest)
  | _ => shorthand? cells
where
  /-- A tag that is not verbatim. -/
  shorthand? (cells : List Cell) : Option (List Char × List Char × List Cell) := do
    let (handle, rest) ← scanHandle? cells
    if 1 < handle.length && handle.getLast? == some '!' then
      let (suffix, rest) ← scanTagText? false [] rest
      if suffix.isEmpty then none
      some (handle, suffix, rest)
    else
      let (suffix, rest) ← scanTagText? false (handle.drop 1) rest
      if suffix.isEmpty then some ([], ['!'], rest) else some (['!'], suffix, rest)

/-- Scans a tag; its `!` is the next cell. A blank, a break or, inside a flow collection, a comma
has to follow. -/
def scanTag? (inFlow : Bool) (cells : List Cell) : Option (Token × List Cell) := do
  let (handle, suffix, rest) ← scanTagParts? cells
  if atBlankOrEnd rest || (inFlow && startsWith ',' rest) then
    some (.tag (String.ofList handle) (String.ofList suffix), rest)
  else none

/-! ### Directives

Only two directives are known, and others are refused. A directive ends with its line. -/

/-- Drops blanks. -/
def dropBlanks (cells : List Cell) : List Cell := cells.dropWhile fun c => isBlank c.char

/-- Reads a number of at most nine digits. -/
def scanNumber? (cells : List Cell) : Option (Nat × List Cell) :=
  let ds := (cells.takeWhile fun c => c.char.isDigit).map Cell.char
  if ds.isEmpty || 9 < ds.length then none
  else
    some (ds.foldl (fun n c => 10 * n + (c.toNat - '0'.toNat)) 0,
      cells.dropWhile fun c => c.char.isDigit)

/-- The directive behind `%`, without the end of its line. -/
def scanDirectiveBody? (cells : List Cell) : Option (Token × List Cell) := do
  let name := (cells.takeWhile fun c => isWordChar c.char).map Cell.char
  let rest := cells.dropWhile fun c => isWordChar c.char
  if name.isEmpty || !atBlankOrEnd rest then none
  let rest := dropBlanks rest
  if name == "YAML".toList then
    let (major, rest) ← scanNumber? rest
    if !startsWith '.' rest then none
    let (minor, rest) ← scanNumber? (rest.drop 1)
    some (.versionDirective major minor, rest)
  else if name == "TAG".toList then
    let (handle, rest) ← scanHandle? rest
    if handle != ['!'] && handle.getLast? != some '!' then none
    if !(atBlankOrEnd rest && !atBreakOrEnd rest) then none
    let (lead, rest) ← scanTagText? true [] (dropBlanks rest)
    if lead.isEmpty || !atBlankOrEnd rest then none
    some (.tagDirective (String.ofList handle) (String.ofList lead), rest)
  else none

/-- Scans a directive and its line break; `%` is the next cell. -/
def scanDirective? (cells : List Cell) : Option (Token × List Cell) := do
  let (token, rest) ← scanDirectiveBody? (cells.drop 1)
  let rest ← endOfLine? rest
  some (token, rest)

end TypedPipeline.Yaml
