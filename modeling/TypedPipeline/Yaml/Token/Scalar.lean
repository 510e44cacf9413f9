import TypedPipeline.Yaml.Token

/-!
# Scanning scalars

A scalar may run over several lines. Inside it, line breaks fold: a single break between two lines
becomes a space, further breaks stay. What folds, and where a scalar ends, differs between the
forms.

## Implementation notes

The text of a scalar is built from runs without blanks and the gaps between them. A gap is kept
apart until the next run is there, because at the end of a scalar it does not count.

Block scalars are read line by line. Their indentation is given by a mark or is that of the first
line with something on it. What the breaks at the end mean depends on the mark behind `|` or `>`.

## Main definitions

* `Yaml.scanPlain?` — a plain scalar
* `Yaml.scanQuoted?` — a scalar in single or double quotes
* `Yaml.scanBlock?` — a literal or folded block scalar
-/

namespace TypedPipeline.Yaml

/-! ### Blanks between parts of a scalar

A gap is either blanks on one line or breaks with blanks around them. In the second case the blanks
are dropped. -/

/-- Blanks and breaks met since the last part: blanks on the same line, the first break, and the
breaks after it. -/
structure Gap where
  blanks : List Char
  first : Option Char
  later : List Char

/-- No blank and no break. -/
def Gap.none : Gap := ⟨[], Option.none, []⟩

/-- The characters that stand for a gap with a break: a single line feed becomes a space. -/
def Gap.folded (g : Gap) : List Char :=
  match g.first with
  | some '\n' => if g.later.isEmpty then [' '] else g.later
  | some c => c :: g.later
  | Option.none => g.later

/-- Reads a gap. `afterBreak` says whether a break came before; blanks after a break are dropped.
`tabLimit` is the column below which a tab after a break is an error. -/
def readGap? (tabLimit : Nat) : Bool → Gap → List Cell → Option (Bool × Gap × List Cell)
  | afterBreak, g, [] => some (afterBreak, g, [])
  | afterBreak, g, c :: rest =>
    if isBlank c.char then
      if afterBreak then
        if c.char == '\t' && c.mark.column < tabLimit then none
        else readGap? tabLimit true g rest
      else readGap? tabLimit false { g with blanks := g.blanks ++ [c.char] } rest
    else if isBreak c.char then
      if afterBreak then readGap? tabLimit true { g with later := g.later ++ [c.char] } rest
      else readGap? tabLimit true { g with blanks := [], first := some c.char } rest
    else some (afterBreak, g, c :: rest)

/-! ### Plain scalars

What ends a plain scalar are a colon or a comment with blanks in the right places, a line that is
not indented enough, and inside of brackets also the signs of a flow collection. -/

/-- The length of the run of a plain scalar up to a blank, a break or an indicator that ends it.
Inside a flow collection a colon directly before a flow indicator is an error. -/
def plainRun? (inFlow : Bool) : List Cell → Option Nat
  | [] => some 0
  | c :: rest =>
    if isBlank c.char || isBreak c.char then some 0
    else if inFlow && c.char == ':' && [',', '?', '[', ']', '{', '}'].any (startsWith · rest) then
      none
    else if c.char == ':' && atBlankOrEnd rest then some 0
    else if inFlow && [',', '[', ']', '{', '}'].contains c.char then some 0
    else (plainRun? inFlow rest).map (· + 1)

/-- Lines of a plain scalar from a point where a run may begin. Gives the text, whether a break came
last, and what follows. -/
def plainLines? (inFlow : Bool) (indent : Nat) :
    Nat → List Char → Bool → Gap → Source → Option (List Char × Bool × Source)
  | 0, _, _, _, _ => none
  | fuel + 1, text, broken, gap, s =>
    if atDocumentMark '-' s.cells || atDocumentMark '.' s.cells || startsWith '#' s.cells then
      some (text, broken, s)
    else do
      let n ← plainRun? inFlow s.cells
      let run := (s.cells.take n).map Cell.char
      let rest : Source := ⟨s.cells.drop n, s.stop⟩
      let (text, broken, gap) :=
        if n = 0 then (text, broken, gap)
        else (text ++ (if broken then gap.folded else gap.blanks) ++ run, false, Gap.none)
      if rest.cells.isEmpty || !atBlankOrEnd rest.cells then some (text, broken, rest)
      else
        let (broken, gap, cells) ← readGap? indent broken gap rest.cells
        let rest : Source := ⟨cells, s.stop⟩
        if !inFlow && rest.mark.column < indent then some (text, broken, rest)
        else plainLines? inFlow indent fuel text broken gap rest

/-- Scans a plain scalar. The flag says whether it ended behind a line break. -/
def scanPlain? (inFlow : Bool) (indent : Nat) (s : Source) :
    Option (String × Bool × Source) := do
  let (text, broken, rest) ←
    plainLines? inFlow indent (s.cells.length + 1) [] false Gap.none s
  some (String.ofList text, broken, rest)

/-! ### Quoted scalars

Both kinds of quotes are read by the same functions. They differ in how the quote itself is written
and in whether there are escapes. -/

/-- The value of a hexadecimal digit. -/
def hexValue? (c : Char) : Option Nat :=
  if c.isDigit then some (c.toNat - '0'.toNat)
  else if 'a' ≤ c && c ≤ 'f' then some (c.toNat - 'a'.toNat + 10)
  else if 'A' ≤ c && c ≤ 'F' then some (c.toNat - 'A'.toNat + 10)
  else none

/-- The character with a code point, unless it is a surrogate or too great. -/
def charOfCode? (n : Nat) : Option Char :=
  if h : n.isValidChar then some (Char.ofNatAux n h) else none

/-- The escapes of one character after the backslash. -/
def shortEscapes : List (Char × Char) :=
  [('0', '\x00'), ('a', '\x07'), ('b', '\x08'), ('t', '\t'), ('\t', '\t'), ('n', '\n'),
    ('v', '\x0b'), ('f', '\x0c'), ('r', '\r'), ('e', '\x1b'), (' ', ' '), ('"', '"'),
    ('/', '/'), ('\\', '\\'), ('N', '\u0085'), ('_', '\u00a0'), ('L', '\u2028'),
    ('P', '\u2029')]

/-- The count of hexadecimal digits after the escapes that take a code. -/
def codeLength? (c : Char) : Option Nat :=
  match c with
  | 'x' => some 2
  | 'u' => some 4
  | 'U' => some 8
  | _ => none

/-- Reads the escape behind a backslash: the character it stands for and the cells it takes. -/
def readEscape? : List Cell → Option (Char × Nat)
  | [] => none
  | c :: rest =>
    match shortEscapes.lookup c.char with
    | some d => some (d, 1)
    | none => do
      let n ← codeLength? c.char
      let ds := (rest.take n).map Cell.char
      if ds.length < n then none
      else
        let vs ← ds.mapM hexValue?
        let d ← charOfCode? (vs.foldl (fun v d => 16 * v + d) 0)
        some (d, n + 1)

/-- The part of a quoted scalar up to a blank, a break, the closing quote or an escaped line break.
The flag says whether an escaped line break ended it; that break is taken too. -/
def quotedRun? (single : Bool) : Nat → List Char → List Cell → Option (List Char × Bool × List Cell)
  | 0, _, _ => none
  | _ + 1, text, [] => some (text, false, [])
  | fuel + 1, text, c :: rest =>
    if isBlank c.char || isBreak c.char then some (text, false, c :: rest)
    else if single then
      if c.char == '\'' then
        if startsWith '\'' rest then quotedRun? single fuel (text ++ ['\'']) (rest.drop 1)
        else some (text, false, c :: rest)
      else quotedRun? single fuel (text ++ [c.char]) rest
    else if c.char == '"' then some (text, false, c :: rest)
    else if c.char == '\\' then
      if !rest.isEmpty && atBreakOrEnd rest then some (text, true, rest.drop 1)
      else do
        let (d, n) ← readEscape? rest
        quotedRun? single fuel (text ++ [d]) (rest.drop n)
    else quotedRun? single fuel (text ++ [c.char]) rest

/-- Lines of a quoted scalar behind its opening quote. -/
def quotedLines? (single : Bool) :
    Nat → List Char → Source → Option (List Char × Source)
  | 0, _, _ => none
  | fuel + 1, text, s =>
    if atDocumentMark '-' s.cells || atDocumentMark '.' s.cells || s.cells.isEmpty then none
    else do
      let (text, escaped, cells) ← quotedRun? single (s.cells.length + 1) text s.cells
      match cells with
      | [] => none
      | c :: rest =>
        if c.char == (if single then '\'' else '"') then some (text, ⟨rest, s.stop⟩)
        else
          let (broken, gap, cells) ← readGap? 0 escaped Gap.none cells
          let between := if broken then gap.folded else gap.blanks
          quotedLines? single fuel (text ++ between) ⟨cells, s.stop⟩

/-- Scans a quoted scalar; the opening quote is the next cell. -/
def scanQuoted? (single : Bool) (s : Source) : Option (String × Source) := do
  let (text, rest) ←
    quotedLines? single (s.cells.length + 1) [] ⟨s.cells.drop 1, s.stop⟩
  some (String.ofList text, rest)

/-! ### Block scalars

There are no escapes here, and blanks at the ends of lines are kept. -/

/-- What happens to the line breaks at the end of a block scalar. -/
inductive Chomping where
  | strip
  | clip
  | keep
deriving DecidableEq

/-- Reads the header behind `|` or `>`: chomping and indentation indicators in either order. -/
def blockHeader? (cells : List Cell) : Option (Chomping × Nat × List Cell) :=
  let chomp? : List Cell → Option (Chomping × List Cell)
    | c :: rest =>
      if c.char == '+' then some (.keep, rest)
      else if c.char == '-' then some (.strip, rest)
      else none
    | [] => none
  let digit? : List Cell → Option (Nat × List Cell)
    | c :: rest => if c.char.isDigit then some (c.char.toNat - '0'.toNat, rest) else none
    | [] => none
  match chomp? cells with
  | some (chomping, rest) =>
    match digit? rest with
    | some (0, _) => none
    | some (n, rest) => some (chomping, n, rest)
    | none => some (chomping, 0, rest)
  | none =>
    match digit? cells with
    | some (0, _) => none
    | some (n, rest) =>
      match chomp? rest with
      | some (chomping, rest) => some (chomping, n, rest)
      | none => some (.clip, n, rest)
    | none => some (.clip, 0, cells)

/-- Skips blanks and a comment up to the end of the line, and the break. Anything else there is an
error. -/
def endOfLine? (cells : List Cell) : Option (List Cell) :=
  let cells := cells.dropWhile fun c => isBlank c.char
  let cells := if startsWith '#' cells then cells.dropWhile (fun c => !isBreak c.char) else cells
  if atBreakOrEnd cells then some (cells.drop 1) else none

/-- Reads empty lines and the indentation before the next line of a block scalar. With an
indentation not yet known (`none`) all spaces are taken. Gives the breaks and the greatest column
seen. -/
def blockBreaks? (indent : Option Nat) (stop : Mark) :
    List Char → Nat → List Cell → Option (List Char × Nat × List Cell)
  | breaks, widest, [] => some (breaks, Nat.max widest stop.column, [])
  | breaks, widest, c :: rest =>
    let open? := match indent with | none => true | some n => c.mark.column < n
    if open? && c.char == ' ' then blockBreaks? indent stop breaks widest rest
    else
      let widest := Nat.max widest c.mark.column
      if open? && c.char == '\t' then none
      else if isBreak c.char then blockBreaks? indent stop (breaks ++ [c.char]) widest rest
      else some (breaks, widest, c :: rest)

/-- Lines of a block scalar. `first` is the break before the line, `later` the breaks after that
one, `blank` says whether the line before began with a blank. -/
def blockLines? (fold : Bool) (indent : Nat) :
    Nat → List Char → List Char → List Char → Bool → Source →
      Option (List Char × List Char × List Char × Source)
  | 0, _, _, _, _, _ => none
  | fuel + 1, text, first, later, blank, s =>
    if s.cells.isEmpty || s.mark.column != indent then some (text, first, later, s)
    else do
      let nowBlank := !s.cells.isEmpty && atBlankOrEnd s.cells && !atBreakOrEnd s.cells
      let joint :=
        if fold && first == ['\n'] && !blank && !nowBlank then
          if later.isEmpty then [' '] else []
        else first
      let line := (s.cells.takeWhile fun c => !isBreak c.char).map Cell.char
      let cells := s.cells.dropWhile fun c => !isBreak c.char
      let first := (cells.take 1).map Cell.char
      let (breaks, _, cells) ← blockBreaks? (some indent) s.stop [] 0 (cells.drop 1)
      blockLines? fold indent fuel (text ++ joint ++ later ++ line) first breaks nowBlank
        ⟨cells, s.stop⟩

/-- Scans a block scalar; `|` or `>` is the next cell. `parent` is the indentation of the
surrounding block. -/
def scanBlock? (fold : Bool) (parent : Int) (s : Source) : Option (String × Source) := do
  let (chomping, increment, cells) ← blockHeader? (s.cells.drop 1)
  let cells ← endOfLine? cells
  let given : Option Nat :=
    if increment = 0 then none else some ((max parent 0).toNat + increment)
  let (breaks, widest, cells) ← blockBreaks? given s.stop [] 0 cells
  let indent := given.getD (max (max (widest : Int) (parent + 1)) 1).toNat
  let (text, first, later, rest) ←
    blockLines? fold indent (cells.length + 1) [] [] breaks false ⟨cells, s.stop⟩
  let tail :=
    match chomping with
    | .strip => []
    | .clip => first
    | .keep => first ++ later
  some (String.ofList (text ++ tail), rest)

end TypedPipeline.Yaml
