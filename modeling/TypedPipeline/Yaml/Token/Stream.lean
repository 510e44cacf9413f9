import TypedPipeline.Yaml.Token.Tag

/-!
# From cells to tokens

Tokens are scanned from left to right. A node may turn out to be a mapping key only when its `:`
comes, so every place where a key may have begun is remembered, one for each open flow collection
and one for the block, and the tokens that open the mapping are put in there afterwards.

## Implementation notes

A pending key remembers how many tokens there were. If its `:` comes, the token that opens the key
is put in at that place, and the one that opens the mapping before it, if the key is deeper than the
current collection. If it does not come on the same line, or not within 1024 characters, the place
is given up. A key may be required: at the column of a mapping nothing else can stand.

Blocks are closed when a line begins to the left of them. In brackets, columns have no meaning, and
no block is opened or closed.

Each step takes the whole state and gives the next one, or fails. Which token comes is decided by
the first characters, and the order of the tests matters: a mark of a document comes before a
sequence, and a plain scalar comes last.

## Main definitions

* `Yaml.Scan` — the state between two tokens
* `Yaml.Scan.step?` — scans the next token
* `Yaml.scan?` — all tokens of a text
-/

namespace TypedPipeline.Yaml

/-- A place where a mapping key may have begun. -/
structure PendingKey where
  /-- Whether the text has to go on as a key. -/
  required : Bool
  /-- The number of tokens before the place. -/
  position : Nat
  mark : Mark

/-- The state between two tokens. -/
structure Scan where
  source : Source
  tokens : Array Token
  /-- The column of the innermost block collection, `-1` outside of all. -/
  indent : Int
  /-- The columns of the block collections around that one. -/
  outer : List Int
  /-- Whether a key may begin here without `?`. -/
  keyAllowed : Bool
  /-- The pending key of the block. -/
  blockKey : Option PendingKey
  /-- The pending keys of the open flow collections, the innermost first. -/
  flowKeys : List (Option PendingKey)

namespace Scan

/-- The state before the first token. -/
def start (source : Source) : Scan := ⟨source, #[], -1, [], true, none, []⟩

/-- Whether a flow collection is open. -/
def inFlow (s : Scan) : Bool := !s.flowKeys.isEmpty

/-- The cells ahead. -/
def cells (s : Scan) : List Cell := s.source.cells

/-- Goes on at `cells`. -/
def goto (s : Scan) (cells : List Cell) : Scan := { s with source := { s.source with cells } }

/-- Adds a token. -/
def emit (s : Scan) (t : Token) : Scan := { s with tokens := s.tokens.push t }

/-- Skips one cell and adds a token for it. -/
def take (s : Scan) (t : Token) : Scan := (s.goto (s.cells.drop 1)).emit t

/-- Sets whether a key may begin here. -/
def allowKey (s : Scan) (allowed : Bool) : Scan := { s with keyAllowed := allowed }

/-! ### Pending keys

There is one pending key for each collection in brackets, as keys of the outer ones are still open
while the inner ones are read. -/

/-- The innermost pending key. -/
def pending (s : Scan) : Option PendingKey :=
  match s.flowKeys with
  | [] => s.blockKey
  | key :: _ => key

/-- Replaces the innermost pending key. -/
def setPending (s : Scan) (key : Option PendingKey) : Scan :=
  match s.flowKeys with
  | [] => { s with blockKey := key }
  | _ :: others => { s with flowKeys := key :: others }

/-- Gives up the innermost pending key; an error if it is required. -/
def dropPending? (s : Scan) : Option Scan :=
  match s.pending with
  | some key => if key.required then none else some (s.setPending none)
  | none => some s

/-- Remembers this place as one where a key may begin. In a block a key is required at the column of
the current collection. -/
def savePending? (s : Scan) : Option Scan :=
  if s.keyAllowed then do
    let required := !s.inFlow && s.indent == (s.source.mark.column : Int)
    let s' ← s.dropPending?
    some (s'.setPending (some ⟨required, s.tokens.size, s.source.mark⟩))
  else some s

/-- Whether a key that began at `key` may still end at `here`: on the same line and within 1024
characters. -/
def PendingKey.fresh (key : PendingKey) (here : Mark) : Bool :=
  key.mark.line == here.line && here.index ≤ key.mark.index + 1024

/-- Forgets the pending keys that are too far back; an error if one is required. -/
def dropStale? (s : Scan) : Option Scan :=
  let check (key : Option PendingKey) : Option (Option PendingKey) :=
    match key with
    | none => some none
    | some k =>
      if PendingKey.fresh k s.source.mark then some (some k)
      else if k.required then none
      else some none
  do
    let blockKey ← check s.blockKey
    let flowKeys ← s.flowKeys.mapM check
    some { s with blockKey, flowKeys }

/-! ### Indentation

The columns of the open blocks grow from the outside to the inside, so those that have to be closed
are at the front of the list. -/

/-- Opens a block collection at `column` if it is deeper than the current one. The token goes to
`position`. -/
def openBlock (s : Scan) (column position : Nat) (t : Token) : Scan :=
  if !s.inFlow && s.indent < (column : Int) then
    { s with
      outer := s.indent :: s.outer
      indent := column
      tokens := s.tokens.insertIdxIfInBounds position t }
  else s

/-- Closes the block collections deeper than `column`. -/
def closeBlocks (s : Scan) (column : Int) : Scan :=
  if s.inFlow then s
  else
    let levels := s.indent :: s.outer
    let deeper := levels.takeWhile (column < ·)
    match levels.drop deeper.length with
    | [] => s
    | indent :: outer =>
      { s with
        indent
        outer
        tokens := s.tokens ++ Array.replicate deeper.length Token.blockEnd }

/-! ### Between tokens

Comments are skipped together with blanks. The sign of a comment may also be part of a plain scalar,
and then it is met while that is scanned. -/

/-- Skips blanks, comments and breaks. A tab may stand only where no block key could begin, and
behind a break a block key may begin. -/
def skipBlanks (inFlow : Bool) : (keyAllowed inComment : Bool) → List Cell → Bool × List Cell
  | keyAllowed, _, [] => (keyAllowed, [])
  | keyAllowed, inComment, c :: rest =>
    if isBreak c.char then skipBlanks inFlow (keyAllowed || !inFlow) false rest
    else if inComment then skipBlanks inFlow keyAllowed true rest
    else if c.char == ' ' || (c.char == '\t' && (inFlow || !keyAllowed)) then
      skipBlanks inFlow keyAllowed false rest
    else if c.char == '#' then skipBlanks inFlow keyAllowed true rest
    else if c.char == '\uFEFF' && c.mark.column == 0 then skipBlanks inFlow keyAllowed false rest
    else (keyAllowed, c :: rest)

/-! ### Single tokens

Each function is about one kind of token and does all that belongs to it: the tokens that it adds,
the pending key, and whether a key may begin behind it. -/

/-- A token that closes the block: nothing of it may be pending, and no key begins behind it. -/
def leaveBlocks? (s : Scan) : Option Scan := do
  let s ← (s.closeBlocks (-1)).dropPending?
  some (s.allowKey false)

/-- The end of the text. -/
def takeEnd? (s : Scan) : Option Scan := do
  let s ← s.leaveBlocks?
  some (s.emit .streamEnd)

/-- `---` or `...` at the beginning of a line. -/
def takeDocumentMark? (s : Scan) (t : Token) : Option Scan := do
  let s ← s.leaveBlocks?
  some ((s.goto (s.cells.drop 3)).emit t)

/-- A directive. -/
def takeDirective? (s : Scan) : Option Scan := do
  let s ← s.leaveBlocks?
  let (t, rest) ← scanDirective? s.cells
  some ((s.goto rest).emit t)

/-- `[` or `{`. -/
def takeFlowStart? (s : Scan) (t : Token) : Option Scan := do
  let s ← s.savePending?
  let s := { s with flowKeys := none :: s.flowKeys }
  some ((s.allowKey true).take t)

/-- `]` or `}`. -/
def takeFlowEnd? (s : Scan) (t : Token) : Option Scan := do
  let s ← s.dropPending?
  let s := { s with flowKeys := s.flowKeys.drop 1 }
  some ((s.allowKey false).take t)

/-- `,` between two entries of a flow collection. -/
def takeFlowEntry? (s : Scan) : Option Scan := do
  let s ← s.dropPending?
  some ((s.allowKey true).take .flowEntry)

/-- In a block, opens a collection for the indicator ahead; an error where no key may begin. -/
def openForIndicator? (s : Scan) (t : Token) : Option Scan :=
  if s.inFlow then some s
  else if s.keyAllowed then some (s.openBlock s.source.mark.column s.tokens.size t)
  else none

/-- `-` before an entry of a block sequence. -/
def takeBlockEntry? (s : Scan) : Option Scan := do
  let s ← s.openForIndicator? .blockSequenceStart
  let s ← s.dropPending?
  some ((s.allowKey true).take .blockEntry)

/-- `?` before a key. -/
def takeKey? (s : Scan) : Option Scan := do
  let s ← s.openForIndicator? .blockMappingStart
  let s ← s.dropPending?
  some ((s.allowKey !s.inFlow).take .key)

/-- `:` before a value. With a key pending, the tokens that open the key go to its place. -/
def takeValue? (s : Scan) : Option Scan :=
  match s.pending with
  | some key =>
    let s := { s with tokens := s.tokens.insertIdxIfInBounds key.position .key }
    let s := s.openBlock key.mark.column key.position .blockMappingStart
    some (((s.setPending none).allowKey false).take .value)
  | none => do
    let s ← s.openForIndicator? .blockMappingStart
    some ((s.allowKey !s.inFlow).take .value)

/-- `*` or `&` and a name. -/
def takeName? (s : Scan) (t : String → Token) : Option Scan := do
  let s ← s.savePending?
  let (name, rest) ← scanName? (s.cells.drop 1)
  some (((s.allowKey false).goto rest).emit (t name))

/-- A tag. -/
def takeTag? (s : Scan) : Option Scan := do
  let s ← s.savePending?
  let (t, rest) ← scanTag? s.inFlow s.cells
  some (((s.allowKey false).goto rest).emit t)

/-- A literal or folded scalar. -/
def takeBlockScalar? (s : Scan) (fold : Bool) : Option Scan := do
  let s ← s.dropPending?
  let (text, rest) ← scanBlock? fold s.indent s.source
  let s := { (s.allowKey true) with source := rest }
  some (s.emit (.scalar text (if fold then .folded else .literal)))

/-- A scalar in quotes. -/
def takeQuoted? (s : Scan) (single : Bool) : Option Scan := do
  let s ← s.savePending?
  let (text, rest) ← scanQuoted? single s.source
  let s := { (s.allowKey false) with source := rest }
  some (s.emit (.scalar text (if single then .singleQuoted else .doubleQuoted)))

/-- A plain scalar. If it ended behind a line break, a key may begin there. -/
def takePlain? (s : Scan) : Option Scan := do
  let s ← s.savePending?
  let (text, broken, rest) ← scanPlain? s.inFlow (s.indent + 1).toNat s.source
  let s := { (s.allowKey broken) with source := rest }
  some (s.emit (.scalar text .plain))

/-- The characters that do not begin a plain scalar by themselves. -/
def indicators : List Char :=
  ['-', '?', ':', ',', '[', ']', '{', '}', '#', '&', '*', '!', '|', '>', '\'', '"', '%', '@',
    '\x60']

/-- Whether a plain scalar begins here. -/
def beginsPlain (inFlow : Bool) : List Cell → Bool
  | [] => false
  | c :: rest =>
    let blankOrEnd := isBlank c.char || isBreak c.char
    let blankNext := match rest with | [] => false | d :: _ => isBlank d.char
    (!blankOrEnd && !indicators.contains c.char) ||
      (c.char == '-' && !blankNext) ||
      (!inFlow && (c.char == '?' || c.char == ':') && !atBlankOrEnd rest)

/-- The token that begins with `c`, which `rest` follows. -/
def takeToken? (s : Scan) (c : Cell) (rest : List Cell) : Option Scan :=
  let spaced := s.inFlow || atBlankOrEnd rest
  if c.mark.column == 0 && c.char == '%' then s.takeDirective?
  else if atDocumentMark '-' s.cells then s.takeDocumentMark? .documentStart
  else if atDocumentMark '.' s.cells then s.takeDocumentMark? .documentEnd
  else if c.char == '[' then s.takeFlowStart? .flowSequenceStart
  else if c.char == '{' then s.takeFlowStart? .flowMappingStart
  else if c.char == ']' then s.takeFlowEnd? .flowSequenceEnd
  else if c.char == '}' then s.takeFlowEnd? .flowMappingEnd
  else if c.char == ',' then s.takeFlowEntry?
  else if c.char == '-' && atBlankOrEnd rest then s.takeBlockEntry?
  else if c.char == '?' && spaced then s.takeKey?
  else if c.char == ':' && spaced then s.takeValue?
  else if c.char == '*' then s.takeName? .alias
  else if c.char == '&' then s.takeName? .anchor
  else if c.char == '!' then s.takeTag?
  else if c.char == '|' && !s.inFlow then s.takeBlockScalar? false
  else if c.char == '>' && !s.inFlow then s.takeBlockScalar? true
  else if c.char == '\'' then s.takeQuoted? true
  else if c.char == '"' then s.takeQuoted? false
  else if beginsPlain s.inFlow s.cells then s.takePlain?
  else none

/-- Skips to the next token and takes it. The flag says whether it was the last one. -/
def step? (s : Scan) : Option (Bool × Scan) := do
  let (keyAllowed, cells) := skipBlanks s.inFlow s.keyAllowed false s.cells
  let s ← ((s.allowKey keyAllowed).goto cells).dropStale?
  let s := s.closeBlocks s.source.mark.column
  match s.cells with
  | [] => do
    let s ← s.takeEnd?
    some (true, s)
  | c :: rest => do
    let s ← s.takeToken? c rest
    some (false, s)

/-- Takes tokens to the end; every token but the last takes a cell. -/
def run? : Nat → Scan → Option (Array Token)
  | 0, _ => none
  | fuel + 1, s => do
    let (last, s) ← s.step?
    if last then some s.tokens else run? fuel s

end Scan

/-- The tokens of a text, if it has no fault. -/
def scan? (text : String) : Option (Array Token) := do
  let source ← Source.ofText? text
  Scan.run? (source.cells.length + 1) (Scan.start source)

end TypedPipeline.Yaml
