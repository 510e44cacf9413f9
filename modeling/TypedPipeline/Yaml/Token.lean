/-!
# Tokens of a YAML text

The text is first laid out as cells: characters with their place, where every line break is one
cell. Tokens are what the grammar of nodes is written over.

Places are counted in characters and not in bytes. Columns decide what is nested, and lines and the
number of characters decide how far a key may reach.

## Main definitions

* `Yaml.Cell`, `Yaml.Source.ofText?` — the text as cells; control characters are refused
* `Yaml.Token` — the tokens
* `Yaml.ScalarForm` — how a scalar was written
-/

namespace TypedPipeline.Yaml

/-- A place in a text: characters before it, lines before it, characters before it on its line. -/
structure Mark where
  index : Nat
  line : Nat
  column : Nat
deriving DecidableEq

/-- A character and its place. Carriage return, line feed, the two together and next line are one
cell with the line feed; the line and paragraph separators keep their character. -/
structure Cell where
  char : Char
  mark : Mark
deriving DecidableEq

/-- What is left to scan, and the place behind it. -/
structure Source where
  cells : List Cell
  stop : Mark

/-! ### Character classes

The classes are those of the tokens. Which characters may be part of a plain scalar depends on what
follows them, so it is decided where scalars are scanned. -/

/-- Whether a character may stand in a YAML text. -/
def isAllowed (c : Char) : Bool :=
  let n := c.toNat
  n == 0x9 || n == 0xA || n == 0xD || (0x20 ≤ n && n ≤ 0x7E) || n == 0x85 ||
    (0xA0 ≤ n && n ≤ 0xD7FF) || (0xE000 ≤ n && n ≤ 0xFFFD) || 0x10000 ≤ n

/-- Line breaks, after they have become one cell each. -/
def isBreak (c : Char) : Bool := c == '\n' || c == '\u2028' || c == '\u2029'

/-- Space and tab. -/
def isBlank (c : Char) : Bool := c == ' ' || c == '\t'

/-- Characters of names of anchors, tag handles and directives. -/
def isWordChar (c : Char) : Bool := c.isAlphanum || c == '_' || c == '-'

/-- Whether the next cell is a blank, a break or missing. -/
def atBlankOrEnd : List Cell → Bool
  | [] => true
  | c :: _ => isBlank c.char || isBreak c.char

/-- Whether the next cell is a break or missing. -/
def atBreakOrEnd : List Cell → Bool
  | [] => true
  | c :: _ => isBreak c.char

/-- Whether the next cell holds `c`. -/
def startsWith (c : Char) : List Cell → Bool
  | [] => false
  | d :: _ => d.char == c

/-- Whether three times `c` stands at the beginning of a line, with a blank or the end after it. -/
def atDocumentMark (c : Char) : List Cell → Bool
  | x :: y :: z :: rest =>
    x.mark.column == 0 && x.char == c && y.char == c && z.char == c && atBlankOrEnd rest
  | _ => false

/-! ### Laying out a text

Every break is one cell afterwards, so nobody else has to know that a break may have two characters.
-/

/-- Cells of the characters from a place on. -/
def layOut (m : Mark) : List Char → Source
  | [] => ⟨[], m⟩
  | '\r' :: '\n' :: rest =>
    let s := layOut ⟨m.index + 2, m.line + 1, 0⟩ rest
    ⟨⟨'\n', m⟩ :: s.cells, s.stop⟩
  | c :: rest =>
    if c == '\r' || c == '\n' || c == '\u0085' then
      let s := layOut ⟨m.index + 1, m.line + 1, 0⟩ rest
      ⟨⟨'\n', m⟩ :: s.cells, s.stop⟩
    else if isBreak c then
      let s := layOut ⟨m.index + 1, m.line + 1, 0⟩ rest
      ⟨⟨c, m⟩ :: s.cells, s.stop⟩
    else
      let s := layOut ⟨m.index + 1, m.line, m.column + 1⟩ rest
      ⟨⟨c, m⟩ :: s.cells, s.stop⟩

/-- The cells of a text, if all its characters are allowed. -/
def Source.ofText? (text : String) : Option Source :=
  let cs := text.toList
  if cs.all isAllowed then some (layOut ⟨0, 0, 0⟩ cs) else none

/-- The place of the next cell. -/
def Source.mark (s : Source) : Mark :=
  match s.cells with
  | [] => s.stop
  | c :: _ => c.mark

/-! ### Tokens

A token has no place. What a reader needs of places, that is where blocks begin and end, has become
tokens of its own. -/

/-- How a scalar was written. -/
inductive ScalarForm where
  | plain
  | singleQuoted
  | doubleQuoted
  | literal
  | folded
deriving DecidableEq, Repr

/-- The tokens of a YAML stream. -/
inductive Token where
  | versionDirective (major minor : Nat)
  | tagDirective (handle lead : String)
  | documentStart
  | documentEnd
  | blockSequenceStart
  | blockMappingStart
  | blockEnd
  | flowSequenceStart
  | flowSequenceEnd
  | flowMappingStart
  | flowMappingEnd
  | blockEntry
  | flowEntry
  | key
  | value
  | alias (name : String)
  | anchor (name : String)
  | tag (handle suffix : String)
  | scalar (text : String) (form : ScalarForm)
  | streamEnd
deriving DecidableEq, Repr

end TypedPipeline.Yaml
