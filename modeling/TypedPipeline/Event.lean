import TypedPipeline.Number.Decimal
import TypedPipeline.Text.Printable

/-!
# Notes of what happens

A pipeline and its runs leave notes for people: a level, a sentence and named values.

## Implementation notes

A note is data, and how it stands in a log is a function of it. Who makes a note does not know
whether anybody reads it: notes are collected in the store, and the program writes them in the end.
Values are quoted with escapes for all characters that do not show by themselves, so a note is
always one line; a message is written as it is, apart from characters that steer a terminal.

## Main definitions

* `Event` — a note
* `Event.line`, `Event.stampedLine` — a note as a line of a log
-/

namespace TypedPipeline

/-- How important a note is. -/
inductive Level where
  | info
  | warn
  | error
deriving DecidableEq

/-- The name of a level in a log. -/
def Level.name : Level → String
  | info => "INFO"
  | warn => "WARN"
  | error => "ERROR"

/-- Which part of the library writes a note. -/
inductive Origin where
  | program
  | artifact
  | pipeline
  | runner
  | builtin
  | metrics
deriving DecidableEq

/-- The name of an origin in a log. -/
def Origin.name : Origin → String
  | program => "stagewire"
  | artifact => "stagewire::artifact"
  | pipeline => "stagewire::pipeline"
  | runner => "stagewire::runner"
  | builtin => "stagewire::components"
  | metrics => "stagewire::observability"

/-- A value of a note. Whether a text is quoted belongs to the value, as it depends on what it is
and not on where it stands. -/
inductive EventValue where
  /-- A text, which a log puts in quotes. -/
  | quoted (s : String)
  /-- A text without quotes. -/
  | plain (s : String)
  | count (n : Nat)
  | number (x : Binary64)
  /-- A list of texts in quotes. -/
  | list (l : List String)

/-- The run in which a note is written. -/
structure RunScope where
  runId : String
  pipeline : String

/-- A note. -/
structure Event where
  level : Level
  origin : Origin
  message : String
  fields : List (String × EventValue) := []
  scope : Option RunScope := none

namespace Event

/-! ### Lines of a log -/

/-- The code of a character as an escape. -/
def escapeCode (c : Char) : List Char := ['\\', 'u', '{'] ++ Nat.toDigits 16 c.toNat ++ ['}']

/-- A character of a quoted text. -/
def quoteChar (c : Char) : List Char :=
  match c with
  | '\x00' => ['\\', '0']
  | '\t' => ['\\', 't']
  | '\r' => ['\\', 'r']
  | '\n' => ['\\', 'n']
  | '"' => ['\\', '"']
  | '\\' => ['\\', '\\']
  | _ =>
    if Text.isPrintable c then [c] else escapeCode c

/-- A text in quotes. -/
def quote (s : String) : String :=
  String.ofList ('"' :: s.toList.flatMap quoteChar ++ ['"'])

/-- The style of numbers in a log: positional from `1e-4` up to `1e16`, with `.0` behind a whole
number, otherwise with an exponent. -/
def floatStyle : FloatStyle where
  window := some (-4, 15)
  pointZero := true
  exponentPlus := false
  tie := .up
  nan := "NaN"
  infinity := "inf"

/-- A value in a line of a log. -/
def valueText : EventValue → String
  | .quoted s => quote s
  | .plain s => s
  | .count n => toString n
  | .number x => floatStyle.render x
  | .list l => "[" ++ ", ".intercalate (l.map quote) ++ "]"

/-- A run in a line of a log. -/
def scopeText (s : RunScope) : String :=
  "run\x7brun_id=" ++ quote s.runId ++ " pipeline=" ++ quote s.pipeline ++ "\x7d: "

/-- A character of a message: those that steer a terminal are written as escapes. -/
def messageChar (c : Char) : List Char :=
  match c with
  | '\x07' => ['\\', 'x', '0', '7']
  | '\x08' => ['\\', 'x', '0', '8']
  | '\x0c' => ['\\', 'x', '0', 'c']
  | '\x1b' => ['\\', 'x', '1', 'b']
  | '\x7f' => ['\\', 'x', '7', 'f']
  | _ => if 0x80 ≤ c.toNat && c.toNat ≤ 0x9F then escapeCode c else [c]

/-- The message in a line of a log. -/
def messageText (s : String) : String := String.ofList (s.toList.flatMap messageChar)

/-- The note as a line of a log, from its level on. -/
def line (e : Event) : String :=
  let scope :=
    match e.scope with
    | none => ""
    | some s => scopeText s
  let fields := String.join (e.fields.map fun f => " " ++ f.1 ++ "=" ++ valueText f.2)
  e.level.name ++ " " ++ scope ++ e.origin.name ++ ": " ++ messageText e.message ++ fields

/-- A note as a line of a log that tells the time, with levels of one width. -/
def stampedLine (time : String) (e : Event) : String :=
  time ++ (if e.level.name.length < 5 then "  " else " ") ++ e.line

end Event

end TypedPipeline
