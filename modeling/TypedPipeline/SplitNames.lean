import TypedPipeline.Text.Pieces

/-!
# Names of splits

An artifact may be divided into named splits. The names are kept in one property of the artifact, as
a text with commas between them; since a name has no comma and is not empty, the text determines the
list.

## Implementation notes

The empty list is written as the empty text, which would otherwise be one empty name. Reading is
total: any text stands for some list of pieces, and whether these are names is not asked. So a
property that somebody wrote by hand is read in the same way.

Names are limited to ASCII letters, digits, dashes and underscores, and do not begin with a dash or
an underscore.

## Main definitions

* `SplitNames.isName` — what may be the name of a split
* `SplitNames.encode?`, `SplitNames.decode` — the list as a text, and back
-/

namespace TypedPipeline.SplitNames

/-- The property of an artifact that holds its split names. -/
def property : String := "split_names"

/-- Whether a text may be the name of a split: a letter or digit, then letters, digits, dashes and
underscores. -/
def isName (s : String) : Bool :=
  match s.toList with
  | [] => false
  | c :: rest => c.isAlphanum && rest.all fun c => c.isAlphanum || c == '_' || c == '-'

/-- The first text of a list that cannot be the name of a split. -/
def invalid? (names : List String) : Option String := names.find? fun s => !isName s

/-- The list as one text, if all its members may be names. -/
def encode? (names : List String) : Option String :=
  if (invalid? names).isNone then
    some (String.ofList (Text.joinWith ',' (names.map String.toList)))
  else none

/-- The list that a text stands for: its pieces between commas, none for the empty text. -/
def decode (s : String) : List String := if s.isEmpty then [] else Text.splitText ',' s

end TypedPipeline.SplitNames
