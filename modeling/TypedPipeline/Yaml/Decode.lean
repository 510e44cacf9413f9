import TypedPipeline.Yaml.Literal
import TypedPipeline.Yaml.Node

/-!
# Decoding documents

A decoder knows what it expects at a node. A scalar's text is taken as it stands where a text is
expected; elsewhere its form and its tag decide what it means. An alias stands for its node, and the
aliases that one document may follow are limited.

## Implementation notes

A decoder does not say what is wrong: it gives a value or nothing. Whoever reads a file tells of the
path and of the shape that was expected.

An alias is followed where a value is looked at, so a node behind several aliases is decoded several
times. A short text may stand for a very large value in this way. The number of aliases that are
followed is therefore limited, in proportion to the number of events of the document.

A field that is known may occur once. Where names are free, as in a map of parameters, decoders get
all of them in the order of the text and decide for themselves what a second one means.

## Main definitions

* `Yaml.Decode` — a decoder's result: a value, or nothing if the document has another shape
* `Yaml.decode?` — decodes a text
-/

namespace TypedPipeline.Yaml

/-- Decoding inside a document, with the number of aliases that may still be followed. -/
abbrev Decode := ReaderT Document (StateT Nat Option)

namespace Decode

/-- The document has not the expected shape. -/
def refuse {α : Type} : Decode α := fun _ _ => none

/-- The node that `n` stands for. -/
def follow (n : Node) : Decode Node :=
  match n with
  | .alias anchor => do
    let left ← get
    if left = 0 then refuse
    else
      set (left - 1)
      match (← read).anchored.lookup anchor with
      | some target => pure target
      | none => refuse
  | _ => pure n

/-! ### Scalars

What a text means depends on who asks. A decoder of texts takes `12` as a text and one of numbers as
a number, and only a scalar of unknown type is looked at for its meaning. -/

/-- The lead of the tags of the core types. -/
def coreTag (name : String) : String := "tag:yaml.org,2002:" ++ name

/-- What a scalar stands for; nothing if its text does not fit its tag. A tag of one's own is not
known here. -/
def meaning? (tag : Option String) (form : ScalarForm) (text : String) : Option Literal :=
  match tag with
  | none => some (if form == .plain then .ofText text else .text)
  | some tag =>
    if tag == coreTag "bool" then (readBoolean? text).map .boolean
    else if tag == coreTag "int" then readInteger? text.toList
    else if tag == coreTag "float" then (readFloat? text.toList).map .float
    else if tag == coreTag "null" then if isNull text then some .null else none
    else if tag.startsWith "!" then none
    else some .text

/-- The text of a scalar, whatever its form and its tag. -/
def text (n : Node) : Decode String := do
  match ← follow n with
  | .scalar _ _ _ text => pure text
  | _ => refuse

/-- A value that may be null. -/
def optional {α : Type} (value : Node → Decode α) (n : Node) : Decode (Option α) := do
  let n ← follow n
  match n with
  | .scalar _ none .plain text =>
    if text.isEmpty || isNull text then pure none else some <$> value n
  | .scalar _ (some tag) .plain text =>
    if tag == coreTag "null" then if isNull text then pure none else refuse
    else some <$> value n
  | _ => some <$> value n

/-- A natural below `2 ^ 32`: a plain scalar, or a literal one tagged as an integer. -/
def natural32 (n : Node) : Decode Nat := do
  match ← follow n with
  | .scalar _ tag form text =>
    let allowed := form == .plain || (form == .literal && tag == some (coreTag "int"))
    match readUnsigned? (2 ^ 32 - 1) text.toList with
    | some n => if allowed then pure n else refuse
    | none => refuse
  | _ => refuse

/-- One of several names. The name is the text of a scalar, or the tag of a null. -/
def choice {α : Type} (names : List (String × α)) (n : Node) : Decode α := do
  let pick (name : String) : Decode α :=
    match names.lookup name with
    | some value => pure value
    | none => refuse
  match ← follow n with
  | .scalar _ (some tag) form text =>
    if tag.startsWith "!" then
      if form == .plain && (text.isEmpty || isNull text) then
        pick (String.ofList (tag.toList.drop 1))
      else refuse
    else pick text
  | .scalar _ none _ text => pick text
  | _ => refuse

/-! ### Collections

Where nothing is written behind a key, an empty collection is meant. A text of null is no
collection. -/

/-- The items of a sequence; nothing written stands for no item. -/
def items (n : Node) : Decode (List Node) := do
  match ← follow n with
  | .sequence _ items => pure items
  | .scalar _ _ .plain "" => pure []
  | _ => refuse

/-- The entries of a mapping; nothing written stands for no entry. -/
def entries (n : Node) : Decode (List (Node × Node)) := do
  match ← follow n with
  | .mapping _ entries => pure entries
  | .scalar _ _ .plain "" => pure []
  | _ => refuse

/-- A list of values. -/
def list {α : Type} (value : Node → Decode α) (n : Node) : Decode (List α) := do
  (← items n).mapM value

/-- Named values, in the order of the text. -/
def named {α : Type} (value : Node → Decode α) (n : Node) : Decode (List (String × α)) := do
  (← entries n).mapM fun (k, v) => do
    let key ← text k
    pure (key, ← value v)

/-- Reads a record field by field: `step` takes in a field it knows, and answers nothing for any
other. A known field may come once only; unknown fields are not looked at. -/
def fields {ρ : Type} (known : List String) (step : ρ → String → Node → Decode ρ) (start : ρ)
    (n : Node) : Decode ρ := do
  let rec go : List String → ρ → List (Node × Node) → Decode ρ
    | _, r, [] => pure r
    | seen, r, (k, v) :: rest => do
      let key ← text k
      if !known.contains key then go seen r rest
      else if seen.contains key then refuse
      else go (key :: seen) (← step r key v) rest
  go [] start (← entries n)

/-- A field that has to be there. -/
def need {α : Type} : Option α → Decode α
  | some value => pure value
  | none => refuse

end Decode

/-- Decodes a document. A text without a document counts as the blank node. -/
def Document.decode? {α : Type} (d : Document) (value : Node → Decode α) : Option α :=
  (value (d.root.getD .blank) d d.aliasLimit).map (·.1)

/-- Decodes a text. -/
def decode? {α : Type} (value : Node → Decode α) (text : String) : Option α := do
  let d ← Document.read? text
  d.decode? value

end TypedPipeline.Yaml
