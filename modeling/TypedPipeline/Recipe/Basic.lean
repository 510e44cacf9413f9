import TypedPipeline.Config
import TypedPipeline.Scalar

/-!
# Recipes

A recipe describes a pipeline: its declared inputs, and its components with the channels they read
and their parameters. It is written in YAML.

Decoding asks for the shape of a recipe and nothing more. Names may be empty or occur twice, kinds
and types may be unknown, and the version may be any number. All this is found out later, when a
recipe is validated or built, so that a report can name every problem.

Inputs and entries are kept in the order of the text. References and parameters are kept by field,
in the order of the fields, so the order in which they are written has no meaning.

## Main definitions

* `Recipe`, `Recipe.Input`, `Recipe.Entry`
* `Recipe.ofYaml?` — the recipe that a text describes
-/

namespace TypedPipeline

/-- A declared input of a pipeline, with the location of an artifact if there is one already. -/
structure Recipe.Input where
  name : String
  typeName : String
  uri : Option String := none
  splits : List String := []

/-- A component of a recipe. -/
structure Recipe.Entry where
  name : String
  kind : String
  /-- The reference for each input field. -/
  inputs : TextMap String := .empty
  parameters : Parameters := .empty

/-- The description of a pipeline. -/
structure Recipe where
  version : Nat
  name : String
  config : PipelineConfig := {}
  inputs : List Recipe.Input := []
  entries : List Recipe.Entry := []

namespace Recipe

/-- The version of recipes that is known here. -/
def currentVersion : Nat := 1

/-! ### Decoding

Each record is read into one in which every field may be missing, and the fields that have to be
there are asked for at the end. -/

open Yaml (Node Decode)

/-- Decodes a scalar. An integer beyond the range of integers becomes a float if it still fits into
64 bits without a sign, and is refused otherwise. Null is no scalar of a recipe. -/
def decodeScalar (n : Node) : Decode Scalar := do
  match ← Decode.follow n with
  | .scalar _ tag form text =>
    match Decode.meaning? tag form text with
    | some (.boolean b) => pure (.boolean b)
    | some (.integer n) =>
      if n < 2 ^ 63 then pure (.integer (Int64.ofInt n)) else pure (.float (.ofInt n))
    | some (.float x) => pure (.float x)
    | some .text => pure (.string text)
    | some .null => Decode.refuse
    | some (.wideInteger _) => Decode.refuse
    | none => Decode.refuse
  | _ => Decode.refuse

/-- Decodes named scalars. Of two with one name the later one counts. -/
def decodeParameters (n : Node) : Decode Parameters := do
  pure (.ofList (← Decode.named decodeScalar n))

/-- The fields of an input as far as they are read. -/
structure InputFields where
  name : Option String := none
  typeName : Option String := none
  uri : Option String := none
  splits : List String := []

/-- Decodes an input. -/
def decodeInput (n : Node) : Decode Input := do
  let f ← Decode.fields ["name", "type", "uri", "splits"]
    (fun (f : InputFields) field value => do
      if field == "name" then pure { f with name := some (← Decode.text value) }
      else if field == "type" then pure { f with typeName := some (← Decode.text value) }
      else if field == "uri" then pure { f with uri := ← Decode.optional Decode.text value }
      else pure { f with splits := ← Decode.list Decode.text value })
    {} n
  pure ⟨← Decode.need f.name, ← Decode.need f.typeName, f.uri, f.splits⟩

/-- The fields of an entry as far as they are read. -/
structure EntryFields where
  name : Option String := none
  kind : Option String := none
  inputs : TextMap String := .empty
  parameters : Parameters := .empty

/-- Decodes an entry. -/
def decodeEntry (n : Node) : Decode Entry := do
  let f ← Decode.fields ["name", "kind", "inputs", "params"]
    (fun (f : EntryFields) field value => do
      if field == "name" then pure { f with name := some (← Decode.text value) }
      else if field == "kind" then pure { f with kind := some (← Decode.text value) }
      else if field == "inputs" then
        pure { f with inputs := .ofList (← Decode.named Decode.text value) }
      else pure { f with parameters := ← decodeParameters value })
    {} n
  pure ⟨← Decode.need f.name, ← Decode.need f.kind, f.inputs, f.parameters⟩

/-- The fields of a recipe as far as they are read. -/
structure Fields where
  version : Option Nat := none
  name : Option String := none
  config : PipelineConfig := {}
  inputs : List Input := []
  entries : List Entry := []

/-- Decodes a recipe. -/
def decode (n : Node) : Decode Recipe := do
  let f ← Decode.fields ["version", "name", "config", "inputs", "components"]
    (fun (f : Fields) field value => do
      if field == "version" then pure { f with version := some (← Decode.natural32 value) }
      else if field == "name" then pure { f with name := some (← Decode.text value) }
      else if field == "config" then pure { f with config := ← PipelineConfig.decode value }
      else if field == "inputs" then pure { f with inputs := ← Decode.list decodeInput value }
      else pure { f with entries := ← Decode.list decodeEntry value })
    {} n
  pure ⟨← Decode.need f.version, ← Decode.need f.name, f.config, f.inputs, f.entries⟩

/-- The recipe that a text describes. -/
def ofYaml? (text : String) : Option Recipe := Yaml.decode? decode text

/-- The scalars that a text names. -/
def parametersOfYaml? (text : String) : Option Parameters := Yaml.decode? decodeParameters text

end Recipe

end TypedPipeline
