import TypedPipeline.Json
import TypedPipeline.Pipeline
import TypedPipeline.Recipe.Basic
import TypedPipeline.Timestamp
import TypedPipeline.Yaml.Print

/-!
# Plans

A plan tells another scheduler how to run a pipeline: the components in their order, the channels
between them, and the layers that may run side by side. Digests of contract and parameters show
whether a plan still fits the code that runs it.

## Content

A plan has names and texts only. Channels are written as texts, producers as the name of a component
and of its output. Parameters are written out, since another scheduler has to hand them over, and
digested, since it may want to compare them.

Fields that would be empty are left out of the text in two cases, the producer of a channel and the
list of sources, and may be missing when it is read. All others have to be there. Unknown fields are
passed over.

A plan shows the state of the store at one time: the locations of the declared inputs are those that
were known when it was made.

## Main definitions

* `Plan`, `Pipeline.plan` — the plan of a pipeline
* `Plan.yaml`, `Plan.ofYaml?` — its text, and back
* `Component.digested`, `Component.parametersHash` — the text of kind and parameters and its digest
-/

namespace TypedPipeline

/-- A declared input in a plan. -/
structure Plan.Input where
  channel : String
  typeName : String
  uris : List String

/-- A channel of a component in a plan. -/
structure Plan.Wire where
  channel : String
  typeName : String
  producer : Option String := none

/-- A component in a plan. -/
structure Plan.Stage where
  name : String
  kind : String
  fingerprint : String
  parametersHash : String
  /-- The components from which it reads. -/
  sources : List String
  inputs : TextMap Plan.Wire
  outputs : TextMap Plan.Wire
  parameters : Parameters

/-- A plan. -/
structure Plan where
  pipeline : String
  generatedAt : Timestamp
  root : String
  mode : ExecutionMode
  inputs : List Plan.Input
  stages : List Plan.Stage
  layers : List (List String)

/-! ### Making a plan

The components are listed in the order of execution and numbered by nothing else. Layers have only
their names. -/

/-- The text of a kind and its parameters that is digested: the kind, and the parameters as JSON. -/
def digestedParameters (kind : String) (parameters : Parameters) : String :=
  kind ++ Json.compact (.ofParameters parameters)

namespace Component

/-- The text of kind and parameters that is digested. -/
def digested (c : Component) : String := digestedParameters c.spec.kind c.parameters

/-- The digest of kind and parameters. -/
def parametersHash (c : Component) : String := Sha256.ofText c.digested

end Component

namespace Pipeline

/-- A channel of a component in a plan. -/
def planWire (s : Store) (c : Channel) : Plan.Wire :=
  ⟨c.id.text, c.type.name, (s.channel c).producer.map Producer.text⟩

/-- A declared input in a plan. -/
def planInput (s : Store) (c : Channel) : Plan.Input :=
  ⟨c.id.text, c.type.name, (s.channel c).held.filterMap fun a => (s.artifact a).uri⟩

/-- A component in a plan. -/
def planStage (p : Pipeline) (s : Store) (v : Fin p.components.size) : Plan.Stage :=
  let c := p.componentAt v
  { name := c.name
    kind := c.spec.kind
    fingerprint := c.spec.fingerprint
    parametersHash := c.parametersHash
    sources := p.sources v
    inputs := c.inputs.map fun _ channel => planWire s channel
    outputs := c.outputs.map fun _ channel => planWire s channel
    parameters := c.parameters }

/-- The plan of a pipeline. -/
def plan (p : Pipeline) (s : Store) (generatedAt : Timestamp) : Plan where
  pipeline := p.name
  generatedAt
  root := p.config.root
  mode := p.config.mode
  inputs := p.inputs.map (planInput s)
  stages := p.order.map (p.planStage s)
  layers := p.layers.map Prod.snd

end Pipeline

namespace Plan

/-! ### Writing

A plan is turned into plain data, and this into YAML. The order of fields is fixed here. -/

/-- A channel as plain data; a producer that is absent is left out. -/
def Wire.datum (w : Wire) : Datum :=
  let producer :=
    match w.producer with
    | none => []
    | some p => [("producer", Datum.string p)]
  .object ([("channel", .string w.channel), ("type_name", .string w.typeName)] ++ producer)

/-- A declared input as plain data. -/
def Input.datum (i : Input) : Datum :=
  .object [("channel", .string i.channel), ("type_name", .string i.typeName),
    ("uris", .ofTexts i.uris)]

/-- A component as plain data; an empty list of sources is left out. -/
def Stage.datum (t : Stage) : Datum :=
  let sources := if t.sources.isEmpty then [] else [("upstream", Datum.ofTexts t.sources)]
  .object ([("name", .string t.name), ("kind", .string t.kind),
    ("spec_fingerprint", .string t.fingerprint), ("params_hash", .string t.parametersHash)] ++
    sources ++
    [("inputs", .ofMap Wire.datum t.inputs), ("outputs", .ofMap Wire.datum t.outputs),
      ("parameters", .ofParameters t.parameters)])

/-- A plan as plain data. -/
def datum (p : Plan) : Datum :=
  .object [("pipeline", .string p.pipeline), ("generated_at", .string p.generatedAt.text),
    ("pipeline_root", .string p.root), ("execution_mode", .string p.mode.name),
    ("inputs", .array (p.inputs.map Input.datum)),
    ("components", .array (p.stages.map Stage.datum)),
    ("layers", .array (p.layers.map .ofTexts))]

/-- The text of a plan. -/
def yaml (p : Plan) : String := Yaml.render p.datum

/-! ### Reading

Each record is first taken apart into fields, and then put together again from those that have to be
there. -/

open Yaml (Node Decode)

/-- The fields of a record as far as they are read, as nodes. -/
abbrev Nodes := TextMap Node

/-- Reads the fields of a record. -/
def nodes (known : List String) (n : Node) : Decode Nodes :=
  Decode.fields known (fun (m : Nodes) field value => pure (m.insert field value)) .empty n

/-- Decodes a field that has to be there. -/
def field {α : Type} (m : Nodes) (name : String) (value : Node → Decode α) : Decode α := do
  value (← Decode.need (m.find? name))

/-- Decodes a map. -/
def decodeMap {α : Type} (value : Node → Decode α) (n : Node) : Decode (TextMap α) := do
  pure (.ofList (← Decode.named value n))

/-- Decodes a channel. -/
def decodeWire (n : Node) : Decode Wire := do
  let m ← nodes ["channel", "type_name", "producer"] n
  let producer ←
    match m.find? "producer" with
    | none => pure none
    | some p => Decode.optional Decode.text p
  pure ⟨← field m "channel" Decode.text, ← field m "type_name" Decode.text, producer⟩

/-- Decodes a declared input. -/
def decodeInput (n : Node) : Decode Input := do
  let m ← nodes ["channel", "type_name", "uris"] n
  pure ⟨← field m "channel" Decode.text, ← field m "type_name" Decode.text,
    ← field m "uris" (Decode.list Decode.text)⟩

/-- Decodes a component. -/
def decodeStage (n : Node) : Decode Stage := do
  let m ← nodes ["name", "kind", "spec_fingerprint", "params_hash", "upstream", "inputs",
    "outputs", "parameters"] n
  let sources ←
    match m.find? "upstream" with
    | none => pure []
    | some u => Decode.list Decode.text u
  pure {
    name := ← field m "name" Decode.text
    kind := ← field m "kind" Decode.text
    fingerprint := ← field m "spec_fingerprint" Decode.text
    parametersHash := ← field m "params_hash" Decode.text
    sources
    inputs := ← field m "inputs" (decodeMap decodeWire)
    outputs := ← field m "outputs" (decodeMap decodeWire)
    parameters := ← field m "parameters" Recipe.decodeParameters }

/-- Decodes a moment. -/
def decodeTime (n : Node) : Decode Timestamp := do
  Decode.need (Timestamp.ofText? (← Decode.text n))

/-- Decodes a plan. -/
def decode (n : Node) : Decode Plan := do
  let m ← nodes ["pipeline", "generated_at", "pipeline_root", "execution_mode", "inputs",
    "components", "layers"] n
  pure {
    pipeline := ← field m "pipeline" Decode.text
    generatedAt := ← field m "generated_at" decodeTime
    root := ← field m "pipeline_root" Decode.text
    mode := ← field m "execution_mode" (Decode.choice ExecutionMode.names)
    inputs := ← field m "inputs" (Decode.list decodeInput)
    stages := ← field m "components" (Decode.list decodeStage)
    layers := ← field m "layers" (Decode.list (Decode.list Decode.text)) }

/-- The plan that a text describes. -/
def ofYaml? (text : String) : Option Plan := Yaml.decode? decode text

end Plan

end TypedPipeline
