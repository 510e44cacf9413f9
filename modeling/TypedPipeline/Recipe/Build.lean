import TypedPipeline.Pipeline
import TypedPipeline.Recipe.Basic
import TypedPipeline.Recipe.Reference
import TypedPipeline.Registry

/-!
# From recipes to pipelines

All channels are made before any component is built, so that a reference may point to a later entry
of the recipe. A reference in a circle is therefore found when the pipeline is assembled.

## The order of steps

The version comes first. Then all channels are made, those of inputs and those of outputs, so that
an entry may refer to one that stands behind it. Then components are built in the order of the
recipe, and in the end the pipeline is assembled.

The first failure ends the build. Channels and artifacts that were made until then stay in the
store, where nobody knows of them. Nothing is read or written besides: whether there is something at
the location of an input is not looked at.

## Main definitions

* `Recipe.Channels`, `Recipe.Channels.resolve` — the channels of a recipe, and the one that a
  reference means
* `Recipe.build` — the pipeline of a recipe
-/

namespace TypedPipeline

namespace Recipe

/-- The channels of a recipe: those of its declared inputs, and those of the outputs of each entry,
in the order of the entries. -/
structure Channels where
  inputs : TextMap Channel := .empty
  outputs : List (String × TextMap Channel) := []

/-- The channel that a reference means. Of several entries with one name the first one counts. -/
def Channels.resolve (c : Channels) (reference : String) : Except Fault Channel :=
  match Reference.ofText? reference with
  | none => .error (.sentence (Reference.invalidText reference))
  | some (.input name) =>
    match c.inputs.find? name with
    | some channel => .ok channel
    | none => .error (.sentence s!"Unknown pipeline input '{name}'")
  | some (.output component output) =>
    match c.outputs.lookup component with
    | none => .error (.sentence s!"Unknown component '{component}'")
    | some outputs =>
      match outputs.find? output with
      | some channel => .ok channel
      | none => .error (.sentence s!"Component '{component}' has no output '{output}'")

/-! ### Steps of a build

A step that may fail is put into a circumstance, so that the report says where in the recipe the
failure belongs. -/

/-- A step inside a circumstance that a fault will tell of. -/
def within {ε α : Type} (context : String) (cause : ε → Cause) (x : StoreM ε α) : StoreM Fault α :=
  fun s =>
    match x s with
    | (.ok a, s) => (.ok a, s)
    | (.error e, s) => (.error ⟨[context], cause e⟩, s)

/-- The artifact of an input that has a location: its split names are written first, since
properties freeze with the location. -/
def inputArtifact (input : Input) (type : ArtifactType) (uri : String) :
    StoreM Fault Artifact := do
  let a ← StoreM.run' fun s => s.newArtifact type
  let context := s!"Pipeline input '{input.name}'"
  if !input.splits.isEmpty then
    if let some r ← StoreM.run' fun s => s.change a (.setSplitNames input.splits) then
      throw ⟨[context], .artifact (r.error a.id)⟩
  if let some r ← StoreM.run' fun s => s.change a (.setUri uri) then
    throw ⟨[], .artifact (r.error a.id)⟩
  pure a

/-- The channel of an input, with its artifact if there is a location. -/
def inputChannel (types : TypeRegistry) (input : Input) : StoreM Fault Channel := do
  match types.lookup? input.typeName with
  | none =>
    throw ⟨[s!"Pipeline input '{input.name}'"], .contract (.unknownType input.typeName)⟩
  | some type => do
    let artifacts ←
      match input.uri with
      | none => pure []
      | some uri => do pure [← inputArtifact input type uri]
    let c ← StoreM.run' fun s => s.newChannel type
    StoreM.update fun s => (s.bind c artifacts).mapError fun e => .of (.contract e)
    pure c

/-- The channels of the inputs, whose names have to differ. -/
def inputChannels (types : TypeRegistry) (made : TextMap Channel) :
    List Input → StoreM Fault (TextMap Channel)
  | [] => pure made
  | input :: rest => do
    let c ← inputChannel types input
    if made.contains input.name then
      throw (.sentence s!"Pipeline input '{input.name}' is declared more than once")
    inputChannels types (made.insert input.name c) rest

/-- A new channel for every declared output. -/
def outputChannels (s : Store) : List (String × ArtifactType) → TextMap Channel × Store
  | [] => (.empty, s)
  | (name, type) :: rest =>
    let (c, s) := s.newChannel type
    let (others, s) := outputChannels s rest
    (others.insert name c, s)

/-- An entry with its kind and the channels of its outputs. -/
structure Placed where
  entry : Entry
  kind : Kind
  outputs : TextMap Channel

/-- Finds the kinds of the entries and makes the channels of their outputs. -/
def place (registry : Registry) : List Entry → StoreM Fault (List Placed)
  | [] => pure []
  | entry :: rest => do
    let kind ← StoreM.ask fun _ =>
      (registry.kind entry.kind).mapError (·.within s!"Component '{entry.name}'")
    let outputs ← StoreM.run' fun s => outputChannels s kind.spec.outputs
    let others ← place registry rest
    pure (⟨entry, kind, outputs⟩ :: others)

/-- The channels for the references of an entry, field by field. -/
def wire (channels : Channels) (component : String) :
    List (String × String) → Except Fault (TextMap Channel)
  | [] => .ok .empty
  | (field, reference) :: rest => do
    let c ← (channels.resolve reference).mapError
      (·.within s!"Component '{component}' input '{field}'")
    .ok ((← wire channels component rest).insert field c)

/-- Builds the component of an entry. -/
def construct (channels : Channels) (p : Placed) : StoreM Fault Component := do
  let inputs ← StoreM.ask fun _ => wire channels p.entry.name p.entry.inputs.entries
  within s!"Failed to construct component '{p.entry.name}'" .contract (ComponentDraft.build {
    spec := p.kind.spec
    executor := p.kind.executor
    name := some p.entry.name
    inputs
    outputs := p.outputs
    parameters := p.entry.parameters })

/-- Checks the version. -/
def checkVersion (r : Recipe) : Except Fault Unit :=
  if r.version = currentVersion then .ok ()
  else .error (.sentence s!"Unsupported recipe version: {r.version}")

/-- All channels of a recipe, and its entries with their kinds. -/
def layOut (r : Recipe) (registry : Registry) : StoreM Fault (Channels × List Placed) := do
  let inputs ← inputChannels registry.types .empty r.inputs
  let placed ← place registry r.entries
  pure (⟨inputs, placed.map fun p => (p.entry.name, p.outputs)⟩, placed)

/-- The pipeline of a recipe. `rootGiven` is the root that the environment gives. -/
def build (r : Recipe) (registry : Registry) (rootGiven : Option String) :
    StoreM Fault Pipeline := do
  StoreM.ask fun _ => r.checkVersion
  let (channels, placed) ← r.layOut registry
  let components ← placed.mapM (construct channels)
  within s!"Failed to assemble pipeline '{r.name}'" .dag
    (Pipeline.assembleNoted r.name components.toArray channels.inputs.values
      (r.config.overridden rootGiven))

end Recipe

end TypedPipeline
