import TypedPipeline.Executor
import TypedPipeline.Spec

/-!
# Components

A component is an instance of a kind: it has a name, it is wired to channels, and its parameters
have their declared types. Only `Component.build` makes one, after all checks have passed.

## Implementation notes

A draft is what a caller has put together so far, with nothing checked. Building it makes channels
for the outputs that have none, and only then are channels and parameters checked against the
contract; so channels that were made for a build that fails are left over. They have numbers and
nothing else, and no caller is given them.

Output channels are claimed at the end, when every check has passed. Before that it is looked
whether one of them has a producer already, and whether two outputs have been given one channel.
After these two checks no claim can fail, which is why a component either claims all its outputs or
none.

Parameters are kept in their declared types, so an executor finds a float where a float is declared.

## Main definitions

* `Component`, `ComponentDraft`
* `ComponentDraft.build` — the checks, and the claim on the output channels
-/

namespace TypedPipeline

/-- Whether a text may be the name of a component: letters, digits, underscores and dashes, at least
one. -/
def isComponentName (name : String) : Bool :=
  !name.isEmpty && name.toList.all fun c => c.isAlphanum || c == '_' || c == '-'

/-- A component. Its outputs are exactly those of its contract, and the same holds of its inputs and
parameters; this is ensured by `build` and not by the type. -/
structure Component where
  name : String
  spec : Spec
  executor : Executor
  inputs : TextMap Channel
  outputs : TextMap Channel
  parameters : Parameters

/-- What a component is built from. -/
structure ComponentDraft where
  spec : Spec
  executor : Executor
  /-- The name, the kind if absent. -/
  name : Option String := none
  inputs : TextMap Channel := .empty
  /-- Channels for outputs; the others get new ones. -/
  outputs : TextMap Channel := .empty
  parameters : Parameters := .empty

namespace ComponentDraft

/-- The outputs with a new channel for every declared output that has none. The given channels are
not looked at. -/
def fillOutputs (s : Store) (outputs : TextMap Channel) :
    List (String × ArtifactType) → TextMap Channel × Store
  | [] => (outputs, s)
  | (name, type) :: rest =>
    if outputs.contains name then fillOutputs s outputs rest
    else
      let (c, s) := s.newChannel type
      fillOutputs s (outputs.insert name c) rest

/-- The first output channel that has a producer already. -/
def produced? (s : Store) : List (String × Channel) → Option ContractError
  | [] => none
  | (_, c) :: rest =>
    match (s.channel c).producer with
    | some p => some (.channelAlreadyProduced c.id p)
    | none => produced? s rest

/-- The first output whose channel is that of an output before it. The producer that is named is the
component that is being built. -/
def shared? (component : String) (seen : List ChannelId) :
    List (String × Channel) → Option ContractError
  | [] => none
  | (output, c) :: rest =>
    if seen.contains c.id then some (.channelAlreadyProduced c.id ⟨component, output⟩)
    else shared? component (c.id :: seen) rest

/-- Names the component as the producer of its output channels. -/
def claimAll (component : String) : List (String × Channel) → StoreM ContractError Unit
  | [] => pure ()
  | (output, c) :: rest => do
    StoreM.update fun s => s.claim c ⟨component, output⟩
    claimAll component rest

/-- Builds a component. New channels are made before the checks, and are claimed only when all
checks have passed. -/
def build (d : ComponentDraft) : StoreM ContractError Component := do
  let name := d.name.getD d.spec.kind
  if !isComponentName name then throw (.invalidComponentName name)
  let outputs ← StoreM.run' fun s => fillOutputs s d.outputs d.spec.outputs
  let parameters ← StoreM.ask fun _ => d.spec.validate (some name) d.inputs outputs d.parameters
  if let some e := produced? (← get) outputs.entries then throw e
  if let some e := shared? name [] outputs.entries then throw e
  claimAll name outputs.entries
  pure ⟨name, d.spec, d.executor, d.inputs, outputs, parameters⟩

end ComponentDraft

end TypedPipeline
