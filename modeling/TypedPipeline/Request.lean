import TypedPipeline.Component

/-!
# Requests

To run a component means three steps. It is prepared: its inputs are looked up in the bindings of
the run, and every output gets a new artifact with a staging location of its own. Its executor is
invoked and has to leave a location in every output. Then its outputs are published into the
bindings, where later components find them.

## Implementation notes

A request holds what an executor is handed and where its results go. It is a value of its own, so
that the three steps can be taken apart: a caller may prepare a component, look at the artifacts and
publish by hand.

Preparing comes to a failure before any artifact is made. So a component whose inputs are not there
leaves no placeholders behind. An invocation, in contrast, may fail after the executor has changed
artifacts; what it has done to them stays.

An input is readable if there is at least one artifact and every one of them has a location. Whether
there is anything at the location is for the executor to find out.

## Main definitions

* `Request` — a prepared component
* `Component.prepare`, `Request.invoke`, `Request.publish` — the three steps
-/

namespace TypedPipeline

/-- One execution of a component with its artifacts. -/
structure Request where
  component : String
  runId : String
  inputs : TextMap (List Artifact)
  outputs : TextMap (List Artifact)
  parameters : Parameters
  /-- The channels into which the outputs are published. -/
  targets : TextMap Channel

namespace Component

/-- Whether the artifacts can be read: there is one at least, and all have a location. -/
def readable (s : Store) (artifacts : List Artifact) : Bool :=
  !artifacts.isEmpty && artifacts.all fun a => (s.artifact a).populated

/-- The first input field whose channel has nothing that can be read. -/
def unpopulated? (s : Store) (b : Bindings) : List (String × Channel) → Option String
  | [] => none
  | (field, c) :: rest =>
    if readable s (b.artifacts c) then unpopulated? s b rest else some field

/-- The staging location of an output in a run: the root without slashes at its end, and behind it
the names of component and output and the id of the run. -/
def stagingUri (root component output runId : String) : String :=
  s!"{Store.withoutSlashes root}/{component}/{output}/{runId}"

/-- A new artifact for every output, with its staging location. -/
def placeholders (root component runId : String) (s : Store) :
    List (String × Channel) → TextMap (List Artifact) × Store
  | [] => (.empty, s)
  | (output, c) :: rest =>
    let (a, s) := s.newArtifact c.type (some (stagingUri root component output runId))
    let (others, s) := placeholders root component runId s rest
    (others.insert output [a], s)

/-- Prepares a component for a run. -/
def prepare (c : Component) (runId root : String) (b : Bindings) :
    StoreM ExecutionError Request := do
  if let some field := unpopulated? (← get) b c.inputs.entries then
    throw (.unpopulatedInput c.name field)
  let outputs ← StoreM.run' fun s => placeholders root c.name runId s c.outputs.entries
  pure {
    component := c.name
    runId
    inputs := c.inputs.map fun _ channel => b.artifacts channel
    outputs
    parameters := c.parameters
    targets := c.outputs }

end Component

namespace Request

/-- The artifacts of a request. -/
def handed (r : Request) : Work.Handed := ⟨r.inputs, r.outputs⟩

/-- The first output that has an artifact without location. -/
def incomplete? (r : Request) (s : Store) : Option String :=
  (r.outputs.entries.find? fun e => e.2.any fun a => !(s.artifact a).populated).map Prod.fst

/-- Invokes an executor, which has to leave a location in every output. Its own failure comes before
the question whether an output is complete. -/
def invoke {m : Type → Type} [Monad m] (host : Host m) (r : Request) (executor : Executor) :
    StateT Store m (Except ExecutionError Unit) := do
  match ← (executor r.handed.offer r.parameters).run host r.handed with
  | .error e => pure (.error e)
  | .ok () =>
    match r.incomplete? (← get) with
    | some output => pure (.error (.incompleteOutput r.component output))
    | none => pure (.ok ())

/-- Binds the outputs to their channels, one after the other. -/
def publishAll (outputs : TextMap (List Artifact)) (b : Bindings) :
    List (String × Channel) → Bindings × Except ContractError Unit
  | [] => (b, .ok ())
  | (output, c) :: rest =>
    match b.bind c ((outputs.find? output).getD []) with
    | .ok b => publishAll outputs b rest
    | .error e => (b, .error e)

/-- Publishes the outputs. What was bound before a failure stays bound. -/
def publish (r : Request) (b : Bindings) : Bindings × Except ContractError Unit :=
  publishAll r.outputs b r.targets.entries

/-- The locations of the outputs. -/
def outputUris (r : Request) (s : Store) : TextMap (List String) :=
  r.outputs.map fun _ l => l.filterMap fun a => (s.artifact a).uri

/-- The records of the outputs. -/
def outputRecords (r : Request) (s : Store) : TextMap (List ArtifactRecord) :=
  r.outputs.map fun _ l => l.map s.record

end Request

end TypedPipeline
