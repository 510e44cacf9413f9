import TypedPipeline.Component
import TypedPipeline.Config
import TypedPipeline.Graph.Cycle
import TypedPipeline.Graph.Layers

/-!
# Pipelines

A pipeline is a set of components with different names. Every input is a declared input of the
pipeline or an output of one of the components, and no component depends on itself through others.
Who depends on whom follows from the channels alone.

## Implementation notes

Three checks are made, and their results are fields of a pipeline: names are distinct, inputs are
resolved, and the graph has no cycle. The graph and the order are fields as well, with equations
that say what they are, so they are computed once.

Dependencies are found through a table of producers by channel. Components are known by their
places; names come in where something is reported. When several components have one channel among
their outputs the table keeps the last one, which does not happen with components that were built.

Assembling reads no store: components carry their channels, and that is all that is needed.

## Main definitions

* `Pipeline` — a pipeline that has passed all checks
* `Pipeline.assemble` — the checks
* `Pipeline.order`, `Pipeline.layers`, `Pipeline.sources`, `Pipeline.targets`
-/

namespace TypedPipeline

namespace Wiring

/-! ### What follows from the channels -/

/-- The component at a place. -/
def componentAt (cs : Array Component) (v : Fin cs.size) : Component := cs[v]

/-- The component that has a channel among its outputs; of several the last one. Built components
never share an output, so there is one at most. -/
def producers (cs : Array Component) : SortedMap ChannelId (Fin cs.size) :=
  (List.finRange cs.size).foldl
    (fun m v => (componentAt cs v).outputs.values.foldl (fun m c => m.insert c.id v) m) .empty

/-- The dependencies: an edge leads from each component to those that read one of its outputs.
Several shared channels make one edge. -/
def graph (cs : Array Component) : Graph cs.size :=
  let producers := producers cs
  let sources : Vector (List (Fin cs.size)) cs.size := Vector.ofFn fun v =>
    (componentAt cs v).inputs.values.filterMap fun c => producers.find? c.id
  Graph.ofRelation fun u v => (Graph.entry sources v).contains u

/-- The first name that occurs again, `seen` being the names before. -/
def duplicate? (seen : List String) : List String → Option String
  | [] => none
  | name :: rest => if seen.contains name then some name else duplicate? (name :: seen) rest

/-- The first input of a component that is neither produced nor declared. -/
def unresolvedIn? (known : ChannelId → Bool) (component : String) :
    List (String × Channel) → Option DagError
  | [] => none
  | (field, c) :: rest =>
    if known c.id then unresolvedIn? known component rest
    else some (.unresolvedChannel component field c.id c.type.name)

/-- The first input of all components that is neither produced nor declared. -/
def unresolved? (cs : Array Component) (declared : List Channel) : Option DagError :=
  let producers := producers cs
  let known (id : ChannelId) : Bool :=
    producers.contains id || declared.any fun c => c.id == id
  cs.toList.findSome? fun c => unresolvedIn? known c.name c.inputs.entries

end Wiring

/-- A pipeline that has passed the checks of names, wiring and cycles. -/
structure Pipeline where
  name : String
  config : PipelineConfig
  /-- The declared inputs. -/
  inputs : List Channel
  /-- The components as they were supplied. -/
  components : Array Component
  /-- The dependencies. -/
  graph : Graph components.size
  /-- The components in the order of execution. -/
  order : List (Fin components.size)
  distinct : Wiring.duplicate? [] (components.toList.map Component.name) = none
  resolved : Wiring.unresolved? components inputs = none
  graph_eq : graph = Wiring.graph components
  acyclic : graph.findCycle? = none
  order_eq : order = graph.order

namespace Pipeline

/-- Assembles a pipeline. Names are checked first, then the wiring, then the cycles, and the first
check that fails is reported. -/
def assemble (name : String) (components : Array Component) (inputs : List Channel)
    (config : PipelineConfig) : Except DagError Pipeline :=
  match hd : Wiring.duplicate? [] (components.toList.map Component.name) with
  | some again => .error (.duplicateName again)
  | none =>
    match hr : Wiring.unresolved? components inputs with
    | some e => .error e
    | none =>
      let graph := Wiring.graph components
      match hc : graph.findCycle? with
      | some cycle => .error (.cycle (cycle.map fun v => (Wiring.componentAt components v).name))
      | none =>
        .ok ⟨name, config, inputs, components, graph, graph.order, hd, hr, rfl, hc, rfl⟩

/-! ### Looking at a pipeline -/

/-- The component at a place. -/
def componentAt (p : Pipeline) (v : Fin p.components.size) : Component :=
  Wiring.componentAt p.components v

/-- The name of the component at a place. -/
def nameAt (p : Pipeline) (v : Fin p.components.size) : String := (p.componentAt v).name

/-- The component with a name. -/
def component? (p : Pipeline) (name : String) : Option Component :=
  p.components.find? fun c => c.name == name

/-- The components in the order of execution. -/
def execution (p : Pipeline) : List Component := p.order.map p.componentAt

/-- The dependencies as names, producer first. -/
def edges (p : Pipeline) : List (String × String) :=
  p.graph.edges.map fun e => (p.nameAt e.1, p.nameAt e.2)

/-- The names of the components from which one reads. -/
def sources (p : Pipeline) (v : Fin p.components.size) : List String :=
  (p.graph.sources v).map p.nameAt

/-- The names of the components that read from one. -/
def targets (p : Pipeline) (v : Fin p.components.size) : List String :=
  (p.graph.targets v).map p.nameAt

/-- The names of the components by depth. -/
def layers (p : Pipeline) : List (Nat × List String) :=
  (p.graph.layers p.order).map fun l => (l.1, l.2.map p.nameAt)

/-- Whether a component reads a channel. -/
def isRead (p : Pipeline) (c : Channel) : Bool :=
  p.components.any fun component => component.inputs.values.any fun d => d.id == c.id

/-- The declared inputs that no component reads. They are compared by their channels, so what an
input is called does not matter. -/
def unusedInputs (p : Pipeline) : List Channel := p.inputs.filter fun c => !p.isRead c

/-! ### Notes -/

/-- The notes of a pipeline that has been assembled. -/
def assemblyEvents (p : Pipeline) : List Event :=
  let assembled : Event := {
    level := .info
    origin := .pipeline
    message := "Pipeline assembled"
    fields := [("pipeline", .quoted p.name), ("components", .count p.components.size),
      ("edges", .count p.graph.edges.length)] }
  assembled :: p.unusedInputs.map fun c => {
    level := .warn
    origin := .pipeline
    message := "Pipeline input is not read by any component"
    fields := [("pipeline", .quoted p.name), ("channel", .plain c.id.text),
      ("type_name", .quoted c.type.name)] }

/-- Assembles a pipeline and leaves the notes of that. -/
def assembleNoted (name : String) (components : Array Component) (inputs : List Channel)
    (config : PipelineConfig) : StoreM DagError Pipeline := do
  let p ← StoreM.ask fun _ => assemble name components inputs config
  StoreM.run' fun s => (p, s.noteAll p.assemblyEvents)

end Pipeline

end TypedPipeline
