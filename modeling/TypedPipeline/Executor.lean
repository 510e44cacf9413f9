import TypedPipeline.Host
import TypedPipeline.Store

/-!
# Executors

The work of a component is a program over the artifacts that it is handed. It looks at them and
changes them, asks the surroundings, leaves notes, and ends well or with a failure. The artifacts
are known to it by the field to which they belong and their place there.

## Why programs are data

A component does its work with files and artifacts, and may be written by anybody. Here its work is
a value of the type `Work`: a tree of steps, each of which says what is asked and how to go on with
the answer. A program can therefore do nothing but look at the artifacts that it is handed, change
them, ask the host and leave notes. It cannot reach a channel, a binding or an artifact of somebody
else, and statements about all executors are statements about all such trees.

Programs are finite along every path, so running one is structural recursion and always comes to an
end.

## Implementation notes

Artifacts are named by slots: a field and a place in it. A program is told in advance how many
artifacts of which types each field has (`Offer`), so that it can be written as a function of that.
A slot that has no artifact shows nothing, and changing it has no effect.

A refused change is an answer like others. Most programs end with it, and the failure then names the
artifact by its number, which the program itself does not know.

## Main definitions

* `Slot`, `Offer` — the artifacts that a program is handed
* `Work` — programs
* `Executor` — the program of a kind of component
* `Work.run` — runs a program on the store
-/

namespace TypedPipeline

/-- The two sides of a component. -/
inductive Side where
  | input
  | output
deriving DecidableEq

/-- An artifact by its field and its place among the artifacts of the field. -/
structure Slot where
  side : Side
  field : String
  index : Nat := 0
deriving DecidableEq

/-- What a program sees of an artifact. -/
structure View where
  artifact : Artifact
  state : ArtifactState

/-- The types of the artifacts that a program is handed, field by field. -/
structure Offer where
  inputs : TextMap (List ArtifactType)
  outputs : TextMap (List ArtifactType)

/-- A program that ends with an `α`, unless it fails. Each constructor is a step, with the rest of
the program behind it. -/
inductive Work (α : Type) where
  | done (value : α)
  | fail (error : ExecutionError)
  /-- The change of an artifact was refused, and the program ends with that. -/
  | refused (slot : Slot) (refusal : Refusal)
  /-- Looks at an artifact; there may be none in the slot. -/
  | look (slot : Slot) (next : Option View → Work α)
  /-- Changes an artifact; the answer is why that is refused, if it is. -/
  | change (slot : Slot) (op : ArtifactOp) (next : Option Refusal → Work α)
  | ask (request : Host.Request) (next : request.Reply → Work α)
  | note (event : Event) (next : Work α)

namespace Work

variable {α β : Type}

/-- The program that goes on with `f` where `p` is done. -/
def bind (p : Work α) (f : α → Work β) : Work β :=
  match p with
  | done a => f a
  | fail e => fail e
  | refused slot r => refused slot r
  | look slot next => look slot fun v => (next v).bind f
  | change slot op next => change slot op fun r => (next r).bind f
  | ask request next => ask request fun r => (next r).bind f
  | note e next => note e (next.bind f)

instance : Monad Work where
  pure := done
  bind := bind

/-- The artifacts of a component in a run. -/
structure Handed where
  inputs : TextMap (List Artifact)
  outputs : TextMap (List Artifact)

namespace Handed

/-- The artifacts of one side. -/
def side (h : Handed) : Side → TextMap (List Artifact)
  | .input => h.inputs
  | .output => h.outputs

/-- The artifact in a slot. -/
def artifact? (h : Handed) (slot : Slot) : Option Artifact := do
  let artifacts ← (h.side slot.side).find? slot.field
  artifacts[slot.index]?

/-- What is told of the artifacts in advance. -/
def offer (h : Handed) : Offer :=
  let types (_ : String) (l : List Artifact) : List ArtifactType := l.map Artifact.type
  ⟨h.inputs.map types, h.outputs.map types⟩

end Handed

/-- The failure of a program that ends with a refusal. -/
def refusedError (h : Handed) (slot : Slot) (r : Refusal) : ExecutionError :=
  match h.artifact? slot with
  | some a => .artifact (r.error a.id)
  | none => .contract (.specValidation (.field none slot.field) .missingArtifact)

/-- Runs a program on the artifacts that it is handed. A slot without an artifact shows nothing and
takes every change without an effect. -/
def run {m : Type → Type} [Monad m] (host : Host m) (h : Handed) :
    Work α → StateT Store m (Except ExecutionError α)
  | done a => pure (.ok a)
  | fail e => pure (.error e)
  | refused slot r => pure (.error (refusedError h slot r))
  | look slot next => do
    let s ← get
    (next ((h.artifact? slot).map fun a => ⟨a, s.artifact a⟩)).run host h
  | change slot op next =>
    match h.artifact? slot with
    | none => (next none).run host h
    | some a => do
      let (r, s) := (← get).change a op
      set s
      (next r).run host h
  | ask request next => do
    let reply ← (host request : m request.Reply)
    (next reply).run host h
  | note e next => do
    modify fun s => s.note e
    next.run host h

/-! ### Common steps -/

/-- Asks the surroundings. -/
def request (r : Host.Request) : Work r.Reply := ask r done

/-- A file operation that may fail, and what is said then. -/
def ofIo (context : String) : Except IoError α → Work α
  | .ok a => done a
  | .error e => fail (.io context e)

/-- Changes an artifact; the program ends if that is refused. -/
def apply (slot : Slot) (op : ArtifactOp) : Work Unit :=
  change slot op fun
    | none => done ()
    | some r => refused slot r

/-- The location of an artifact; the program ends if there is none. -/
def requireUri (slot : Slot) : Work String :=
  look slot fun v =>
    match v.bind fun v => v.state.uri with
    | some uri => done uri
    | none => refused slot .unpopulated

/-- The only artifact of a field. A field that was not handed, or that has not exactly one artifact,
is a failure of the contract. -/
def single (side : Side) (offered : TextMap (List ArtifactType)) (field : String) : Work Slot :=
  match offered.find? field with
  | none => fail (.contract (.specValidation (.field none field) .missingArtifact))
  | some [_] => done ⟨side, field, 0⟩
  | some types =>
    let typeName := (types.head?.map ArtifactType.name).getD ""
    fail (.contract (.cardinality typeName types.length))

end Work

/-- The program of a kind of component. -/
abbrev Executor := Offer → Parameters → Work Unit

namespace Offer

/-- The only artifact of an input field. -/
def input (o : Offer) (field : String) : Work Slot := Work.single .input o.inputs field

/-- The only artifact of an output field. -/
def output (o : Offer) (field : String) : Work Slot := Work.single .output o.outputs field

end Offer

end TypedPipeline
