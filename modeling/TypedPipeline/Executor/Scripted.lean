import TypedPipeline.Executor

/-!
# Executors given as lists of steps

A scripted executor goes through a list of steps on the artifacts that it is handed and ends at the
first failure. It stands in for real work where only the wiring matters.

The steps are data, and a script can be given to any component, whatever its contract is. It may
also do what an executor should not, such as write the location of an input.

## Main definitions

* `ScriptStep` — the steps
* `Executor.scripted` — the executor of a list of steps
-/

namespace TypedPipeline

/-- A step of a scripted executor. -/
inductive ScriptStep where
  /-- Writes the staging location of an output as its location. -/
  | commit (output : String)
  /-- Does this for every output artifact. -/
  | commitAll
  | setUri (output uri : String)
  | setProperty (output name : String) (value : Scalar)
  | setSplitNames (output : String) (names : List String)
  /-- Asks for the location of an input. -/
  | readInput (input : String)
  /-- Tries to write the location of an input. -/
  | tamper (input uri : String)
  /-- Writes a location made of a parameter. -/
  | parameterUri (output parameter : String)
  /-- Writes a location made of the locations of all inputs. -/
  | concat (output : String)
  | fail (error : ExecutionError)

namespace ScriptStep

/-- Writes the staging location of an artifact as its location. -/
def commitSlot (slot : Slot) : Work Unit :=
  .look slot fun v =>
    Work.apply slot (.setUri ((v.bind fun v => v.artifact.staging).getD ""))

/-- The slots of one side, by field and place. -/
def slots (side : Side) (offered : TextMap (List ArtifactType)) : List Slot :=
  offered.entries.flatMap fun e => e.2.mapIdx fun i _ => ⟨side, e.1, i⟩

/-- The location of an artifact, empty if there is none. -/
def uriOrEmpty (slot : Slot) : Work String :=
  .look slot fun v => .done ((v.bind fun v => v.state.uri).getD "")

/-- The program of a step. A step that names an output which was not handed out fails as any
executor would. -/
def work (offer : Offer) (parameters : Parameters) : ScriptStep → Work Unit
  | commit output => do commitSlot (← offer.output output)
  | commitAll => (slots .output offer.outputs).forM commitSlot
  | setUri output uri => do Work.apply (← offer.output output) (.setUri uri)
  | setProperty output name value => do
    Work.apply (← offer.output output) (.setProperty name value)
  | setSplitNames output names => do
    Work.apply (← offer.output output) (.setSplitNames names)
  | readInput input => do
    let _ ← Work.requireUri (← offer.input input)
    pure ()
  | tamper input uri => do Work.apply (← offer.input input) (.setUri uri)
  | parameterUri output parameter => do
    let text := ((parameters.find? parameter).map Scalar.text).getD ""
    Work.apply (← offer.output output) (.setUri ("mem://" ++ text))
  | concat output => do
    let uris ← (slots .input offer.inputs).mapM uriOrEmpty
    Work.apply (← offer.output output) (.setUri ("(" ++ "+".intercalate uris ++ ")"))
  | fail error => .fail error

end ScriptStep

/-- The executor that goes through a list of steps. -/
def Executor.scripted (steps : List ScriptStep) : Executor := fun offer parameters =>
  steps.forM (ScriptStep.work offer parameters)

end TypedPipeline
