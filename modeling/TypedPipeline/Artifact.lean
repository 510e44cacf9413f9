import TypedPipeline.Fault
import TypedPipeline.SplitNames

/-!
# Artifacts

An artifact is a typed reference to data that is stored somewhere. Its number, its type and its
staging location never change; its location is written once, and its properties freeze with it.

## What is split apart, and why

An artifact is a value that is passed around: inputs, outputs and channels hold artifacts. What may
change about it is not part of this value but stands in the store under its number. So two copies of
an artifact never disagree, and what a component does to an output is seen by whoever holds it.

Changes are operations on the state of one artifact, and an operation either gives a new state or a
reason why it is refused. Nothing is half done: `ArtifactState.apply` is a function to `Except`, so
the old state is all there is after a refusal.

## Sealing

There is no flag that says that properties are frozen. They are while there is a location, and there
is no operation that takes a location away. That this makes them frozen for good is a property of
histories and not of a single operation; `properties_of_apply` is the step of that induction.

## Main definitions

* `Artifact` — what never changes
* `ArtifactState` — location and properties
* `ArtifactOp`, `ArtifactState.apply` — the changes, and when they are refused
* `ArtifactRecord` — what is handed to storage

## Main results

* `ArtifactState.apply_isOk_iff` — which changes are accepted
* `ArtifactState.properties_of_apply` — properties never change once there is a location
-/

namespace TypedPipeline

/-- What never changes about an artifact. Two artifacts with one number are the same one, and only
the store gives out numbers. -/
structure Artifact where
  id : ArtifactId
  type : ArtifactType
  /-- Where a component is to put the data, for the outputs of a run. -/
  staging : Option String := none
deriving DecidableEq

/-- What may change about an artifact. -/
structure ArtifactState where
  /-- Where the data is; absent until it is there. -/
  uri : Option String := none
  properties : Parameters := .empty
deriving DecidableEq

/-- Why a change is refused. -/
inductive Refusal where
  | uriAlreadySet (uri : String)
  | sealed
  | unpopulated
  | invalidSplitName (name : String)
deriving DecidableEq

/-- A refusal as the failure of one artifact. -/
def Refusal.error (id : ArtifactId) : Refusal → ArtifactError
  | uriAlreadySet uri => .uriAlreadySet id uri
  | sealed => .sealed id
  | unpopulated => .unpopulated id
  | invalidSplitName name => .invalidSplitName name

/-- A change of an artifact. Writing a location for the first time and replacing it are different
operations, so that a caller says which one is meant. -/
inductive ArtifactOp where
  | setUri (uri : String)
  /-- Replaces a location that was written already. -/
  | overwriteUri (uri : String)
  | setProperty (name : String) (value : Scalar)
  | setSplitNames (names : List String)
deriving DecidableEq

namespace ArtifactState

/-- Whether there is a location. -/
def populated (s : ArtifactState) : Bool := s.uri.isSome

/-- The location, which has to be there. -/
def requireUri (s : ArtifactState) : Except Refusal String :=
  match s.uri with
  | some uri => .ok uri
  | none => .error .unpopulated

/-- Writes the location, once. -/
def setUri (s : ArtifactState) (uri : String) : Except Refusal ArtifactState :=
  match s.uri with
  | some old => .error (.uriAlreadySet old)
  | none => .ok { s with uri := some uri }

/-- Writes a property, as long as there is no location. -/
def setProperty (s : ArtifactState) (name : String) (value : Scalar) :
    Except Refusal ArtifactState :=
  if s.populated then .error .sealed
  else .ok { s with properties := s.properties.insert name value }

/-- Writes the property of the split names, if all names are valid. -/
def setSplitNames (s : ArtifactState) (names : List String) : Except Refusal ArtifactState :=
  match SplitNames.invalid? names with
  | some name => .error (.invalidSplitName name)
  | none =>
    s.setProperty SplitNames.property (.string ((SplitNames.encode? names).getD ""))

/-- The split names: those of the property, if it is a text. An artifact without the property has
none. -/
def splitNames (s : ArtifactState) : List String :=
  match s.properties.find? SplitNames.property with
  | some (.string encoded) => SplitNames.decode encoded
  | _ => []

/-- The artifact after a change, or why it is refused. -/
def apply : ArtifactOp → ArtifactState → Except Refusal ArtifactState
  | .setUri uri, s => s.setUri uri
  | .overwriteUri uri, s => .ok { s with uri := some uri }
  | .setProperty name value, s => s.setProperty name value
  | .setSplitNames names, s => s.setSplitNames names

/-- Which changes are accepted: a new location at any time, the other changes only before there is a
location, and split names only if all are valid. -/
theorem apply_isOk_iff (op : ArtifactOp) (s : ArtifactState) :
    (∃ s', s.apply op = .ok s') ↔
      match op with
      | .overwriteUri _ => True
      | .setUri _ => s.uri = none
      | .setProperty _ _ => s.uri = none
      | .setSplitNames names => s.uri = none ∧ SplitNames.invalid? names = none := by
  cases op with
  | setUri uri => cases h : s.uri <;> simp [apply, setUri, h]
  | overwriteUri uri => simp [apply]
  | setProperty name value => cases h : s.uri <;> simp [apply, setProperty, populated, h]
  | setSplitNames names =>
    cases hn : SplitNames.invalid? names <;> cases h : s.uri <;>
      simp [apply, setSplitNames, setProperty, populated, h, hn]

/-- Properties never change once there is a location. -/
theorem properties_of_apply {op : ArtifactOp} {s s' : ArtifactState} (hs : s.uri.isSome)
    (h : s.apply op = .ok s') : s'.properties = s.properties ∧ s'.uri.isSome := by
  obtain ⟨uri, hu⟩ := Option.isSome_iff_exists.1 hs
  cases op with
  | setUri _ => simp [apply, setUri, hu] at h
  | overwriteUri _ => simp [apply] at h; simp [← h]
  | setProperty _ _ => simp [apply, setProperty, populated, hu] at h
  | setSplitNames names =>
    cases hn : SplitNames.invalid? names <;>
      simp [apply, setSplitNames, setProperty, populated, hu, hn] at h

end ArtifactState

/-! ### Records -/

/-- What is handed to storage: an artifact without its number and its staging location. -/
structure ArtifactRecord where
  typeName : String
  uri : Option String := none
  properties : Parameters := .empty
deriving DecidableEq

/-- The record of an artifact in a state. -/
def Artifact.record (a : Artifact) (s : ArtifactState) : ArtifactRecord :=
  ⟨a.type.name, s.uri, s.properties⟩

end TypedPipeline
