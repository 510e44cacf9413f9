import TypedPipeline.Channel
import TypedPipeline.Event

/-!
# The store

The store knows the state of every artifact and of every channel, gives out new numbers, and keeps
the notes. What it was never asked about is as new: an artifact without location and properties, a
channel without producer that holds nothing.

## Implementation notes

A state that was never written is given by a default, and this is also the state that a new artifact
or channel gets. So asking for something that does not exist is no failure, and the lemmas on
reading after writing have no side conditions.

The store is changed by functions that give the new store. Those that may fail give an error or a
store, and a step in `StoreM` keeps what it has done up to the failure; where a failure is to leave
everything as it was, this is proved of the step.

A location is the text that somebody wrote. Only where a split is asked for is it looked into, and
then slashes at its end are dropped.

## Main definitions

* `Store` — the state
* `Store.newArtifact`, `Store.newChannel` — new numbers
* `Store.change` — changes an artifact
* `Store.bind` — puts artifacts into a channel

## Main results

* `Store.artifact_setArtifact`, `Store.channel_setChannel` — what a write changes, and what it
  leaves alone
-/

namespace TypedPipeline

/-- The state of artifacts and channels, and the notes so far. -/
structure Store where
  artifacts : SortedMap ArtifactId ArtifactState := .empty
  channels : SortedMap ChannelId ChannelState := .empty
  /-- The number of the next artifact. -/
  nextArtifact : Nat := 1
  /-- The number of the next channel. -/
  nextChannel : Nat := 1
  /-- The run that goes on, for the notes. -/
  scope : Option RunScope := none
  /-- The notes, the latest first. -/
  events : List Event := []

/-- Steps on a store that may fail. A failed step keeps what it has done to the store, so nothing is
undone by itself. -/
abbrev StoreM (ε : Type) := ExceptT ε (StateM Store)

namespace Store

/-! ### States -/

/-- The state of an artifact. -/
def artifact (s : Store) (a : Artifact) : ArtifactState := (s.artifacts.find? a.id).getD {}

/-- The state of a channel. -/
def channel (s : Store) (c : Channel) : ChannelState := (s.channels.find? c.id).getD {}

/-- Gives an artifact a state. -/
def setArtifact (s : Store) (a : Artifact) (state : ArtifactState) : Store :=
  { s with artifacts := s.artifacts.insert a.id state }

/-- Gives a channel a state. -/
def setChannel (s : Store) (c : Channel) (state : ChannelState) : Store :=
  { s with channels := s.channels.insert c.id state }

@[simp]
theorem artifact_setArtifact (s : Store) (a b : Artifact) (state : ArtifactState) :
    (s.setArtifact a state).artifact b = if b.id = a.id then state else s.artifact b := by
  simp only [artifact, setArtifact, SortedMap.find?_insert]
  split <;> rfl

@[simp]
theorem channel_setChannel (s : Store) (c d : Channel) (state : ChannelState) :
    (s.setChannel c state).channel d = if d.id = c.id then state else s.channel d := by
  simp only [channel, setChannel, SortedMap.find?_insert]
  split <;> rfl

@[simp]
theorem channel_setArtifact (s : Store) (a : Artifact) (c : Channel) (state : ArtifactState) :
    (s.setArtifact a state).channel c = s.channel c := rfl

@[simp]
theorem artifact_setChannel (s : Store) (a : Artifact) (c : Channel) (state : ChannelState) :
    (s.setChannel c state).artifact a = s.artifact a := rfl

/-! ### Notes -/

/-- Adds a note, inside the run that goes on. The run is that of the store, whatever the note
said. -/
def note (s : Store) (e : Event) : Store :=
  { s with events := { e with scope := s.scope } :: s.events }

/-- Adds notes. -/
def noteAll (s : Store) (es : List Event) : Store := es.foldl note s

/-! ### Artifacts -/

/-- A new artifact in a state. -/
def newArtifact (s : Store) (type : ArtifactType) (staging : Option String := none)
    (state : ArtifactState := {}) : Artifact × Store :=
  let a : Artifact := ⟨⟨s.nextArtifact⟩, type, staging⟩
  (a, { s with nextArtifact := s.nextArtifact + 1 }.setArtifact a state)

/-- The note of a location that is replaced. -/
def overwritten (a : Artifact) (old new : String) : Event where
  level := .warn
  origin := .artifact
  message := "Overwriting artifact uri"
  fields := [("artifact", .plain a.id.text), ("old", .quoted old), ("new", .quoted new)]

/-- The notes of a change to an artifact in a state. -/
def changeEvents (a : Artifact) (state : ArtifactState) : ArtifactOp → List Event
  | .overwriteUri new =>
    match state.uri with
    | some old => [overwritten a old new]
    | none => []
  | _ => []

/-- Changes an artifact; nothing changes if that is refused. -/
def change (s : Store) (a : Artifact) (op : ArtifactOp) : Option Refusal × Store :=
  let state := s.artifact a
  match state.apply op with
  | .ok state' => (none, (s.setArtifact a state').noteAll (changeEvents a state op))
  | .error r => (some r, s)

/-- Replaces the location of an artifact, and gives the one that it had. -/
def overwriteUri (s : Store) (a : Artifact) (uri : String) : Option String × Store :=
  ((s.artifact a).uri, (s.change a (.overwriteUri uri)).2)

/-- The record of an artifact. -/
def record (s : Store) (a : Artifact) : ArtifactRecord := a.record (s.artifact a)

/-! ### Channels -/

/-- A new channel, which holds nothing. -/
def newChannel (s : Store) (type : ArtifactType) : Channel × Store :=
  let c : Channel := ⟨⟨s.nextChannel⟩, type⟩
  (c, { s with nextChannel := s.nextChannel + 1 }.setChannel c {})

/-- Puts artifacts into a channel, over what it held before. Nothing changes if one of them has
another type. -/
def bind (s : Store) (c : Channel) (artifacts : List Artifact) : Except ContractError Store :=
  match c.misfit? artifacts with
  | some e => .error e
  | none => .ok (s.setChannel c { s.channel c with held := artifacts })

/-- Names the producer of a channel; a channel has one producer only. -/
def claim (s : Store) (c : Channel) (p : Producer) : Except ContractError Store :=
  match (s.channel c).producer with
  | some old => .error (.channelAlreadyProduced c.id old)
  | none => .ok (s.setChannel c { s.channel c with producer := some p })

/-- The only artifact that a channel holds. -/
def single? (s : Store) (c : Channel) : Except ContractError Artifact :=
  c.single? (s.channel c).held

/-- The location of the only artifact that a channel holds. -/
def singleUri? (s : Store) (c : Channel) : Except Fault String :=
  match s.single? c with
  | .error e => .error (.of (.contract e))
  | .ok a =>
    match (s.artifact a).uri with
    | some uri => .ok uri
    | none => .error (.of (.artifact (.unpopulated a.id)))

/-- A location without the slashes at its end. -/
def withoutSlashes (uri : String) : String :=
  String.ofList (uri.toList.reverse.dropWhile (· == '/')).reverse

/-- The location of a split inside the one artifact of a channel that names it. Several artifacts
that name it are as much a failure as none, and the failure has their number. -/
def splitUri? (s : Store) (c : Channel) (split : String) : Except Fault String :=
  match (s.channel c).held.filter fun a => (s.artifact a).splitNames.contains split with
  | [a] =>
    match (s.artifact a).uri with
    | some uri => .ok (withoutSlashes uri ++ "/" ++ split)
    | none => .error (.of (.artifact (.unpopulated a.id)))
  | found => .error (.of (.artifact (.splitNotFound split found.length)))

/-- The bindings of a run that begins with what the channels hold. A channel that is listed twice is
bound once. -/
def seed (s : Store) (channels : List Channel) : Bindings :=
  ⟨.ofList (channels.map fun c => (c.id, (s.channel c).held))⟩

end Store

namespace StoreM

/-- A step that cannot fail. -/
def run' {ε α : Type} (f : Store → α × Store) : StoreM ε α := fun s =>
  let (a, s) := f s
  (.ok a, s)

/-- A step that replaces the store unless it fails. -/
def update {ε : Type} (f : Store → Except ε Store) : StoreM ε Unit := fun s =>
  match f s with
  | .ok s => (.ok (), s)
  | .error e => (.error e, s)

/-- A question to the store. -/
def ask {ε α : Type} (f : Store → Except ε α) : StoreM ε α := fun s => (f s, s)

end StoreM

end TypedPipeline
