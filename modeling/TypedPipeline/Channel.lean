import TypedPipeline.Artifact

/-!
# Channels and bindings

A channel connects one producing output with any number of reading inputs. It has a number and a
type; what it holds, and who produces it, is kept in the store. A run keeps what it has bound to
channels by itself, in its bindings, so runs of one pipeline do not meet.

## Implementation notes

A channel is a value like an artifact is, with its state in the store. It is the same channel
wherever it is passed, and its type goes with it.

What is bound to a channel is checked against the type of the channel in one place, `misfit?`, for
the store and for the bindings of a run alike. The first artifact that does not fit is reported.

Bindings are a map of their own and no part of the store: a run writes what it produces there, and
channels keep what they held.

## Main definitions

* `Channel`, `ChannelState`
* `Channel.misfit?` — the artifact that a channel cannot hold
* `Bindings` — the artifacts that one run has bound to channels
-/

namespace TypedPipeline

/-- A channel: its number and the type of what it holds. -/
structure Channel where
  id : ChannelId
  type : ArtifactType
deriving DecidableEq

/-- What is known of a channel besides. -/
structure ChannelState where
  producer : Option Producer := none
  held : List Artifact := []

namespace Channel

/-- The failure if one of the artifacts has not the type of the channel: the first one counts. -/
def misfit? (c : Channel) (artifacts : List Artifact) : Option ContractError :=
  (artifacts.find? fun a => a.type != c.type).map fun a =>
    .typeMismatch (.channel c.id) c.type.name a.type.name

/-- Everything fits exactly when all artifacts have the type of the channel. -/
theorem misfit?_eq_none_iff {c : Channel} {artifacts : List Artifact} :
    c.misfit? artifacts = none ↔ ∀ a ∈ artifacts, a.type = c.type := by
  simp [misfit?]

/-- The only artifact of a list. -/
def single? (c : Channel) : List Artifact → Except ContractError Artifact
  | [a] => .ok a
  | artifacts => .error (.cardinality c.type.name artifacts.length)

end Channel

/-- What one run has bound to channels. -/
structure Bindings where
  bound : SortedMap ChannelId (List Artifact) := .empty

namespace Bindings

/-- The artifacts bound to a channel, if any were. -/
def find? (b : Bindings) (c : Channel) : Option (List Artifact) := b.bound.find? c.id

/-- The artifacts bound to a channel. -/
def artifacts (b : Bindings) (c : Channel) : List Artifact := (b.find? c).getD []

/-- The only artifact bound to a channel. -/
def single? (b : Bindings) (c : Channel) : Except ContractError Artifact :=
  c.single? (b.artifacts c)

/-- Binds artifacts to a channel, over what was bound before. Nothing changes if one of them has
another type; the list may be empty. -/
def bind (b : Bindings) (c : Channel) (artifacts : List Artifact) :
    Except ContractError Bindings :=
  match c.misfit? artifacts with
  | some e => .error e
  | none => .ok ⟨b.bound.insert c.id artifacts⟩

/-- The number of channels to which something was bound. -/
def size (b : Bindings) : Nat := b.bound.size

end Bindings

end TypedPipeline
