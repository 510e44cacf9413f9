import TypedPipeline.SortedMap

/-!
# Numbers of artifacts and channels

Artifacts and channels are told apart by numbers, never by what they hold.

Each kind of number has a type of its own, so an artifact is not mistaken for a channel. Maps are
ordered by the number itself.

## Main definitions

* `ArtifactId`, `ChannelId` — the numbers, which order maps
* `ArtifactId.text`, `ChannelId.text` — how they stand in messages and plans
-/

namespace TypedPipeline

/-- The number of an artifact. -/
structure ArtifactId where
  number : Nat
deriving DecidableEq

/-- The number of a channel. -/
structure ChannelId where
  number : Nat
deriving DecidableEq

namespace ArtifactId

/-- The number behind a hash sign. -/
def text (id : ArtifactId) : String := s!"#{id.number}"

instance : KeyOrder ArtifactId where
  lt a b := a.number < b.number
  decide a b := inferInstanceAs (Decidable (a.number < b.number))
  irrefl a := Nat.lt_irrefl a.number
  trans h₁ h₂ := Nat.lt_trans h₁ h₂
  connected {a b} h₁ h₂ := by
    cases a; cases b
    exact congrArg _ (Nat.le_antisymm (Nat.not_lt.1 h₂) (Nat.not_lt.1 h₁))

end ArtifactId

namespace ChannelId

/-- The number behind `ch`. -/
def text (id : ChannelId) : String := s!"ch{id.number}"

instance : KeyOrder ChannelId where
  lt a b := a.number < b.number
  decide a b := inferInstanceAs (Decidable (a.number < b.number))
  irrefl a := Nat.lt_irrefl a.number
  trans h₁ h₂ := Nat.lt_trans h₁ h₂
  connected {a b} h₁ h₂ := by
    cases a; cases b
    exact congrArg _ (Nat.le_antisymm (Nat.not_lt.1 h₂) (Nat.not_lt.1 h₁))

end ChannelId

/-- The output of a component that a channel comes from. -/
structure Producer where
  component : String
  output : String
deriving DecidableEq

/-- Component and output with a point between them, as a reference has them. -/
def Producer.text (p : Producer) : String := s!"{p.component}.{p.output}"

end TypedPipeline
