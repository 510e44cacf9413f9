import TypedPipeline.Host
import TypedPipeline.Path

/-!
# Writing files for people

A file that a user asks for is made together with the directories above it. Both steps can fail, and
the sentence for a failure says which of them did, with the path.

## Main definitions

* `Host.createParent` — makes the directories above a path
* `Host.writeText` — makes a file of a text
-/

namespace TypedPipeline.Host

variable {m : Type → Type} [Monad m] (host : Host m)

/-- Makes the directories above a path. `context` begins the sentence for a failure, which the
directory ends. -/
def createParent (context path : String) : m (Except Fault Unit) :=
  match Path.parent? path with
  | none => pure (.ok ())
  | some parent =>
    if parent.isEmpty then pure (.ok ())
    else do
      match (← host (.createDirectories parent) : Except IoError Unit) with
      | .ok () => pure (.ok ())
      | .error e => pure (.error ⟨[context ++ parent], .io e⟩)

/-- Makes a file of a text. `context` begins the sentence for a failure, which the path ends. -/
def writeText (context path text : String) : m (Except Fault Unit) := do
  match (← host (.write path text.toUTF8) : Except IoError Unit) with
  | .ok () => pure (.ok ())
  | .error e => pure (.error ⟨[context ++ path], .io e⟩)

end TypedPipeline.Host
