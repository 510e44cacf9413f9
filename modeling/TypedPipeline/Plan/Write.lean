import TypedPipeline.Host.Output
import TypedPipeline.Plan

/-!
# Plans in files

A plan is written where the user wants it, whether or not the directory is there already. A file
that is at the path is replaced.

## Main definitions

* `Plan.write` — writes a plan to a file
-/

namespace TypedPipeline.Plan

/-- Writes a plan to a file, with the directories above it. -/
def write {m : Type → Type} [Monad m] (host : Host m) (p : Plan) (path : String) :
    m (Except Fault Unit) := do
  match ← Host.createParent host "Failed to create plan directory: " path with
  | .error f => pure (.error f)
  | .ok () => Host.writeText host "Failed to create plan file: " path p.yaml

end TypedPipeline.Plan
