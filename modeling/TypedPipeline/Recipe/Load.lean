import TypedPipeline.Host
import TypedPipeline.Recipe.Basic

/-!
# Recipes in files

There are two failures, that the file cannot be read and that its text is no recipe. Both are told
with the path.

## Main definitions

* `Recipe.load` — the recipe in a file
-/

namespace TypedPipeline.Recipe

/-- The recipe in a file. -/
def load {m : Type → Type} [Monad m] (host : Host m) (path : String) :
    m (Except Fault Recipe) := do
  match ← Host.readText host path with
  | .error e => pure (.error ⟨[s!"Failed to read recipe file: {path}"], .io e⟩)
  | .ok text =>
    match ofYaml? text with
    | none => pure (.error ⟨[s!"Failed to parse recipe YAML: {path}"], .yaml⟩)
    | some r => pure (.ok r)

end TypedPipeline.Recipe
