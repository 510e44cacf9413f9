import TypedPipeline.Text.Blank
import TypedPipeline.Yaml.Decode

/-!
# Settings of a pipeline

A pipeline is given a root, below which its components write, and a mode. Both have defaults, so a
recipe need not have settings. The root may be replaced by the environment in which a pipeline is
built, which leaves the recipe as it is.

## Main definitions

* `ExecutionMode` — whether a pipeline is run here or handed to another scheduler
* `PipelineConfig` — the root of the staging locations, and the mode
* `PipelineConfig.overridden` — the settings under an environment
-/

namespace TypedPipeline

/-- Who runs a pipeline. The local runner refuses a pipeline that is meant for another scheduler,
and both can be planned. -/
inductive ExecutionMode where
  /-- The local runner. -/
  | here
  /-- Another scheduler, from an exported plan. -/
  | external
deriving DecidableEq

/-- The name of a mode in settings and plans. -/
def ExecutionMode.name : ExecutionMode → String
  | here => "local"
  | external => "external"

/-- The modes by name. -/
def ExecutionMode.names : List (String × ExecutionMode) :=
  [("local", .here), ("external", .external)]

/-- The settings of a pipeline. -/
structure PipelineConfig where
  /-- The location below which components get their staging locations. -/
  root : String := "./pipeline-root"
  mode : ExecutionMode := .here
deriving DecidableEq

namespace PipelineConfig

/-- The variable of the environment that replaces the root. -/
def rootVariable : String := "STAGEWIRE_PIPELINE_ROOT"

/-- The settings under an environment: a root given there counts unless it is blank. -/
def overridden (c : PipelineConfig) (rootGiven : Option String) : PipelineConfig :=
  match rootGiven with
  | some root => if Text.isBlankText root then c else { c with root }
  | none => c

/-- Decodes settings; a field that is missing has its default. -/
def decode (n : Yaml.Node) : Yaml.Decode PipelineConfig :=
  Yaml.Decode.fields ["pipeline_root", "execution_mode"]
    (fun c field value => do
      if field == "pipeline_root" then
        pure { c with root := ← Yaml.Decode.text value }
      else
        pure { c with mode := ← Yaml.Decode.choice ExecutionMode.names value })
    {} n

/-- The settings that a text describes. -/
def ofYaml? (text : String) : Option PipelineConfig := Yaml.decode? decode text

end PipelineConfig

end TypedPipeline
