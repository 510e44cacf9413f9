import TypedPipeline.Recipe.Build

/-!
# Validation of recipes

A report collects every problem of a recipe. What can be seen without building is looked for first;
only if nothing is found there the recipe is built, since the build would say the same again.

## Implementation notes

The static checks look at names, kinds and references. Each problem is a sentence that names the
input or the entry, entries with their number as well, because their names may be empty or occur
twice. Whether channels have the right types, and parameters, are left to the build, which stops at
the first fault; so of these only one problem is reported at a time.

Warnings do not count as errors. An input without a location cannot be read when the pipeline is run
here, but a plan of it may be of use. An input that nobody reads does no harm.

## Main definitions

* `Report` — errors and warnings
* `Recipe.staticReport` — what can be seen without building
* `Recipe.validate` — the whole report
-/

namespace TypedPipeline

/-- The problems of a recipe. -/
structure Report where
  errors : List String := []
  warnings : List String := []

namespace Report

/-- Whether there are no errors. -/
def isOk (r : Report) : Bool := r.errors.isEmpty

/-- The report of errors only. -/
def ofErrors (errors : List String) : Report := ⟨errors, []⟩

/-- Both reports, one after the other. -/
def append (r t : Report) : Report := ⟨r.errors ++ t.errors, r.warnings ++ t.warnings⟩

instance : Append Report := ⟨append⟩

/-- Many reports, one after the other. -/
def concat (l : List Report) : Report := l.foldl append {}

end Report

namespace Recipe

/-- The error if a condition holds. -/
def errorIf (b : Bool) (text : String) : List String := if b then [text] else []

/-- The problems of the recipe as a whole. -/
def headErrors (r : Recipe) : List String :=
  errorIf (r.version != currentVersion) s!"Unsupported recipe version: {r.version}" ++
  errorIf (Text.isBlankText r.name) "Pipeline name cannot be empty" ++
  errorIf r.entries.isEmpty "Pipeline must contain at least one component"

/-- The problems of an input. -/
def inputReport (registry : Registry) (i : Input) : Report where
  errors := errorIf (!registry.types.contains i.typeName)
    s!"Pipeline input '{i.name}' uses unknown artifact type '{i.typeName}'"
  warnings := errorIf i.uri.isNone
    s!"Pipeline input '{i.name}' has no uri; components reading it cannot run locally"

/-- How an entry is called in a report. -/
def label (index : Nat) (e : Entry) : String := s!"Component {index + 1} ('{e.name}')"

/-- The problems of a reference. What an entry of an unknown kind has as outputs cannot be said, and
the kind is reported anyway. -/
def referenceErrors (r : Recipe) (registry : Registry) (field reference : String) :
    List String :=
  match Reference.ofText? reference with
  | none => [s!"input '{field}': " ++ Reference.invalidText reference]
  | some (.input name) =>
    errorIf (!r.inputs.any fun i => i.name == name)
      s!"input '{field}' references unknown pipeline input '{name}'"
  | some (.output component output) =>
    match r.entries.find? fun e => e.name == component with
    | none => [s!"input '{field}' references unknown component '{component}'"]
    | some source =>
      match registry.kinds.find? source.kind with
      | none => []
      | some kind =>
        errorIf (kind.spec.outputType? output).isNone
          (s!"input '{field}' references '{component}.{output}', " ++
            s!"but kind '{source.kind}' declares no such output")

/-- The problems of an entry. -/
def entryErrors (r : Recipe) (registry : Registry) (index : Nat) (e : Entry) : List String :=
  let kindErrors := errorIf (!registry.kinds.contains e.kind) (registry.unknownKindText e.kind)
  let inputErrors := e.inputs.entries.flatMap fun (field, reference) =>
    r.referenceErrors registry field reference
  (kindErrors ++ inputErrors).map (fun text => label index e ++ ": " ++ text) ++
    errorIf (Text.isBlankText e.name) s!"Component {index + 1} has an empty name"

/-- What can be seen without building. -/
def staticReport (r : Recipe) (registry : Registry) : Report :=
  .ofErrors r.headErrors ++ .concat (r.inputs.map (inputReport registry)) ++
    .ofErrors (r.entries.mapIdx (r.entryErrors registry)).flatten

/-- The warnings for inputs to which no reference of an entry goes. References are compared as
texts, without the blanks at their ends. -/
def unreadWarnings (r : Recipe) : List String :=
  let read (name : String) : Bool :=
    r.entries.any fun e => e.inputs.values.any fun reference => Text.trim reference == name
  (r.inputs.filter fun i => !read i.name).map fun i =>
    s!"Pipeline input '{i.name}' is not read by any component"

/-- The whole report. -/
def validate (r : Recipe) (registry : Registry) (rootGiven : Option String) :
    StateM Store Report := do
  let report := r.staticReport registry
  if !report.isOk then pure report
  else
    match ← (r.build registry rootGiven).run with
    | .ok _ => pure (report ++ ⟨[], r.unreadWarnings⟩)
    | .error f => pure (report ++ .ofErrors [f.text])

end Recipe

end TypedPipeline
