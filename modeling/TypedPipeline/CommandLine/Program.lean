import TypedPipeline.Builtin
import TypedPipeline.CommandLine.Command
import TypedPipeline.Glob
import TypedPipeline.Host.Output
import TypedPipeline.Metrics.Exposition
import TypedPipeline.Plan.Write
import TypedPipeline.Recipe.Load
import TypedPipeline.Recipe.Report
import TypedPipeline.Runner

/-!
# The program

What the commands do with recipes, plans and runs, on any surroundings. The notes are left in the
store; what is printed, and the fault that ends a command, are its result.

## Layers

Every command is a program over a `Host`, so it can be run on the real machine or on files in
memory. It works in three layers: it may fail, it has a store, and it may ask the surroundings. The
steps in `Step` bring each kind of part into this form. A command that fails ends with its fault,
and the store with all notes is kept, so one can see what was done before.

Notes and output are separate. What a command prints is a text at its end, and only the list of
kinds, the help and the version have one. Everything else is told by notes, to which a caller may
put a time.

## Codes

A command that has done its work ends with zero, one that has failed with one, and a command line
that cannot be read with two. A report with errors is a failure, although the command itself went
well.

## Main definitions

* `Command.perform` — what a command does
* `Exit`, `program` — a whole command line
-/

namespace TypedPipeline.CommandLine

/-- How the program ends. -/
structure Exit where
  code : Nat
  /-- What is printed. -/
  output : String := ""
  fault : Option Fault := none

/-- The text for a request for help. -/
def helpText : String :=
  "Usage: stagewire <COMMAND>\n\nCommands:\n" ++
  "  run <RECIPE> [--run-id <RUN_ID>] [--print-metrics] [--metrics-json <PATH>]\n" ++
  "      [--metrics-prometheus <PATH>] [--report <PATH>]\n" ++
  "  list-components\n" ++
  "  validate <RECIPE>\n" ++
  "  plan <RECIPE> <OUTPUT>\n" ++
  "  recipe lint <PATTERNS>...\n"

/-- The text for a request for the version. -/
def versionText : String := "stagewire 0.1.0\n"

/-- How the program ends where the reading of its arguments stops. -/
def Stop.exit : Stop → Exit
  | help => { code := 0, output := helpText }
  | version => { code := 0, output := versionText }
  | mistake => { code := 2 }

/-- Fields with the names of their types, in brackets. -/
def fieldList (fields : List (String × String)) : String :=
  "[" ++ ", ".intercalate (fields.map fun f => f.1 ++ ": " ++ f.2) ++ "]"

/-- The line of a kind in the list of kinds. -/
def kindLine (spec : Spec) : String :=
  let inputs := fieldList (spec.inputs.map fun f => (f.1, f.2.name))
  let outputs := fieldList (spec.outputs.map fun f => (f.1, f.2.name))
  let parameters := fieldList (spec.parameters.map fun f => (f.1, f.2.name))
  s!"- {spec.kind} (inputs: {inputs}, outputs: {outputs}, parameters: {parameters})\n"

/-- The list of kinds. -/
def kindList (registry : Registry) : String :=
  "Available components:\n" ++
    String.join (registry.kinds.values.map fun kind => kindLine kind.spec)

section

variable {m : Type → Type} [Monad m] (host : Host m)

/-- Steps of a command. A failure ends the command, and what was noted until then stays in the
store. -/
abbrev Step (m : Type → Type) := ExceptT Fault (StateT Store m)

namespace Step

/-- A step in the surroundings. -/
def outside {α : Type} (x : m α) : Step m α := ExceptT.lift (StateT.lift x)

/-- A step in the surroundings that may fail. -/
def attempt {α : Type} (x : m (Except Fault α)) : Step m α := ExceptT.mk (StateT.lift x)

/-- A step on the store. -/
def onStore {α : Type} (x : StateM Store α) : Step m α := ExceptT.lift (modifyGet x.run)

/-- A step on the store that may fail. -/
def onStoreOrFail {α : Type} (x : StoreM Fault α) : Step m α := ExceptT.mk (modifyGet x.run.run)

/-- Leaves a note. -/
def note (level : Level) (message : String) (fields : List (String × EventValue)) : Step m Unit :=
  modify fun s => s.note { level, origin := .program, message, fields }

end Step

open Step

/-- The root that the environment gives. -/
def givenRoot : Step m (Option String) := outside (host (.setting PipelineConfig.rootVariable))

/-- The pipeline of the recipe in a file, with the built-in kinds. -/
def buildFrom (path : String) : Step m Pipeline := do
  let recipe ← attempt (Recipe.load host path)
  onStoreOrFail (recipe.build Builtin.registry (← givenRoot host))

/-- The report on a recipe, with the built-in kinds. -/
def inspect (recipe : Recipe) : Step m Report := do
  let root ← givenRoot host
  onStore (recipe.validate Builtin.registry root)

/-- Notes the problems of the recipe in a file; `passed` is said if there are no errors. Warnings
are noted in either case, and before the errors. -/
def noteReport (path : String) (report : Report) (passed : String) : Step m Unit := do
  let file := [("file", EventValue.plain path)]
  for warning in report.warnings do
    note .warn warning file
  if report.isOk then note .info passed file
  else
    for error in report.errors do
      note .error error file

/-- Writes a text to a file with the directories above it. -/
def writeFile (context path text : String) : Step m Unit := do
  attempt (Host.createParent host "Failed to create directory: " path)
  attempt (Host.writeText host context path text)

/-- A name for a run that begins now. -/
def newRunId : Step m String := do
  let now : Nat ← outside (host .time : m Nat)
  pure ("run-" ++ Timestamp.compactText ⟨now⟩)

/-- Notes the outputs of a run. -/
def noteOutputs (report : RunReport) : Step m Unit := do
  for component in report.components do
    for output in component.outputs.keys do
      note .info "Output published" [("component", .quoted component.name),
        ("output", .quoted output), ("uris", .list (component.outputUris output))]

/-- Runs the recipe in a file. What was asked for besides is written only if the run has ended well,
in the order report, figures as notes, figures as JSON, exposition. -/
def performRun (path : String) (options : RunOptions) : Step m Unit := do
  let p ← buildFrom host path
  let runId ← options.runId.elim (newRunId host) pure
  let (outcome, runner) ← ExceptT.lift ((Runner.forPipeline p).run host p runId)
  let report ← ExceptT.mk (pure outcome)
  noteOutputs report
  if let some path := options.report then
    writeFile host "Failed to create run report: " path (Json.pretty report.datum)
    note .info "Run report written" [("report", .plain path)]
  if options.printMetrics then
    onStore (modify fun s => s.noteAll runner.metrics.events)
  if let some path := options.metricsJson then
    writeFile host "Failed to create metrics file: " path (Json.pretty runner.metrics.datum)
    note .info "Metrics JSON written" [("metrics", .plain path)]
  if let some path := options.metricsExposition then
    writeFile host "Failed to write Prometheus metrics: " path runner.metrics.exposition
    note .info "Prometheus metrics written" [("metrics", .plain path)]
  note .info "Pipeline run completed" [("pipeline", .quoted p.name), ("run_id", .quoted runId)]

/-- Validates the recipe in a file. -/
def performValidate (path : String) : Step m Unit := do
  let recipe ← attempt (Recipe.load host path)
  let report ← inspect host recipe
  noteReport path report "Recipe validation passed"
  if !report.isOk then
    throw (.sentence s!"Recipe validation failed with {report.errors.length} error(s)")

/-- Writes the plan of the recipe in a file. -/
def performPlan (path output : String) : Step m Unit := do
  let p ← buildFrom host path
  let now : Nat ← outside (host .time : m Nat)
  let plan := p.plan (← get) ⟨now⟩
  attempt (plan.write host output)
  note .info "Execution plan written"
    [("plan", .plain output), ("components", .count plan.stages.length)]

/-- The files that fit a pattern, of which there has to be one. -/
def matchingFiles (text : String) : Step m (List String) := do
  match Glob.Pattern.ofText text with
  | .error e => throw ⟨["Invalid glob pattern: " ++ text], .text e.message⟩
  | .ok pattern => do
    let paths ← attempt (Glob.find host pattern).run
    let files ← paths.filterM fun path => outside (host (.isFile path) : m Bool)
    if files.isEmpty then throw (.sentence ("No recipes matched pattern: " ++ text))
    pure files

/-- Validates the recipe in a file as one of many; tells whether it has passed. A file that cannot
be read is noted and counted as one that has not, so the others are still looked at. -/
def lintFile (path : String) : Step m Bool := do
  match ← outside (Recipe.load host path) with
  | .error f => do
    note .error ("Failed to load recipe: " ++ f.text) [("file", .plain path)]
    pure false
  | .ok recipe => do
    let report ← inspect host recipe
    noteReport path report "Lint passed"
    pure report.isOk

/-- Validates the recipes in all files that fit the patterns. All patterns are looked up first, so
that a pattern without a file ends the command before anything is validated. -/
def performLint (patterns : List String) : Step m Unit := do
  let files := (← patterns.mapM (matchingFiles host)).flatten
  if files.isEmpty then throw (.sentence "No recipe files supplied for linting")
  let passed ← files.mapM (lintFile host)
  let failures := passed.countP (!·)
  if 0 < failures then throw (.sentence s!"Lint failed for {failures} recipe(s)")
  note .info "All recipe lint checks passed" []

/-- What a command does; the result is printed. -/
def Command.perform : Command → Step m String
  | run recipe options => do
    performRun host recipe options
    pure ""
  | listKinds => pure (kindList Builtin.registry)
  | validate recipe => do
    performValidate host recipe
    pure ""
  | plan recipe output => do
    performPlan host recipe output
    pure ""
  | lint patterns => do
    performLint host patterns
    pure ""

/-- The program on a command line. -/
def program (arguments : List String) : StateT Store m Exit := do
  match Command.ofArguments arguments with
  | .error stop => pure stop.exit
  | .ok command =>
    match ← (command.perform host).run with
    | .ok output => pure { code := 0, output }
    | .error f => pure { code := 1, fault := some f }

end

end TypedPipeline.CommandLine
