import TypedPipeline.CommandLine.Arguments

/-!
# Commands

The first argument names a command, and those behind it are read as this command needs them.
`recipe` has commands of its own behind it. Help can be asked for at each place, by an option or by
the command `help` with the name of another one.

## Main definitions

* `Command` — what the program can be asked for
* `Command.ofArguments` — the command of a command line
-/

namespace TypedPipeline.CommandLine

/-- What a run is asked for besides the recipe. -/
structure RunOptions where
  /-- The name of the run; one is made from the time if absent. -/
  runId : Option String := none
  /-- Whether the figures are noted. -/
  printMetrics : Bool := false
  /-- Where the figures go as JSON. -/
  metricsJson : Option String := none
  /-- Where the figures go as an exposition. -/
  metricsExposition : Option String := none
  /-- Where the report goes. -/
  report : Option String := none

/-- What the program can be asked for. -/
inductive Command where
  | run (recipe : String) (options : RunOptions)
  | listKinds
  | validate (recipe : String)
  | plan (recipe output : String)
  | lint (patterns : List String)

namespace Command

/-- What `run` takes. -/
def runShape : Shape where
  places := [.path]
  options := [("run-id", some .text), ("print-metrics", none), ("metrics-json", some .path),
    ("metrics-prometheus", some .path), ("report", some .path)]

/-- The command for a request for help: one of the lists of names, or nothing behind it. -/
def helpFor (known : List (List String)) (names : List String) : Stop :=
  if names.isEmpty || known.contains names then .help else .mistake

/-- The commands by their names. -/
def names : List (List String) :=
  [["run"], ["list-components"], ["validate"], ["plan"], ["recipe"], ["recipe", "lint"],
    ["recipe", "help"], ["help"]]

/-- Where reading stops if an argument is no name of a command. Only the program as a whole has a
version, so this request is a mistake behind `recipe`. -/
def unnamed (versioned : Bool) (s : String) : Stop :=
  match Reading.of s with
  | .option "help" none => .help
  | .option "version" none => if versioned then .version else .mistake
  | .letters 'h' => .help
  | .letters 'V' => if versioned then .version else .mistake
  | _ => .mistake

/-- The command for recipes. -/
def ofRecipeArguments : List String → Except Stop Command
  | "lint" :: rest => do
    .ok (.lint (← Shape.read { more := true } rest).places)
  | "help" :: names => .error (helpFor [["lint"], ["help"]] names)
  | s :: _ => .error (unnamed false s)
  | [] => .error .mistake

/-- The command of a command line. -/
def ofArguments : List String → Except Stop Command
  | "run" :: rest => do
    let a ← runShape.read rest
    .ok (.run (a.places.headD "") {
      runId := a.value? "run-id"
      printMetrics := a.has "print-metrics"
      metricsJson := a.value? "metrics-json"
      metricsExposition := a.value? "metrics-prometheus"
      report := a.value? "report" })
  | "list-components" :: rest => do
    let _ ← Shape.read {} rest
    .ok .listKinds
  | "validate" :: rest => do
    let a ← Shape.read { places := [.path] } rest
    .ok (.validate (a.places.headD ""))
  | "plan" :: rest => do
    let a ← Shape.read { places := [.path, .path] } rest
    .ok (.plan (a.places.headD "") (a.places.getD 1 ""))
  | "recipe" :: rest => ofRecipeArguments rest
  | "help" :: names => .error (helpFor Command.names names)
  | s :: _ => .error (unnamed true s)
  | [] => .error .mistake

end Command

end TypedPipeline.CommandLine
