import TypedPipeline.Digest.Sha256
import TypedPipeline.Executor
import TypedPipeline.Json
import TypedPipeline.Json.Read
import TypedPipeline.Path
import TypedPipeline.Registry
import TypedPipeline.Text.Line

/-!
# Built-in kinds

Four kinds of components work on files: `file_import` takes a file in, `line_stats` counts its lines
and words, `checksum` digests its bytes, and `notify` writes a receipt about counted lines. Each
writes its file into the staging location of its output, and writes properties and location of the
output last, when nothing else can fail.

## Order of work

An executor may fail at any step, and what it did to its artifacts before is not taken back. So each
of the four kinds first reads its parameters and inputs, then works on files, and only then changes
its output: a property, and the location as the last step. Until then the output is blank, and a
component that has failed can be tried again.

Parameters come with their declared types, and a file may still be missing or not be what it should.
Such failures are told with the path, and with what the machine said.

The report of `line_stats` is what `notify` reads. Both ends are here, `LineStatistics.datum` and
`LineStatistics.ofJson?`, with the names of the figures in between. A reader takes fields it does
not know, and refuses a report in which one of the five is missing or is no natural of 64 bits.

## Main definitions

* `Builtin.LineStatistics` — the figures of `line_stats`
* `Builtin.fileImport`, `Builtin.lineStats`, `Builtin.checksum`, `Builtin.notify` — the executors
* `Builtin.registry` — a registry with the four kinds
-/

namespace TypedPipeline.Builtin

/-! ### Parameters

The contract has checked that parameters are there and of the right type, so these failures are for
those who call an executor without a contract. -/

/-- The failure of a parameter that is missing or has another type. -/
def wrongParameter (name : String) (expected : ScalarType) : ExecutionError :=
  .invalidParameter name s!"expected a {expected.name} value"

/-- A parameter of a type. -/
def parameter {α : Type} (parameters : Parameters) (name : String) (expected : ScalarType)
    (value? : Scalar → Option α) : Work α :=
  match (parameters.find? name).bind value? with
  | some v => .done v
  | none => .fail (wrongParameter name expected)

/-! ### Files

Each step asks for one action of the surroundings and turns its failure into one of the component.
-/

/-- The directory of an output, which is made if need be. Its path is the staging location of the
artifact, so no two outputs of a run have the same one. -/
def stagingDirectory (slot : Slot) : Work String :=
  .look slot fun
    | none => .refused slot .unpopulated
    | some view =>
      match view.artifact.staging with
      | none =>
        .fail (.other s!"Output artifact {view.artifact.id.text} has no staging location")
      | some dir => do
        let made ← Work.request (.createDirectories dir)
        Work.ofIo s!"Failed to create staging directory {dir}" made
        pure dir

/-- The path of the data of an input. -/
def inputPath (offer : Offer) (field : String) : Work String := do
  Work.requireUri (← offer.input field)

/-- The bytes of a file. -/
def readBytes (path : String) : Work ByteArray := do
  let bytes ← Work.request (.read path)
  Work.ofIo s!"Failed to read {path}" bytes

/-- The text of a file. -/
def readText (path : String) : Work String := do
  let bytes ← readBytes path
  Work.ofIo s!"Failed to read {path}" (Host.textOf? bytes)

/-- Makes a file. -/
def writeText (path text : String) : Work Unit := do
  let written ← Work.request (.write path text.toUTF8)
  Work.ofIo s!"Failed to write {path}" written

/-! ### `file_import` -/

/-- Copies the source into the staging location. -/
def fileImport : Executor := fun offer parameters => do
  let source ← parameter parameters "source" .string Scalar.string?
  let isFile : Bool ← Work.request (.isFile source)
  if !isFile then
    .fail (.invalidParameter "source" s!"'{source}' is not a readable file")
  else
    let data ← offer.output "data"
    let dir ← stagingDirectory data
    let destination := Path.join dir ((Path.fileName? source).getD "data")
    let copied ← Work.request (.copy source destination)
    let size ← Work.ofIo s!"Failed to copy {source} to {destination}" copied
    let size := Int64.ofInt (min (size : Int) (2 ^ 63 - 1))
    Work.apply data (.setProperty "size_bytes" (.integer size))
    Work.apply data (.setProperty "source" (.string source))
    Work.apply data (.setUri destination)

/-! ### `line_stats` -/

/-- The figures of a text. -/
structure LineStatistics where
  lines : Nat
  words : Nat
  bytes : Nat
  consideredLines : Nat
  sampledLines : Nat
deriving DecidableEq

namespace LineStatistics

/-- The figures as plain data. -/
def datum (s : LineStatistics) : Datum :=
  .object [("lines", .integer s.lines), ("words", .integer s.words), ("bytes", .integer s.bytes),
    ("considered_lines", .integer s.consideredLines),
    ("sampled_lines", .integer s.sampledLines)]

/-- The names of the figures. -/
def names : List String := ["lines", "words", "bytes", "considered_lines", "sampled_lines"]

/-- The figures that a text describes. -/
def ofJson? (text : String) : Option LineStatistics := do
  let tree ← JsonTree.ofText? text
  let fields ← tree.record? names
  match ← fields.mapM (fun f => f.bind JsonTree.natural64?) with
  | [lines, words, bytes, consideredLines, sampledLines] =>
    some ⟨lines, words, bytes, consideredLines, sampledLines⟩
  | _ => none

/-- The figures of a text: words are counted in the first `maxLines` lines, and `rate` of these
lines count as sampled. -/
def ofText (text : String) (maxLines : Nat) (rate : Binary64) : LineStatistics :=
  let lines := Text.lines text.toList
  let considered := lines.take maxLines
  { lines := lines.length
    words := (considered.map Text.wordCount).sum
    bytes := text.utf8ByteSize
    consideredLines := considered.length
    sampledLines := (Binary64.ofNat considered.length * rate).ceilNat }

end LineStatistics

/-- Whether a number lies between zero and one. What is no number does not, since it is not at least
zero. -/
def isRate (x : Binary64) : Bool := (Binary64.zero false).le x && x.le (.ofNat 1)

/-- Counts lines and words of the data. -/
def lineStats : Executor := fun offer parameters => do
  let maxLines ← parameter parameters "max_lines" .integer Scalar.integer?
  if maxLines.toInt ≤ 0 then
    .fail (.invalidParameter "max_lines" s!"must be positive, got {maxLines.toInt}")
  else
    let rate ← parameter parameters "sample_rate" .float Scalar.float?
    if !isRate rate then
      .fail (.invalidParameter "sample_rate"
        s!"must be within [0, 1], got {Scalar.floatText rate}")
    else
      let text ← readText (← inputPath offer "data")
      let stats := LineStatistics.ofText text maxLines.toInt.toNat rate
      let output ← offer.output "stats"
      let destination := Path.join (← stagingDirectory output) "stats.json"
      writeText destination (Json.pretty stats.datum)
      let lines := Int64.ofInt (min (stats.lines : Int) (2 ^ 63 - 1))
      Work.apply output (.setProperty "lines" (.integer lines))
      Work.apply output (.setUri destination)

/-! ### `checksum` -/

/-- Digests the bytes of the data. -/
def checksum : Executor := fun offer _ => do
  let source ← inputPath offer "data"
  let digest := Sha256.hex (← readBytes source)
  let output ← offer.output "digest"
  let destination := Path.join (← stagingDirectory output) "digest.sha256"
  let name := (Path.fileName? source).getD ""
  writeText destination s!"{digest}  {name}\n"
  Work.apply output (.setProperty "sha256" (.string digest))
  Work.apply output (.setUri destination)

/-! ### `notify` -/

/-- Writes a receipt about counted lines. -/
def notify : Executor := fun offer parameters => do
  let recipient ← parameter parameters "recipient" .string Scalar.string?
  if Text.isBlankText recipient then
    .fail (.invalidParameter "recipient" "cannot be empty")
  else
    let dryRun ← parameter parameters "dry_run" .boolean Scalar.boolean?
    let source ← inputPath offer "stats"
    match LineStatistics.ofJson? (← readText source) with
    | none => .fail (.other s!"Failed to parse statistics {source}: {jsonWording}")
    | some stats =>
      let message := s!"To {recipient}: dataset has {stats.lines} line(s), " ++
        s!"{stats.words} word(s) in the first {stats.consideredLines} line(s)"
      let status := if dryRun then "dry-run" else "delivered"
      let event : Event := {
        level := .info
        origin := .builtin
        message
        fields := [("recipient", .quoted recipient), ("status", .quoted status)] }
      .note event (.done ())
      let output ← offer.output "receipt"
      let destination := Path.join (← stagingDirectory output) "receipt.txt"
      writeText destination s!"{message}\nstatus: {status}\n"
      Work.apply output (.setProperty "delivered" (.boolean !dryRun))
      Work.apply output (.setUri destination)

/-! ### The registry

The kinds are ordinary kinds. A registry may have others beside them, or none of them. -/

/-- The artifact types of the built-in kinds. -/
def dataset : ArtifactType := ⟨"Dataset", by decide⟩

@[inherit_doc dataset]
def statistics : ArtifactType := ⟨"Statistics", by decide⟩

@[inherit_doc dataset]
def digest : ArtifactType := ⟨"Digest", by decide⟩

@[inherit_doc dataset]
def receipt : ArtifactType := ⟨"Receipt", by decide⟩

/-- The contract of `file_import`. -/
def fileImportSpec : Spec where
  kind := "file_import"
  fields := [.parameter "source" .string, .output "data" dataset]
  sound := by decide

/-- The contract of `line_stats`. -/
def lineStatsSpec : Spec where
  kind := "line_stats"
  fields := [.input "data" dataset, .parameter "max_lines" .integer,
    .parameter "sample_rate" .float, .output "stats" statistics]
  sound := by decide

/-- The contract of `checksum`. -/
def checksumSpec : Spec where
  kind := "checksum"
  fields := [.input "data" dataset, .output "digest" digest]
  sound := by decide

/-- The contract of `notify`. -/
def notifySpec : Spec where
  kind := "notify"
  fields := [.input "stats" statistics, .parameter "recipient" .string,
    .parameter "dry_run" .boolean, .output "receipt" receipt]
  sound := by decide

/-- A registry with the built-in kinds besides what it has already. -/
def register (r : Registry) : Registry :=
  let types := [dataset, statistics, digest, receipt].foldl TypeRegistry.add r.types
  let r : Registry := { r with types }
  (((r.register fileImportSpec fileImport).register lineStatsSpec lineStats).register
    checksumSpec checksum).register notifySpec notify

/-- The registry with the built-in kinds only. -/
def registry : Registry := register .empty

end TypedPipeline.Builtin
