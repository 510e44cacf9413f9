import TypedPipeline.ArtifactType
import TypedPipeline.Identifier

/-!
# What can go wrong

Each family of failures is a type of causes; the wording is in one function for each. A `Fault` is a
cause together with the circumstances in which it was met.

## Design

Failures are values, and those who meet one may ask which it is. The text is made at the end, for a
reader. So a cause has the data that belong to it, such as the field and the two types that do not
agree, and its text is made of them.

Circumstances are added from inside out: whoever passes a failure on may say what was being done. A
circumstance changes neither the cause nor whether there is a failure. On one line, all texts follow
each other, the outermost first. The report for people puts the outermost text on top and the others
below it.

Texts from other sources, such as what a parser says of a document, are not copied. In their place
stands one sentence for each kind of document.

## Main definitions

* `ContractError`, `ArtifactError`, `DagError`, `ExecutionError`, `IoError` — the families
* `Fault` — a cause inside its contexts
* `Fault.text`, `Fault.report` — a fault on one line, and as a report for people
-/

namespace TypedPipeline

/-! ### Contracts

A contract has three parts, and a failure names the part and the field. Where the component is
known, it is named as well. -/

/-- The parts of a contract. -/
inductive Part where
  | input
  | output
  | parameter
deriving DecidableEq

/-- The name of a part. -/
def Part.name : Part → String
  | input => "input"
  | output => "output"
  | parameter => "parameter"

/-- Where types disagree or a field is wrong. -/
inductive Place where
  | field (component : Option String) (name : String)
  | channel (id : ChannelId)
deriving DecidableEq

/-- The text of a place. -/
def Place.text : Place → String
  | field (some component) name => s!"{component}.{name}"
  | field none name => name
  | channel id => id.text

/-- How a set of fields differs from a declaration. -/
inductive Violation where
  | missing (part : Part)
  | unexpected (part : Part)
  | incompatible (declared actual : ScalarType)
  /-- An executor asks for an artifact under a name that it was not given. -/
  | missingArtifact
deriving DecidableEq

/-- The text of a violation. -/
def Violation.message : Violation → String
  | missing part => s!"missing declared {part.name}"
  | unexpected part => s!"undeclared {part.name} supplied"
  | incompatible declared actual =>
    s!"parameter literal of type '{actual.name}' is not accepted " ++
      s!"where '{declared.name}' is declared"
  | missingArtifact => "missing declared artifact"

/-- Why a declaration cannot be a contract. -/
inductive SpecFlaw where
  | emptyKind
  | emptyName (part : Part)
  | repeated (name : String)
deriving DecidableEq

/-- The text of a flaw. -/
def SpecFlaw.message : SpecFlaw → String
  | emptyKind => "component kind cannot be empty"
  | emptyName part => s!"{part.name} names cannot be empty"
  | repeated name => s!"field '{name}' is declared more than once"

/-- Failures of contracts, channels and names. -/
inductive ContractError where
  | typeMismatch (place : Place) (expected actual : String)
  | cardinality (typeName : String) (count : Nat)
  | specValidation (place : Place) (violation : Violation)
  | invalidSpec (kind : String) (flaw : SpecFlaw)
  | unknownType (name : String)
  | invalidTypeName (name : String)
  | invalidComponentName (name : String)
  | channelAlreadyProduced (channel : ChannelId) (producer : Producer)
deriving DecidableEq

/-- The text of a failure. -/
def ContractError.message : ContractError → String
  | typeMismatch place expected actual =>
    s!"type mismatch at '{place.text}': expected '{expected}', got '{actual}'"
  | cardinality typeName count =>
    s!"channel of type '{typeName}' holds {count} artifact(s); expected exactly one"
  | specValidation place violation =>
    s!"spec validation failed at '{place.text}': {violation.message}"
  | invalidSpec kind flaw => s!"invalid component spec '{kind}': {flaw.message}"
  | unknownType name => s!"unknown artifact type '{name}'"
  | invalidTypeName name => s!"invalid artifact type name '{name}'"
  | invalidComponentName name => s!"invalid component name '{name}'"
  | channelAlreadyProduced channel producer =>
    s!"channel {channel.text} is already produced by '{producer.text}'"

/-! ### Artifacts

Artifacts are told apart by their numbers, and a failure names the number. The change that was
refused is known to the one who has made it. -/

/-- Failures of artifacts. -/
inductive ArtifactError where
  | uriAlreadySet (id : ArtifactId) (uri : String)
  | sealed (id : ArtifactId)
  | unpopulated (id : ArtifactId)
  | invalidSplitName (name : String)
  | splitNotFound (split : String) (found : Nat)
deriving DecidableEq

/-- The text of a failure. -/
def ArtifactError.message : ArtifactError → String
  | uriAlreadySet id uri => s!"artifact {id.text} already has uri '{uri}'"
  | sealed id => s!"artifact {id.text} is populated; its properties are read-only"
  | unpopulated id => s!"artifact {id.text} has no uri yet"
  | invalidSplitName name =>
    "split names must be alphanumeric (dashes and underscores allowed after the first " ++
      s!"character); got '{name}'"
  | splitNotFound split found =>
    s!"expected exactly one artifact with split '{split}', found {found}"

/-! ### Wiring

What is wrong with components that are put together is said by their names. A cycle is the list of
names along it, and the first name is also the last one. -/

/-- Failures of the wiring of a pipeline. -/
inductive DagError where
  | duplicateName (name : String)
  | unresolvedChannel (component field : String) (channel : ChannelId) (typeName : String)
  | cycle (names : List String)
deriving DecidableEq

/-- The text of a failure. -/
def DagError.message : DagError → String
  | duplicateName name => s!"component name '{name}' is used more than once"
  | unresolvedChannel component field channel typeName =>
    s!"input '{component}.{field}' reads channel {channel.text} of type '{typeName}', " ++
      "which is neither a pipeline input nor produced by a component in this pipeline"
  | cycle names => "dependency cycle: " ++ " -> ".intercalate names

/-! ### Files

These are the failures of the machine that can be told apart. All others are kept as texts. -/

/-- Failures of file operations. -/
inductive IoError where
  | notFound
  | alreadyExists
  | notDirectory
  | isDirectory
  | nameTooLong
  /-- The bytes are no text. -/
  | notText
  /-- A path has a zero character. -/
  | zeroInPath
  /-- Any other failure, in the words of the system. -/
  | other (text : String)
deriving DecidableEq

/-- The text of a failure. -/
def IoError.message : IoError → String
  | notFound => "No such file or directory (os error 2)"
  | alreadyExists => "File exists (os error 17)"
  | notDirectory => "Not a directory (os error 20)"
  | isDirectory => "Is a directory (os error 21)"
  | nameTooLong => "File name too long (os error 36)"
  | notText => "stream did not contain valid UTF-8"
  | zeroInPath => "file name contained an unexpected NUL byte"
  | other text => text

/-! ### Runs

A component that is run may fail by itself, or because something was not as it should be before or
after it ran. Failures of the other families are wrapped, so a caller has one type to look at. -/

/-- Failures of a component that is run. -/
inductive ExecutionError where
  | io (context : String) (error : IoError)
  | invalidParameter (name reason : String)
  | external (text : String)
  | incompleteOutput (component output : String)
  | unpopulatedInput (component input : String)
  | artifact (error : ArtifactError)
  | contract (error : ContractError)
  | other (text : String)
deriving DecidableEq

/-- The text of a failure. -/
def ExecutionError.message : ExecutionError → String
  | io context error => s!"{context}: {error.message}"
  | invalidParameter name reason => s!"invalid parameter '{name}': {reason}"
  | external text => s!"external dependency failed: {text}"
  | incompleteOutput component output =>
    s!"component '{component}' left output '{output}' without a uri"
  | unpopulatedInput component input =>
    s!"component '{component}' input '{input}' has no populated artifact in this run"
  | artifact error => error.message
  | contract error => error.message
  | other text => text

/-! ### Faults

This is what most functions of the library end with. -/

/-- The cause of a fault. -/
inductive Cause where
  | contract (error : ContractError)
  | artifact (error : ArtifactError)
  | dag (error : DagError)
  | execution (error : ExecutionError)
  | io (error : IoError)
  /-- A text is not YAML, or not of the expected shape. -/
  | yaml
  /-- A text is not JSON, or not of the expected shape. -/
  | json
  | text (s : String)
deriving DecidableEq

/-- What is said of a text that is not the YAML that is expected. -/
def yamlWording : String := "the text is not YAML of the expected shape"

/-- What is said of a text that is not the JSON that is expected. -/
def jsonWording : String := "the text is not JSON of the expected shape"

/-- The texts of a cause, the outer one first. A failed file operation of a component is followed by
the failure of the operation itself. -/
def Cause.texts : Cause → List String
  | contract error => [error.message]
  | artifact error => [error.message]
  | dag error => [error.message]
  | execution (.io context error) => [(ExecutionError.io context error).message, error.message]
  | execution error => [error.message]
  | io error => [error.message]
  | yaml => [yamlWording]
  | json => [jsonWording]
  | text s => [s]

/-- A cause, and the circumstances in which it was met. -/
structure Fault where
  /-- The circumstances, the outermost first. -/
  contexts : List String
  cause : Cause
deriving DecidableEq

namespace Fault

/-- A fault without circumstances. -/
def of (cause : Cause) : Fault := ⟨[], cause⟩

/-- The fault of a sentence. -/
def sentence (s : String) : Fault := of (.text s)

/-- The fault inside one more circumstance. -/
def within (context : String) (f : Fault) : Fault := { f with contexts := context :: f.contexts }

/-- All texts, the outermost first. -/
def texts (f : Fault) : List String := f.contexts ++ f.cause.texts

/-- The fault on one line. -/
def text (f : Fault) : String := ": ".intercalate f.texts

/-- The lines of a text, joined again with an indentation before every line but the first. -/
def indented (indent : String) (s : String) : String := s.replace "\n" ("\n" ++ indent)

/-- Numbers flush right in five columns. -/
def rightAligned (n : Nat) : String :=
  let s := toString n
  String.ofList (List.replicate (5 - s.length) ' ') ++ s

/-- The fault as a report: the outermost text, and the others below it, numbered if there are
several. -/
def report (f : Fault) : String :=
  match f.texts with
  | [] => "Error: "
  | first :: rest =>
    let causes :=
      match rest with
      | [] => ""
      | [only] => "\n\nCaused by:\n    " ++ indented "    " only
      | _ =>
        "\n\nCaused by:" ++ String.join (rest.mapIdx fun i s =>
          "\n" ++ rightAligned i ++ ": " ++ indented "       " s)
    "Error: " ++ first ++ causes

end Fault

end TypedPipeline
