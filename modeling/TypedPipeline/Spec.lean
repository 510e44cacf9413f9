import TypedPipeline.Channel
import TypedPipeline.Digest.Sha256
import TypedPipeline.Text.Blank

/-!
# Contracts of component kinds

A kind of component declares what it reads, what it writes and which parameters it takes. The
declaration is made once; every component of the kind is checked against it.

## Implementation notes

A declaration is one list of fields, in the order in which they were written; inputs, outputs and
parameters are parts of this list. That a contract is sound is a field of it, so no contract with a
blank name or a name declared twice can be had. `Spec.ofFields` is the only way to make one from
fields that are not known to be sound.

Checks report the first thing that is wrong, in a fixed order: names before types, inputs before
outputs, outputs before parameters. Among missing names the first declared one is reported, among
unexpected ones the first supplied one. Types of channels are compared by name.

Inputs and outputs are channels at this point and not yet artifacts. A contract is thus checked
once, when a component is built, and never again during a run.

## The digested text

The digest is taken of the kind and of one piece of text for each field, grouped by part. Within a
part fields keep their order, and the order of the parts is fixed. Names are put into the text as
they are.

## Main definitions

* `Field`, `Spec` — the declaration
* `Spec.ofFields` — a declaration, or its first flaw
* `Spec.validate` — the check of channels and parameters
* `Spec.fingerprint` — a digest that changes with the declaration
-/

namespace TypedPipeline

/-- A declared field. Inputs and outputs are artifacts, parameters are scalars, and the constructor
says which of them a field is. -/
inductive Field where
  | input (name : String) (type : ArtifactType)
  | output (name : String) (type : ArtifactType)
  | parameter (name : String) (type : ScalarType)
deriving DecidableEq

namespace Field

/-- The name of a field. -/
def name : Field → String
  | input name _ => name
  | output name _ => name
  | parameter name _ => name

/-- The part of the contract to which a field belongs. -/
def part : Field → Part
  | input _ _ => .input
  | output _ _ => .output
  | parameter _ _ => .parameter

/-- The type of a field. -/
def type : Field → FieldType
  | input _ type => .artifact type
  | output _ type => .artifact type
  | parameter _ type => .scalar type

/-- The first flaw of fields, `seen` being the names before them: a blank name, or a name that was
seen already. Names are compared as they are and not trimmed. -/
def flaw? (seen : List String) : List Field → Option SpecFlaw
  | [] => none
  | f :: rest =>
    if Text.isBlankText f.name then some (.emptyName f.part)
    else if seen.contains f.name then some (.repeated f.name)
    else flaw? (f.name :: seen) rest

end Field

/-- The first flaw of a declaration. -/
def SpecFlaw.of? (kind : String) (fields : List Field) : Option SpecFlaw :=
  if Text.isBlankText kind then some .emptyKind else Field.flaw? [] fields

/-- The contract of a kind of component. -/
structure Spec where
  kind : String
  /-- All fields, as they were declared. -/
  fields : List Field
  /-- Kind and names are not blank, and no name is declared twice. -/
  sound : SpecFlaw.of? kind fields = none
deriving DecidableEq

namespace Spec

/-- A contract of declared fields, or the first flaw of the declaration. -/
def ofFields (kind : String) (fields : List Field) : Except ContractError Spec :=
  match h : SpecFlaw.of? kind fields with
  | some flaw => .error (.invalidSpec kind flaw)
  | none => .ok ⟨kind, fields, h⟩

/-- The declared inputs with their types. -/
def inputs (s : Spec) : List (String × ArtifactType) :=
  s.fields.filterMap fun
    | .input name type => some (name, type)
    | _ => none

/-- The declared outputs with their types. -/
def outputs (s : Spec) : List (String × ArtifactType) :=
  s.fields.filterMap fun
    | .output name type => some (name, type)
    | _ => none

/-- The declared parameters with their types. -/
def parameters (s : Spec) : List (String × ScalarType) :=
  s.fields.filterMap fun
    | .parameter name type => some (name, type)
    | _ => none

/-- The type of a declared output. -/
def outputType? (s : Spec) (name : String) : Option ArtifactType := s.outputs.lookup name

/-! ### Fingerprint -/

/-- A field in the text that is digested. -/
def fieldText (part : Part) (name typeName : String) : String :=
  "\x00" ++ part.name ++ ":" ++ name ++ ":" ++ typeName

/-- The text that is digested: the kind, and the inputs, outputs and parameters in this order. -/
def digested (s : Spec) : String :=
  s.kind ++ String.join (
    (s.inputs.map fun f => fieldText .input f.1 f.2.name) ++
    (s.outputs.map fun f => fieldText .output f.1 f.2.name) ++
    (s.parameters.map fun f => fieldText .parameter f.1 f.2.name))

/-- The digest of the declaration. -/
def fingerprint (s : Spec) : String := Sha256.ofText s.digested

/-! ### Validation -/

/-- Checks that exactly the declared names are supplied: the first declared one that is missing is
reported, otherwise the first supplied one that is not declared. -/
def checkNames (component : Option String) (part : Part) (declared supplied : List String) :
    Except ContractError Unit :=
  match declared.find? fun name => !supplied.contains name with
  | some name => .error (.specValidation (.field component name) (.missing part))
  | none =>
    match supplied.find? fun name => !declared.contains name with
    | some name => .error (.specValidation (.field component name) (.unexpected part))
    | none => .ok ()

/-- Checks that every supplied channel has the declared type. -/
def checkTypes (component : Option String) (supplied : TextMap Channel) :
    List (String × ArtifactType) → Except ContractError Unit
  | [] => .ok ()
  | (name, type) :: rest =>
    match supplied.find? name with
    | none => checkTypes component supplied rest
    | some c =>
      if type.name = c.type.name then checkTypes component supplied rest
      else .error (.typeMismatch (.field component name) type.name c.type.name)

/-- Checks names and types of channels. -/
def checkChannels (component : Option String) (part : Part)
    (declared : List (String × ArtifactType)) (supplied : TextMap Channel) :
    Except ContractError Unit := do
  checkNames component part (declared.map Prod.fst) supplied.keys
  checkTypes component supplied declared

/-- The parameters as values of the declared types. Declared parameters that are not supplied are
left out; that none is missing has been checked before. -/
def coerceAll (component : Option String) (supplied : Parameters) :
    List (String × ScalarType) → Except ContractError Parameters
  | [] => .ok .empty
  | (name, type) :: rest =>
    match supplied.find? name with
    | none => coerceAll component supplied rest
    | some v =>
      match v.coerce? type with
      | none =>
        .error (.specValidation (.field component name) (.incompatible type v.type))
      | some v => do .ok ((← coerceAll component supplied rest).insert name v)

/-- Checks channels and parameters against the contract, and gives the parameters in their declared
types. `component` stands in messages only. -/
def validate (s : Spec) (component : Option String) (inputs outputs : TextMap Channel)
    (parameters : Parameters) : Except ContractError Parameters := do
  checkChannels component .input s.inputs inputs
  checkChannels component .output s.outputs outputs
  checkNames component .parameter (s.parameters.map Prod.fst) parameters.keys
  coerceAll component parameters s.parameters

end Spec

end TypedPipeline
