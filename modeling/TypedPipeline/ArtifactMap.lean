import TypedPipeline.Json
import TypedPipeline.Json.Read
import TypedPipeline.Store

/-!
# Maps of artifacts as JSON

Artifacts under names are handed on as JSON texts of their records. Reading gives every artifact a
new number and no staging location.

## Implementation notes

What is written of an artifact is its record: the name of its type, its location and its properties.
Numbers and staging locations belong to a store and a run and are of no use to a reader.

A text is read in two steps. First all records are decoded, and only if every one of them can be are
artifacts made, in the order of the text. A record with a type that is not registered is noticed in
the second step; then the numbers of the artifacts before it have been given out already, and the
store keeps them.

## Main definitions

* `ArtifactRecord.datum`, `ArtifactRecord.ofJson?` — one record
* `ArtifactMap.jsonText`, `ArtifactMap.ofJsonText` — a whole map
-/

namespace TypedPipeline

/-- Artifacts under names. -/
abbrev ArtifactMap := TextMap (List Artifact)

namespace ArtifactRecord

/-- A record as plain data; a location that is absent is left out. -/
def datum (r : ArtifactRecord) : Datum :=
  let uri :=
    match r.uri with
    | none => []
    | some uri => [("uri", Datum.string uri)]
  .object (("type_name", .string r.typeName) :: uri ++
    [("properties", Datum.ofParameters r.properties)])

/-- The record of a JSON tree. Location and properties may be absent. -/
def ofJson? (t : JsonTree) : Option ArtifactRecord := do
  match ← t.record? ["type_name", "uri", "properties"] with
  | [some typeName, uri, properties] =>
    let typeName ← typeName.textValue?
    let uri ←
      match uri with
      | none => some none
      | some v => v.optional? JsonTree.textValue?
    let properties ←
      match properties with
      | none => some .empty
      | some v => v.parameters?
    some ⟨typeName, uri, properties⟩
  | _ => none

end ArtifactRecord

namespace Store

/-- A new artifact with location and properties of a record, if its type is registered. The location
counts as written, so the artifact is populated if the record has one. -/
def ofRecord (types : TypeRegistry) (r : ArtifactRecord) : StoreM ContractError Artifact :=
  match types.lookup? r.typeName with
  | none => throw (.unknownType r.typeName)
  | some type => StoreM.run' fun s => s.newArtifact type none ⟨r.uri, r.properties⟩

end Store

namespace ArtifactMap

/-- The records of a map, as plain data. -/
def datum (s : Store) (m : ArtifactMap) : Datum :=
  .object (m.entries.map fun e => (e.1, .array (e.2.map fun a => (s.record a).datum)))

/-- The text that is handed on. -/
def jsonText (s : Store) (m : ArtifactMap) : String := Json.compact (datum s m)

/-- New artifacts for the records of a list of entries, by rising name. -/
def ofRecords (types : TypeRegistry) :
    List (String × List ArtifactRecord) → StoreM ContractError (List (String × List Artifact))
  | [] => pure []
  | (name, records) :: rest => do
    let artifacts ← records.mapM (Store.ofRecord types)
    let others ← ofRecords types rest
    pure ((name, artifacts) :: others)

/-- The map that a text describes, with new artifacts. -/
def ofJsonText (types : TypeRegistry) (text : String) : StoreM Cause ArtifactMap := fun s =>
  match (JsonTree.ofText? text).bind (JsonTree.map? (JsonTree.list? ArtifactRecord.ofJson?)) with
  | none => (.error .json, s)
  | some records =>
    match ofRecords types records.entries s with
    | (.ok entries, s) => (.ok (.ofList entries), s)
    | (.error e, s) => (.error (.contract e), s)

end ArtifactMap

end TypedPipeline
