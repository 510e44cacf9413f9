import TypedPipeline.Scalar

/-!
# Artifact types

An artifact type is known by its name. A registry holds the types that a recipe may mention; names
of scalar types stand for those.

## Implementation notes

The type carries the proof that its name is well formed, so no other module checks names of types
again. A registry is a map under names and carries the proof that each type stands under its own
name; with it, the name of what is looked up is known without looking at the registry.

Scalar types have names as well, and where a name may stand for either, the scalar type comes first.

## Main definitions

* `ArtifactType` — a type, whose name is well formed
* `TypeRegistry` — the registered types
* `TypeRegistry.register?`, `TypeRegistry.lookup?`, `TypeRegistry.resolve?`
-/

namespace TypedPipeline

/-- Whether a text may be the name of a type: a letter, then letters, digits and underscores. -/
def isTypeName (name : String) : Bool :=
  match name.toList with
  | [] => false
  | c :: rest => c.isAlpha && rest.all fun c => c.isAlphanum || c == '_'

/-- The type of an artifact. It is its name and nothing else. -/
structure ArtifactType where
  name : String
  wellNamed : isTypeName name
deriving DecidableEq

/-- The type of a field of a contract. -/
inductive FieldType where
  | artifact (type : ArtifactType)
  | scalar (type : ScalarType)
deriving DecidableEq

/-- The name of the type of a field. -/
def FieldType.name : FieldType → String
  | artifact type => type.name
  | scalar type => type.name

/-- The registered types, by name. -/
structure TypeRegistry where
  types : TextMap ArtifactType
  /-- Every type is found under its own name. -/
  named : ∀ key type, types.find? key = some type → type.name = key

namespace TypeRegistry

/-- The registry without types. -/
def empty : TypeRegistry := ⟨.empty, by simp⟩

instance : Inhabited TypeRegistry := ⟨empty⟩

/-- The registered type with a name. -/
def lookup? (r : TypeRegistry) (name : String) : Option ArtifactType := r.types.find? name

/-- Whether a type with the name is registered. -/
def contains (r : TypeRegistry) (name : String) : Bool := r.types.contains name

/-- The names of the registered types, in order. -/
def names (r : TypeRegistry) : List String := r.types.keys

/-- Registers a type under its name. A type with this name is the same type, so nothing is
replaced. -/
def add (r : TypeRegistry) (type : ArtifactType) : TypeRegistry where
  types := r.types.insert type.name type
  named key t h := by
    rw [SortedMap.find?_insert] at h
    split at h
    · rename_i hk
      cases h
      exact hk.symm
    · exact r.named key t h

/-- Registers the type with a name, and gives the type; a name that is registered stays as it is.
Nothing is registered under a name that is not well formed. -/
def register? (r : TypeRegistry) (name : String) : Option (ArtifactType × TypeRegistry) :=
  match r.lookup? name with
  | some type => some (type, r)
  | none =>
    if h : isTypeName name then some (⟨name, h⟩, r.add ⟨name, h⟩) else none

/-- The type that a name stands for: a scalar type, or else a registered type. -/
def resolve? (r : TypeRegistry) (name : String) : Option FieldType :=
  match ScalarType.ofName? name with
  | some type => some (.scalar type)
  | none => (r.lookup? name).map .artifact

theorem lookup?_name {r : TypeRegistry} {name : String} {type : ArtifactType}
    (h : r.lookup? name = some type) : type.name = name :=
  r.named name type h

end TypeRegistry

end TypedPipeline
