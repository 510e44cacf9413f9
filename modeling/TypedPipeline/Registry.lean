import TypedPipeline.Component

/-!
# The registry of kinds

A registry holds the kinds of components that may be built, each with its contract and its executor,
and the types that they use. Nothing registers itself.

## Implementation notes

A registry carries the proof that every kind is found under the name in its own contract. So an
entry of a recipe that names a kind gets components whose contract has that name.

Registering a kind under a name in use replaces it. This does not reach the components that were
built of it, since a component has its contract and its executor in itself.

## Main definitions

* `Kind`, `Registry`
* `Registry.register`, `Registry.kind`
-/

namespace TypedPipeline

/-- A kind of component. -/
structure Kind where
  spec : Spec
  executor : Executor

/-- The kinds and types that may be used. -/
structure Registry where
  types : TypeRegistry
  kinds : TextMap Kind
  /-- Every kind is found under the name in its contract. -/
  named : ∀ key kind, kinds.find? key = some kind → kind.spec.kind = key

namespace Registry

/-- The registry without types and kinds. -/
def empty : Registry := ⟨.empty, .empty, by simp⟩

instance : Inhabited Registry := ⟨empty⟩

/-- Registers a kind under the name in its contract, over a kind of that name. -/
def register (r : Registry) (spec : Spec) (executor : Executor) : Registry where
  types := r.types
  kinds := r.kinds.insert spec.kind ⟨spec, executor⟩
  named key kind h := by
    rw [SortedMap.find?_insert] at h
    split at h
    · rename_i hk
      cases h
      exact hk.symm
    · exact r.named key kind h

/-- Registers a type by its name, and gives the type. -/
def registerType (r : Registry) (name : String) : Except ContractError (ArtifactType × Registry) :=
  match r.types.register? name with
  | some (type, types) => .ok (type, { r with types })
  | none => .error (.invalidTypeName name)

/-- The names of the kinds, in order. -/
def knownKinds (r : Registry) : List String := r.kinds.keys

/-- The message for a kind that is not registered. -/
def unknownKindText (r : Registry) (kind : String) : String :=
  s!"Unknown component kind '{kind}'. Available kinds: " ++ ", ".intercalate r.knownKinds

/-- The kind with a name. -/
def kind (r : Registry) (name : String) : Except Fault Kind :=
  match r.kinds.find? name with
  | some k => .ok k
  | none => .error (.sentence (r.unknownKindText name))

end Registry

end TypedPipeline
