import TypedPipeline.Proofs.Spec

/-!
# What a contract gives back

A contract that accepts channels and parameters gives the parameters back, each as a value of its
declared type. Parameters that have their declared types already are given back as they are, so a
second validation changes nothing.

The checks look names up in what is supplied, and a look-up that finds nothing is passed over. In
the right order this never happens, since names are compared first. To say so, the checks are
written once more with look-ups that end everything if they find nothing; they come to the same end.

## Implementation notes

The second set of checks is a device of this module, and no program part uses it. A look-up that
finds nothing is a failure there, written as an error that is none of the reports. If the two sets
agree on all arguments, no such failure ever happens, and so the look-ups that are passed over in
the first set are never made in vain. The equation is proved check by check, and each time the
comparison of names that comes first is the hypothesis.

Integers stand for floats up to `2 ^ 53`, and that such an integer is a float without loss is a
matter of rounding that is settled elsewhere. Here only the bound counts.

## Main definitions

* `Scalar.Fits` — which values stand for a declared type
* `Spec.Typed` — the declared parameters with values of the declared types
* `Spec.validateDemanding` — the checks with look-ups that have to find something

## Main results

* `Spec.find?_coerceAll` — the parameters that are given back
* `Spec.validateDemanding_eq` — no look-up finds nothing
* `Spec.validate_accepts_exactly` — what is accepted, and what is given back
-/

namespace TypedPipeline

/-! ### Values of declared types

Only one value may have another type than the declared one: an integer where a float is declared.
All the others have to have the type that is declared for them. -/

namespace Scalar

variable {v v' : Scalar} {declared : ScalarType}

/-- A value stands for a declared type if it has that type, or if a float is declared and it is an
integer of at most `2 ^ 53` in magnitude. -/
def Fits (v : Scalar) (declared : ScalarType) : Prop :=
  v.type = declared ∨ declared = .float ∧ ∃ n : Int64, v = .integer n ∧ n.toInt.natAbs ≤ 2 ^ 53

/-- These are the values that are taken. All others are refused, whatever their text may be. -/
theorem isSome_coerce?_iff : (v.coerce? declared).isSome ↔ v.Fits declared := by
  have hlimit : exactLimit = 2 ^ 53 := rfl
  cases v <;> cases declared <;> grind [coerce?, Fits, type]

theorem coerce?_of_type (h : v.type = declared) : v.coerce? declared = some v := if_pos h

theorem type_of_coerce? (h : v.coerce? declared = some v') : v'.type = declared := by
  unfold coerce? at h
  split at h
  · rename_i htype
    cases h
    exact htype
  · split at h
    · split at h
      · cases h
        rfl
      · cases h
    · cases h

end Scalar

namespace Spec

variable {component : Option String} {supplied resolved : Parameters}
  {declared : List (String × ScalarType)}

/-! ### Parameters that are given back

What is given back is made anew, name by name, from the declaration. So nothing is given back under
any other name. -/

/-- Nothing is given back under a name that is not declared. The checks of names are not needed for
this. -/
theorem find?_coerceAll_of_not_mem (h : coerceAll component supplied declared = .ok resolved)
    {name : String} (hname : ∀ f ∈ declared, f.1 ≠ name) : resolved.find? name = none := by
  induction declared generalizing resolved with
  | nil =>
    cases h
    rfl
  | cons f rest ih =>
    rw [List.forall_mem_cons] at hname
    rcases coerceAll_cons_ok_iff.mp h with ⟨-, hrest⟩ | ⟨v, v', others, -, -, hrest, rfl⟩
    · exact ih hrest hname.2
    · rw [SortedMap.find?_insert, if_neg hname.1.symm]
      exact ih hrest hname.2

/-- What is given back under a declared name is what was supplied, as a value of the declared
type. -/
theorem find?_coerceAll (hdeclared : (declared.map Prod.fst).Nodup)
    (h : coerceAll component supplied declared = .ok resolved) {f : String × ScalarType}
    (hf : f ∈ declared) : resolved.find? f.1 = (supplied.find? f.1).bind (·.coerce? f.2) := by
  induction declared generalizing resolved with
  | nil => cases hf
  | cons g rest ih =>
    rw [List.map_cons, List.nodup_cons] at hdeclared
    have hlater : ∀ g' ∈ rest, g'.1 ≠ g.1 := by
      intro g' hg' hname
      exact hdeclared.1 (List.mem_map.mpr ⟨g', hg', hname⟩)
    rcases coerceAll_cons_ok_iff.mp h with ⟨hnone, hrest⟩ | ⟨v, v', others, hv, hv', hrest, rfl⟩
    · rcases List.mem_cons.mp hf with rfl | hf
      · rw [find?_coerceAll_of_not_mem hrest hlater, hnone, Option.bind_none]
      · exact ih hdeclared.2 hrest hf
    · rw [SortedMap.find?_insert]
      rcases List.mem_cons.mp hf with rfl | hf
      · rw [if_pos rfl, hv, Option.bind_some, hv']
      · rw [if_neg (hlater f hf)]
        exact ih hdeclared.2 hrest hf

/-- The parameters are exactly the declared ones, and each has its declared type. -/
structure Typed (s : Spec) (parameters : Parameters) : Prop where
  names : NamesAgree s.parameters parameters
  types : ∀ f ∈ s.parameters, ∀ v, parameters.find? f.1 = some v → v.type = f.2

/-- Parameters of declared types are given back as they are. It is here that equality of sorted maps
is used: they are the same if they have the same under every name. -/
theorem coerceAll_of_typed {s : Spec} (h : s.Typed supplied) :
    coerceAll component supplied s.parameters = .ok supplied := by
  have hfits : ∀ f ∈ s.parameters, ∀ v, supplied.find? f.1 = some v →
      (v.coerce? f.2).isSome := by
    intro f hf v hv
    rw [Scalar.coerce?_of_type (h.types f hf v hv)]
    rfl
  obtain ⟨resolved, hresolved⟩ := (exists_coerceAll_iff component).mpr hfits
  have hsame : resolved = supplied := by
    refine SortedMap.ext_find? fun name => ?_
    cases hname : supplied.find? name with
    | none =>
      refine find?_coerceAll_of_not_mem hresolved ?_
      rintro f hf rfl
      obtain ⟨v, hv⟩ := (h.names f.1).mpr ⟨f.2, hf⟩
      cases hname.symm.trans hv
    | some v =>
      obtain ⟨type, htype⟩ := (h.names name).mp ⟨v, hname⟩
      have hfind := find?_coerceAll s.nodup_parameters hresolved htype
      rw [hname, Option.bind_some] at hfind
      rw [hfind, Scalar.coerce?_of_type (h.types _ htype v hname)]
  rw [hresolved, hsame]

/-- What is given back for the declared names has the declared types. Together with the lemma before
it, a second validation has nothing left to do. -/
theorem typed_of_coerceAll {s : Spec} (hnames : NamesAgree s.parameters supplied)
    (h : coerceAll component supplied s.parameters = .ok resolved) : s.Typed resolved := by
  constructor
  · intro name
    constructor
    · rintro ⟨v, hv⟩
      by_contra hnone
      have hname : ∀ f ∈ s.parameters, f.1 ≠ name := by
        rintro f hf rfl
        exact hnone ⟨f.2, hf⟩
      rw [find?_coerceAll_of_not_mem h hname] at hv
      cases hv
    · rintro ⟨type, htype⟩
      obtain ⟨v, hv⟩ := (hnames name).mpr ⟨type, htype⟩
      have hcoerce := (exists_coerceAll_iff component).mp ⟨resolved, h⟩ _ htype v hv
      obtain ⟨v', hv'⟩ := Option.isSome_iff_exists.mp hcoerce
      refine ⟨v', ?_⟩
      rw [find?_coerceAll s.nodup_parameters h htype, hv, Option.bind_some, hv']
  · intro f hf v' hv'
    rw [find?_coerceAll s.nodup_parameters h hf] at hv'
    obtain ⟨v, -, hcoerce⟩ := Option.bind_eq_some_iff.mp hv'
    exact Scalar.type_of_coerce? hcoerce

/-! ### Look-ups that have to find something

Each definition is one of the checks, with `demand` in place of a look-up. All else is kept, the
order of the checks as well. -/

/-- What is stored under a name. If nothing is, that is a failure without an error. -/
def demand {α : Type} (m : TextMap α) (name : String) : Except (Option ContractError) α :=
  match m.find? name with
  | some a => .ok a
  | none => .error none

/-- `checkTypes` with look-ups that have to find something. -/
def checkTypesDemanding (component : Option String) (supplied : TextMap Channel) :
    List (String × ArtifactType) → Except (Option ContractError) Unit
  | [] => .ok ()
  | (name, type) :: rest => do
    let c ← demand supplied name
    if type.name = c.type.name then checkTypesDemanding component supplied rest
    else .error (some (.typeMismatch (.field component name) type.name c.type.name))

/-- `checkChannels` with look-ups that have to find something. -/
def checkChannelsDemanding (component : Option String) (part : Part)
    (declared : List (String × ArtifactType)) (supplied : TextMap Channel) :
    Except (Option ContractError) Unit := do
  (checkNames component part (declared.map Prod.fst) supplied.keys).mapError some
  checkTypesDemanding component supplied declared

/-- `coerceAll` with look-ups that have to find something. -/
def coerceAllDemanding (component : Option String) (supplied : Parameters) :
    List (String × ScalarType) → Except (Option ContractError) Parameters
  | [] => .ok .empty
  | (name, type) :: rest => do
    let v ← demand supplied name
    match v.coerce? type with
    | none => .error (some (.specValidation (.field component name) (.incompatible type v.type)))
    | some v => do .ok ((← coerceAllDemanding component supplied rest).insert name v)

/-- `validate` with look-ups that have to find something. -/
def validateDemanding (s : Spec) (component : Option String) (inputs outputs : TextMap Channel)
    (parameters : Parameters) : Except (Option ContractError) Parameters := do
  checkChannelsDemanding component .input s.inputs inputs
  checkChannelsDemanding component .output s.outputs outputs
  (checkNames component .parameter (s.parameters.map Prod.fst) parameters.keys).mapError some
  coerceAllDemanding component parameters s.parameters

/-- Every declared name is there once names have been compared. So to demand it is to find it. -/
theorem demand_of_checkNames {α β : Type} {part : Part} {declared : List (String × β)}
    {supplied : TextMap α}
    (h : checkNames component part (declared.map Prod.fst) supplied.keys = .ok ()) :
    ∀ f ∈ declared, ∃ a, supplied.find? f.1 = some a ∧ demand supplied f.1 = .ok a := by
  intro f hf
  obtain ⟨a, ha⟩ := ((namesAgree_iff component part).mpr h f.1).mpr ⟨f.2, hf⟩
  exact ⟨a, ha, by rw [demand, ha]⟩

theorem checkTypesDemanding_eq {supplied : TextMap Channel}
    {declared : List (String × ArtifactType)}
    (h : ∀ f ∈ declared, ∃ c, supplied.find? f.1 = some c ∧ demand supplied f.1 = .ok c) :
    checkTypesDemanding component supplied declared =
      (checkTypes component supplied declared).mapError some := by
  induction declared with
  | nil => rfl
  | cons f rest ih =>
    rw [List.forall_mem_cons] at h
    obtain ⟨⟨c, hfind, hdemand⟩, hrest⟩ := h
    rw [checkTypesDemanding, checkTypes, hfind, hdemand]
    by_cases htype : f.2.name = c.type.name
    · simpa [bind, Except.bind, htype] using ih hrest
    · simp [bind, Except.bind, htype, Except.mapError]

theorem coerceAllDemanding_eq
    (h : ∀ f ∈ declared, ∃ v, supplied.find? f.1 = some v ∧ demand supplied f.1 = .ok v) :
    coerceAllDemanding component supplied declared =
      (coerceAll component supplied declared).mapError some := by
  induction declared with
  | nil => rfl
  | cons f rest ih =>
    rw [List.forall_mem_cons] at h
    obtain ⟨⟨v, hfind, hdemand⟩, hrest⟩ := h
    rw [coerceAllDemanding, coerceAll, hfind, hdemand, ih hrest]
    cases hcoerce : v.coerce? f.2 with
    | none => simp [bind, Except.bind, hcoerce, Except.mapError]
    | some v' =>
      cases coerceAll component supplied rest <;>
        simp [bind, Except.bind, hcoerce, Except.mapError]

theorem checkChannelsDemanding_eq {part : Part} {supplied : TextMap Channel}
    {declared : List (String × ArtifactType)} :
    checkChannelsDemanding component part declared supplied =
      (checkChannels component part declared supplied).mapError some := by
  rw [checkChannelsDemanding, checkChannels]
  cases hnames : checkNames component part (declared.map Prod.fst) supplied.keys with
  | error e => rfl
  | ok done => exact checkTypesDemanding_eq (demand_of_checkNames hnames)

/-- No look-up of a validation finds nothing. Both sets of checks come to the same end on all
arguments, also on those that are refused. -/
theorem validateDemanding_eq (s : Spec) (component : Option String)
    (inputs outputs : TextMap Channel) (supplied : Parameters) :
    s.validateDemanding component inputs outputs supplied =
      (s.validate component inputs outputs supplied).mapError some := by
  rw [validateDemanding, validate, checkChannelsDemanding_eq, checkChannelsDemanding_eq]
  cases checkChannels component .input s.inputs inputs with
  | error e => rfl
  | ok done =>
    cases checkChannels component .output s.outputs outputs with
    | error e => rfl
    | ok done =>
      cases hnames : checkNames component .parameter (s.parameters.map Prod.fst) supplied.keys with
      | error e => rfl
      | ok done => exact coerceAllDemanding_eq (demand_of_checkNames hnames)

/-! ### What is accepted

The conditions do not mention the checks, nor the order in which they are made. -/

/-- Channels and parameters are accepted exactly if all names are the declared ones, the types of
channels have the declared names, and every parameter stands for its declared type. The parameters
that are given back are the declared ones and have their declared types; those that had them before
are the same, and to validate them once more gives the same parameters. No look-up finds nothing. -/
theorem validate_accepts_exactly (s : Spec) (component : Option String)
    (inputs outputs : TextMap Channel) (supplied : Parameters) :
    ((∃ parameters, s.validate component inputs outputs supplied = .ok parameters) ↔
        (NamesAgree s.inputs inputs ∧ NamesAgree s.outputs outputs ∧
          NamesAgree s.parameters supplied) ∧
        (∀ f ∈ s.inputs, ∀ c, inputs.find? f.1 = some c → f.2.name = c.type.name) ∧
        (∀ f ∈ s.outputs, ∀ c, outputs.find? f.1 = some c → f.2.name = c.type.name) ∧
        ∀ f ∈ s.parameters, ∀ v, supplied.find? f.1 = some v → v.Fits f.2) ∧
      (∀ parameters, s.validate component inputs outputs supplied = .ok parameters →
        s.Typed parameters ∧
        (∀ f ∈ s.parameters, ∀ v, supplied.find? f.1 = some v → v.type = f.2 →
          parameters.find? f.1 = some v) ∧
        s.validate component inputs outputs parameters = .ok parameters) ∧
      s.validateDemanding component inputs outputs supplied =
        (s.validate component inputs outputs supplied).mapError some := by
  refine ⟨?_, fun parameters h => ?_, s.validateDemanding_eq component inputs outputs supplied⟩
  · rw [exists_validate_iff component]
    simp only [Scalar.isSome_coerce?_iff]
    tauto
  · obtain ⟨hinputs, houtputs, hnames, hcoerce⟩ := validate_ok_iff.mp h
    have hagree := (namesAgree_iff component .parameter).mpr hnames
    have htyped := typed_of_coerceAll hagree hcoerce
    refine ⟨htyped, fun f hf v hv htype => ?_, validate_ok_iff.mpr ⟨hinputs, houtputs, ?_, ?_⟩⟩
    · rw [find?_coerceAll s.nodup_parameters hcoerce hf, hv, Option.bind_some,
        Scalar.coerce?_of_type htype]
    · exact (namesAgree_iff component .parameter).mp htyped.names
    · exact coerceAll_of_typed htyped

end Spec

/-! ### A contract with parameters

The second parameter is a string and is given back as it is. The bound for integers is met by the
first value that is tried and missed by the last one. -/

namespace Trainer

def rows : ArtifactType := ⟨"Rows", by decide⟩

def spec : Spec :=
  ⟨"trainer", [.parameter "rate" .float, .input "data" rows, .parameter "label" .string,
    .output "model" rows], by decide +kernel⟩

def inputs : TextMap Channel := .ofList [("data", ⟨⟨1⟩, rows⟩)]

def outputs : TextMap Channel := .ofList [("model", ⟨⟨2⟩, rows⟩)]

/-- The parameters as they are written. -/
def parameters (rate : Scalar) : Parameters := .ofList [("label", .string "a"), ("rate", rate)]

end Trainer

namespace Spec

/-- An integer is given back as a float where a float is declared, unless it is too great. -/
theorem validate_accepts_exactly_trainer :
    Trainer.spec.validate none Trainer.inputs Trainer.outputs (Trainer.parameters (.integer 3)) =
        .ok (Trainer.parameters (.float (.ofInt 3))) ∧
      Trainer.spec.Typed (Trainer.parameters (.float (.ofInt 3))) ∧
      Trainer.spec.validate none Trainer.inputs Trainer.outputs
          (Trainer.parameters (.float (.ofInt 3))) =
        .ok (Trainer.parameters (.float (.ofInt 3))) ∧
      ¬ ∃ p, Trainer.spec.validate none Trainer.inputs Trainer.outputs
          (Trainer.parameters (.integer 9007199254740993)) = .ok p := by
  have hok : Trainer.spec.validate none Trainer.inputs Trainer.outputs
      (Trainer.parameters (.integer 3)) = .ok (Trainer.parameters (.float (.ofInt 3))) := rfl
  obtain ⟨-, hback, -⟩ := validate_accepts_exactly Trainer.spec none Trainer.inputs Trainer.outputs
    (Trainer.parameters (.integer 3))
  obtain ⟨htyped, -, hagain⟩ := hback _ hok
  refine ⟨hok, htyped, hagain, ?_⟩
  rw [(validate_accepts_exactly Trainer.spec none Trainer.inputs Trainer.outputs _).1]
  intro h
  have hfits : (Scalar.integer 9007199254740993).Fits .float :=
    h.2.2.2 ("rate", .float) (by decide) _ rfl
  rcases hfits with h | ⟨-, n, hn, hle⟩
  · cases h
  · cases hn
    exact absurd hle (by decide)

end Spec

end TypedPipeline
