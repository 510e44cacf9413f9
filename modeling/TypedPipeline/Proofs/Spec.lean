import TypedPipeline.Proofs.Component.Build

/-!
# What a contract accepts

Channels and parameters are accepted by a contract exactly if the names are the declared ones, the
types of channels have the declared names, and parameters can be taken as values of the declared
types. The order in which the checks are made decides only what is reported.

## Implementation notes

The checks report the first thing that is wrong and are written as recursions that stop there. For
acceptance the order is of no importance, and each check is turned into a statement about all fields
at once. Names are compared in both directions, so the supplied names are the declared ones as sets;
neither list holds a name twice, one by soundness of the contract and the other by being the keys of
a map.

The parameters that are given back are described elsewhere. Here it is only said when there are
some.

## Main definitions

* `Spec.NamesAgree` — exactly the declared names are supplied

## Main results

* `Spec.exists_validate_iff` — what is accepted
-/

namespace TypedPipeline

theorem SortedMap.mem_keys {κ α : Type} [KeyOrder κ] [DecidableEq κ] {m : SortedMap κ α} {key : κ} :
    key ∈ m.keys ↔ ∃ a, m.find? key = some a := by
  simp [keys, find?_eq_some_iff]

theorem ArtifactType.eq_of_name {type type' : ArtifactType} (h : type.name = type'.name) :
    type = type' := by
  cases type
  cases type'
  cases h
  rfl

/-- Fields have no flaw if their names are not blank and differ, also from the names before. With no
names before, this is what soundness of a contract says. -/
theorem Field.flaw?_eq_none_iff {seen : List String} {fields : List Field} :
    flaw? seen fields = none ↔ (∀ f ∈ fields, Text.isBlankText f.name = false ∧ f.name ∉ seen) ∧
      (fields.map name).Nodup := by
  induction fields generalizing seen with
  | nil => simp [flaw?]
  | cons f rest ih =>
    rw [flaw?, List.forall_mem_cons, List.map_cons, List.nodup_cons, List.mem_map]
    cases hblank : Text.isBlankText f.name with
    | true => simp
    | false =>
      by_cases hseen : f.name ∈ seen
      · simp [hseen]
      · simp only [Bool.false_eq_true, if_false, List.contains_eq_mem, decide_eq_true_eq, hseen, ih,
          List.mem_cons, not_or, not_false_eq_true, true_and]
        grind

namespace Spec

theorem nodup_names (s : Spec) : (s.fields.map Field.name).Nodup := by
  have hsound := s.sound
  rw [SpecFlaw.of?] at hsound
  split at hsound
  · cases hsound
  · exact (Field.flaw?_eq_none_iff.mp hsound).2

theorem ne_of_mem {s : Spec} {f g : String × ArtifactType} (hf : f ∈ s.inputs)
    (hg : g ∈ s.outputs) : f.1 ≠ g.1 := by
  have hf : Field.input f.1 f.2 ∈ s.fields := by
    obtain ⟨f', hf', hpart⟩ := List.mem_filterMap.mp hf
    cases f' <;> cases hpart
    exact hf'
  have hg : Field.output g.1 g.2 ∈ s.fields := by
    obtain ⟨g', hg', hpart⟩ := List.mem_filterMap.mp hg
    cases g' <;> cases hpart
    exact hg'
  intro hname
  cases List.inj_on_of_nodup_map s.nodup_names hf hg hname

theorem nodup_part {α : Type} (s : Spec) {part : Field → Option (String × α)}
    (hpart : ∀ f a, part f = some a → a.1 = f.name) :
    ((s.fields.filterMap part).map Prod.fst).Nodup := by
  have hnames := s.nodup_names
  rw [List.Nodup, List.pairwise_map] at hnames ⊢
  refine List.pairwise_filterMap.mpr (hnames.imp fun {f g} hne a ha b hb hab => hne ?_)
  rw [← hpart f a ha, ← hpart g b hb, hab]

theorem nodup_outputs (s : Spec) : (s.outputs.map Prod.fst).Nodup := by
  refine s.nodup_part fun f a ha => ?_
  cases f with
  | output name type =>
    cases ha
    rfl
  | _ => cases ha

theorem nodup_parameters (s : Spec) : (s.parameters.map Prod.fst).Nodup := by
  refine s.nodup_part fun f a ha => ?_
  cases f with
  | parameter name type =>
    cases ha
    rfl
  | _ => cases ha

/-- Exactly the declared names are supplied. Nothing is said of types and values. -/
def NamesAgree {α β : Type} (declared : List (String × α)) (supplied : TextMap β) : Prop :=
  ∀ name, (∃ b, supplied.find? name = some b) ↔ ∃ type, (name, type) ∈ declared

variable (component : Option String) (part : Part)

/-! ### Channels -/

theorem checkNames_ok_iff {declared supplied : List String} :
    checkNames component part declared supplied = .ok () ↔
      ∀ name, name ∈ supplied ↔ name ∈ declared := by
  rw [checkNames]
  cases hmissing : declared.find? fun name => !supplied.contains name with
  | some name =>
    have hname := List.find?_some hmissing
    have hdeclared := List.mem_of_find?_eq_some hmissing
    simp only [reduceCtorEq, false_iff]
    intro hall
    simp [(hall name).mpr hdeclared] at hname
  | none =>
    rw [List.find?_eq_none] at hmissing
    cases hextra : supplied.find? fun name => !declared.contains name with
    | some name =>
      have hname := List.find?_some hextra
      have hsupplied := List.mem_of_find?_eq_some hextra
      simp only [reduceCtorEq, false_iff]
      intro hall
      simp [(hall name).mp hsupplied] at hname
    | none =>
      rw [List.find?_eq_none] at hextra
      simp only [true_iff]
      intro name
      exact ⟨fun h => by simpa using hextra name h, fun h => by simpa using hmissing name h⟩

theorem namesAgree_iff {α β : Type} {declared : List (String × α)} {supplied : TextMap β} :
    NamesAgree declared supplied ↔
      checkNames component part (declared.map Prod.fst) supplied.keys = .ok () := by
  simp [checkNames_ok_iff, NamesAgree, SortedMap.mem_keys]

theorem checkTypes_ok_iff {supplied : TextMap Channel} {declared : List (String × ArtifactType)} :
    checkTypes component supplied declared = .ok () ↔
      ∀ f ∈ declared, ∀ c, supplied.find? f.1 = some c → f.2.name = c.type.name := by
  induction declared with
  | nil => simp [checkTypes]
  | cons f rest ih =>
    rw [List.forall_mem_cons, ← ih, checkTypes]
    cases hfield : supplied.find? f.1 with
    | none => simp
    | some c => by_cases htype : f.2.name = c.type.name <;> simp [htype]

/-- Channels are accepted if their names and types are the declared ones. -/
theorem checkChannels_ok_iff {supplied : TextMap Channel}
    {declared : List (String × ArtifactType)} :
    checkChannels component part declared supplied = .ok () ↔ NamesAgree declared supplied ∧
      ∀ f ∈ declared, ∀ c, supplied.find? f.1 = some c → f.2.name = c.type.name := by
  rw [namesAgree_iff component part, ← checkTypes_ok_iff component, checkChannels]
  cases checkNames component part (declared.map Prod.fst) supplied.keys with
  | error e => simp [bind, Except.bind]
  | ok done => simp [bind, Except.bind]

/-! ### Parameters

The recursion goes through the declared parameters. A parameter that is not supplied is passed over,
so the condition is about supplied ones only. -/

variable {component} in
/-- The first parameter is taken if it is there, and the others are taken before it is added. -/
theorem coerceAll_cons_ok_iff {supplied resolved : Parameters} {f : String × ScalarType}
    {declared : List (String × ScalarType)} :
    coerceAll component supplied (f :: declared) = .ok resolved ↔
      (supplied.find? f.1 = none ∧ coerceAll component supplied declared = .ok resolved) ∨
        ∃ v v' others, supplied.find? f.1 = some v ∧ v.coerce? f.2 = some v' ∧
          coerceAll component supplied declared = .ok others ∧ resolved = others.insert f.1 v' := by
  rw [coerceAll]
  cases hfield : supplied.find? f.1 with
  | none => simp
  | some v =>
    dsimp only
    cases hcoerce : v.coerce? f.2 with
    | none => simp [hcoerce]
    | some v' =>
      cases coerceAll component supplied declared <;>
        simp [bind, Except.bind, hcoerce, eq_comm]

theorem exists_coerceAll_iff {supplied : Parameters} {declared : List (String × ScalarType)} :
    (∃ parameters, coerceAll component supplied declared = .ok parameters) ↔
      ∀ f ∈ declared, ∀ v, supplied.find? f.1 = some v → (v.coerce? f.2).isSome := by
  induction declared with
  | nil => simp [coerceAll]
  | cons f rest ih =>
    rw [List.forall_mem_cons, ← ih]
    constructor
    · rintro ⟨resolved, h⟩
      rcases coerceAll_cons_ok_iff.mp h with ⟨hnone, hrest⟩ | ⟨v, v', others, hv, hv', hrest, -⟩
      · exact ⟨by simp [hnone], resolved, hrest⟩
      · refine ⟨fun w hw => ?_, others, hrest⟩
        cases hv.symm.trans hw
        rw [hv']
        rfl
    · rintro ⟨hfits, others, hrest⟩
      cases hv : supplied.find? f.1 with
      | none => exact ⟨others, coerceAll_cons_ok_iff.mpr (.inl ⟨hv, hrest⟩)⟩
      | some v =>
        obtain ⟨v', hv'⟩ := Option.isSome_iff_exists.mp (hfits v hv)
        exact ⟨_, coerceAll_cons_ok_iff.mpr (.inr ⟨v, v', others, hv, hv', hrest, rfl⟩)⟩

/-! ### All checks -/

variable {component} in
/-- All checks have passed, and the parameters are those that are given back. -/
theorem validate_ok_iff {s : Spec} {inputs outputs : TextMap Channel}
    {supplied resolved : Parameters} :
    s.validate component inputs outputs supplied = .ok resolved ↔
      checkChannels component .input s.inputs inputs = .ok () ∧
        checkChannels component .output s.outputs outputs = .ok () ∧
        checkNames component .parameter (s.parameters.map Prod.fst) supplied.keys = .ok () ∧
        coerceAll component supplied s.parameters = .ok resolved := by
  rw [validate]
  cases checkChannels component .input s.inputs inputs with
  | error e => simp [bind, Except.bind]
  | ok done =>
    cases checkChannels component .output s.outputs outputs with
    | error e => simp [bind, Except.bind]
    | ok done =>
      cases checkNames component .parameter (s.parameters.map Prod.fst) supplied.keys <;>
        simp [bind, Except.bind]

/-- What is accepted: the declared names with the declared types. Parameters need only be coercible
to theirs. -/
theorem exists_validate_iff {s : Spec} {inputs outputs : TextMap Channel} {supplied : Parameters} :
    (∃ parameters, s.validate component inputs outputs supplied = .ok parameters) ↔
      (NamesAgree s.inputs inputs ∧
        ∀ f ∈ s.inputs, ∀ c, inputs.find? f.1 = some c → f.2.name = c.type.name) ∧
      (NamesAgree s.outputs outputs ∧
        ∀ f ∈ s.outputs, ∀ c, outputs.find? f.1 = some c → f.2.name = c.type.name) ∧
      NamesAgree s.parameters supplied ∧
      ∀ f ∈ s.parameters, ∀ v, supplied.find? f.1 = some v → (v.coerce? f.2).isSome := by
  simp only [validate_ok_iff, exists_and_left]
  rw [← checkChannels_ok_iff component .input, ← checkChannels_ok_iff component .output,
    namesAgree_iff component .parameter, ← exists_coerceAll_iff component]

end Spec

end TypedPipeline
