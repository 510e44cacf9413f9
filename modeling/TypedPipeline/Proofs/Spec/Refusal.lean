import TypedPipeline.Proofs.Spec

/-!
# What a contract reports

A validation that fails tells of one field of one part of the contract. Names are compared before
types, so a type is reported only of a field that is declared and supplied.

## Implementation notes

Every report belongs to one check, so `Spec.Report` has one constructor for each kind of report and
each part that is checked, and `Spec.report_of_validate` follows the checks in their order. Outputs
are left out: the builds for which this is needed make the channels of outputs themselves, with the
declared types, and then no check of outputs fails.

What a report says is true of the contract and of what was supplied. That the reported field is the
first one at fault is not said. Whoever wants a report ruled out shows that its hypotheses cannot
hold.

## Main definitions

* `Spec.NameReport` — a name that is missing, or one too many
* `Spec.Report` — what is reported of inputs and parameters

## Main results

* `Spec.report_of_validate` — where the outputs are as declared, all that can be reported
-/

namespace TypedPipeline.Spec

variable {component : Option String} {part : Part} {e : ContractError}

/-- A name is reported that is declared and not supplied, or supplied and not declared. -/
inductive NameReport (component : Option String) (part : Part) (declared supplied : List String) :
    ContractError → Prop
  | missing {name : String} (hdeclared : name ∈ declared) (hsupplied : name ∉ supplied) :
    NameReport component part declared supplied
      (.specValidation (.field component name) (.missing part))
  | unexpected {name : String} (hdeclared : name ∉ declared) (hsupplied : name ∈ supplied) :
    NameReport component part declared supplied
      (.specValidation (.field component name) (.unexpected part))

/-- What a validation may report of inputs and parameters. Each constructor has the fault as its
hypotheses, in terms of what is declared and what is supplied. -/
inductive Report (s : Spec) (component : Option String) (inputs : TextMap Channel)
    (parameters : Parameters) : ContractError → Prop
  | inputName {e : ContractError}
    (h : NameReport component .input (s.inputs.map Prod.fst) inputs.keys e) :
    Report s component inputs parameters e
  | inputType {name : String} {type : ArtifactType} {c : Channel}
    (hdeclared : (name, type) ∈ s.inputs) (hsupplied : inputs.find? name = some c)
    (hne : type.name ≠ c.type.name) :
    Report s component inputs parameters
      (.typeMismatch (.field component name) type.name c.type.name)
  | parameterName {e : ContractError}
    (h : NameReport component .parameter (s.parameters.map Prod.fst) parameters.keys e) :
    Report s component inputs parameters e
  | parameterType {name : String} {type : ScalarType} {v : Scalar}
    (hdeclared : (name, type) ∈ s.parameters) (hsupplied : parameters.find? name = some v)
    (hcoerce : v.coerce? type = none) :
    Report s component inputs parameters
      (.specValidation (.field component name) (.incompatible type v.type))

theorem nameReport_of_checkNames {declared supplied : List String}
    (h : checkNames component part declared supplied = .error e) :
    NameReport component part declared supplied e := by
  rw [checkNames] at h
  cases hmissing : declared.find? fun name => !supplied.contains name with
  | some name =>
    rw [hmissing] at h
    cases h
    exact .missing (List.mem_of_find?_eq_some hmissing) (by simpa using List.find?_some hmissing)
  | none =>
    rw [hmissing] at h
    cases hextra : supplied.find? fun name => !declared.contains name with
    | some name =>
      rw [hextra] at h
      cases h
      exact .unexpected (by simpa using List.find?_some hextra)
        (List.mem_of_find?_eq_some hextra)
    | none =>
      rw [hextra] at h
      cases h

theorem exists_of_checkTypes {supplied : TextMap Channel}
    {declared : List (String × ArtifactType)}
    (h : checkTypes component supplied declared = .error e) :
    ∃ f ∈ declared, ∃ c, supplied.find? f.1 = some c ∧ f.2.name ≠ c.type.name ∧
      e = .typeMismatch (.field component f.1) f.2.name c.type.name := by
  induction declared with
  | nil => cases h
  | cons f rest ih =>
    rw [List.exists_mem_cons_iff]
    rw [checkTypes] at h
    cases hfield : supplied.find? f.1 with
    | none =>
      rw [hfield] at h
      exact .inr (ih h)
    | some c =>
      rw [hfield] at h
      dsimp only at h
      by_cases htype : f.2.name = c.type.name
      · rw [if_pos htype] at h
        exact .inr (ih h)
      · rw [if_neg htype] at h
        cases h
        exact .inl ⟨c, rfl, htype, rfl⟩

theorem exists_of_coerceAll {supplied : Parameters} {declared : List (String × ScalarType)}
    (h : coerceAll component supplied declared = .error e) :
    ∃ f ∈ declared, ∃ v, supplied.find? f.1 = some v ∧ v.coerce? f.2 = none ∧
      e = .specValidation (.field component f.1) (.incompatible f.2 v.type) := by
  induction declared with
  | nil => cases h
  | cons f rest ih =>
    rw [List.exists_mem_cons_iff]
    rw [coerceAll] at h
    cases hfield : supplied.find? f.1 with
    | none =>
      rw [hfield] at h
      exact .inr (ih h)
    | some v =>
      rw [hfield] at h
      dsimp only at h
      cases hcoerce : v.coerce? f.2 with
      | none =>
        rw [hcoerce] at h
        cases h
        exact .inl ⟨v, rfl, hcoerce, rfl⟩
      | some v' =>
        rw [hcoerce] at h
        cases hrest : coerceAll component supplied rest with
        | error e' =>
          rw [hrest] at h
          cases h
          exact .inr (ih hrest)
        | ok others =>
          rw [hrest] at h
          cases h

/-- Where the outputs are as declared, inputs or parameters are reported. -/
theorem report_of_validate {s : Spec} {inputs outputs : TextMap Channel} {parameters : Parameters}
    (houtputs : checkChannels component .output s.outputs outputs = .ok ())
    (h : s.validate component inputs outputs parameters = .error e) :
    s.Report component inputs parameters e := by
  rw [validate, checkChannels, houtputs] at h
  cases hnames : checkNames component .input (s.inputs.map Prod.fst) inputs.keys with
  | error e' =>
    rw [hnames] at h
    cases h
    exact .inputName (nameReport_of_checkNames hnames)
  | ok done =>
    cases htypes : checkTypes component inputs s.inputs with
    | error e' =>
      rw [hnames, htypes] at h
      cases h
      obtain ⟨f, hf, c, hc, hne, rfl⟩ := exists_of_checkTypes htypes
      exact .inputType hf hc hne
    | ok done =>
      cases hparameters : checkNames component .parameter (s.parameters.map Prod.fst)
          parameters.keys with
      | error e' =>
        rw [hnames, htypes, hparameters] at h
        cases h
        exact .parameterName (nameReport_of_checkNames hparameters)
      | ok done =>
        rw [hnames, htypes, hparameters] at h
        obtain ⟨f, hf, v, hv, hcoerce, rfl⟩ := exists_of_coerceAll (e := e) h
        exact .parameterType hf hv hcoerce

end TypedPipeline.Spec
