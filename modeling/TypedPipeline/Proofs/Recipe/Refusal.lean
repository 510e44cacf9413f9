import TypedPipeline.Proofs.Recipe.Acceptance
import TypedPipeline.Proofs.Spec.Refusal

/-!
# What stands in the way of a recipe

The steps that make a pipeline of a recipe are also there for callers who make channels and
components by hand, and some of what they report cannot come from a recipe. Every entry gets new
channels for exactly the outputs that its contract declares, so no output is missing, undeclared or
of another type, and nobody can have claimed one of them. A reference that can be resolved leads to
one of the channels of the recipe, so no component reads from outside of the pipeline. An artifact
of an input is made for its channel, so it fits. What is left names something that is written in the
recipe.

This holds for entries or inputs with one name, too, though they are refused only later.

## Implementation notes

As there is a condition for each step under which it succeeds, there is a property of all that it
may report. It is called `FailsAs`, and such properties are joined in the order of the steps as
well. A step whose condition is known to hold satisfies it with any property. The other errors are
ruled out where they would arise: an assembly never meets an unresolved channel, because it is
reached only with components whose inputs were resolved.

`Recipe.Obstacle` lists what is left. Each constructor has in its hypotheses what is wrong with the
recipe, so an error is not only excluded but explained. The last theorem goes through this list, and
in most cases there is nothing to do, since the error in question is not on it.

## Main definitions

* `Recipe.Obstacle` — all that a build can report

## Main results

* `ComponentDraft.error_of_build` — what the build of a component reports where outputs are free
* `Recipe.build_failsAs` — what the build of a recipe reports
* `Recipe.build_never_reports` — what it does not report, and where types do not match
-/

namespace TypedPipeline

open StoreM (Decides FailsAs)

/-- A step that succeeds reports nothing. -/
theorem StoreM.Decides.failsAs {ε α : Type} {x : StoreM ε α} {s : Store} {P : Prop}
    {D : α → Store → Prop} (h : Decides x s P D) (hP : P) (K : ε → Prop) : FailsAs x s K := by
  obtain ⟨a, s', ha⟩ := h.succeeds hP
  exact .of_ok ha

/-- A component whose outputs are new and differ is refused for its name, or by its contract. -/
theorem ComponentDraft.error_of_build {d : ComponentDraft} {s s' : Store} {e : ContractError}
    (h : d.build s = (.error e, s'))
    (hunclaimed : ∀ f ∈ (d.filled s).1.entries, ((d.filled s).2.channel f.2).producer = none)
    (hunshared : ((d.filled s).1.entries.map fun f => f.2.id).Nodup) :
    (isComponentName d.nameOf = false ∧ e = .invalidComponentName d.nameOf) ∨
      d.spec.validate (some d.nameOf) d.inputs (d.filled s).1 d.parameters = .error e := by
  have hn : d.name.getD d.spec.kind = d.nameOf := rfl
  have hf : fillOutputs s d.outputs d.spec.outputs = d.filled s := rfl
  cases hname : isComponentName d.nameOf with
  | false =>
    unfold build at h
    simp only [hn, hname, Bool.not_false, if_true] at h
    cases h
    exact .inl ⟨rfl, rfl⟩
  | true =>
    right
    cases hvalid : d.spec.validate (some d.nameOf) d.inputs (d.filled s).1 d.parameters with
    | error e' =>
      unfold build at h
      simp only [hn, hname, Bool.not_true, Bool.false_eq_true, if_false, StoreM.bind_apply,
        StoreM.run'_apply, StoreM.ask_apply, hf, hvalid] at h
      cases h
      rfl
    | ok parameters =>
      obtain ⟨s'', -, hok⟩ := build_of_accepted ⟨hname, hvalid, hunclaimed, hunshared⟩
      cases hok.symm.trans h

namespace Recipe

/-! ### What can be reported

Sentences are errors that a recipe has for itself: names that are used twice, references without
meaning, kinds that are not known. They are not told apart here. -/

/-- All that a build can report: a sentence of its own, or something that is written in the recipe.
A contract reports what it finds in inputs and parameters, with the channels that the references of
the entry mean. -/
inductive Obstacle (r : Recipe) (registry : Registry) : Cause → Prop
  | sentence (message : String) : Obstacle r registry (.text message)
  | unknownType {input : Input} (hinput : input ∈ r.inputs)
    (htype : registry.types.lookup? input.typeName = none) :
    Obstacle r registry (.contract (.unknownType input.typeName))
  | splitName {input : Input} {split : String} (hinput : input ∈ r.inputs)
    (hsplit : split ∈ input.splits) (hname : SplitNames.isName split = false) :
    Obstacle r registry (.artifact (.invalidSplitName split))
  | componentName {e : Entry} (he : e ∈ r.entries) (hname : isComponentName e.name = false) :
    Obstacle r registry (.contract (.invalidComponentName e.name))
  | contract {e : Entry} {kind : Kind} {channels : Channels} {inputs : TextMap Channel}
    {error : ContractError} (he : e ∈ r.entries)
    (hkind : registry.kinds.find? e.kind = some kind) (hwired : Wired channels e.inputs inputs)
    (hreport : kind.spec.Report (some e.name) inputs e.parameters error) :
    Obstacle r registry (.contract error)
  | duplicateName (name : String) : Obstacle r registry (.dag (.duplicateName name))
  | cycle (names : List String) : Obstacle r registry (.dag (.cycle names))

variable {r : Recipe} {registry : Registry} {types : TypeRegistry} {channels : Channels}
  {p : Placed} {placed : List Placed} {s : Store}

/-! ### Inputs

Of all that may happen to an artifact, only the name of a split can go wrong, and only before the
location is written, which comes last. -/

/-- Before there is a location, split names are refused for a name among them. -/
theorem refusal_of_setSplitNames {s : Store} {a : Artifact} (h : (s.artifact a).uri = none)
    {names : List String} {refusal : Refusal}
    (hr : (s.change a (.setSplitNames names)).1 = some refusal) :
    ∃ name ∈ names, SplitNames.isName name = false ∧ refusal = .invalidSplitName name := by
  cases hinvalid : SplitNames.invalid? names with
  | none =>
    have hvalid : ∀ name ∈ names, SplitNames.isName name = true := by
      simpa [SplitNames.invalid?] using hinvalid
    rw [(Store.change_setSplitNames_iff h names).mpr hvalid] at hr
    cases hr
  | some name =>
    have happly : (s.artifact a).apply (.setSplitNames names) =
        .error (.invalidSplitName name) := by
      simp only [ArtifactState.apply, ArtifactState.setSplitNames, hinvalid]
    rw [Store.change_of_error happly] at hr
    cases hr
    exact ⟨name, List.mem_of_find?_eq_some hinvalid, by simpa using List.find?_some hinvalid, rfl⟩

/-- The artifact of an input is refused only for the name of a split. -/
theorem inputArtifact_failsAs (input : Input) (type : ArtifactType) (uri : String) (s : Store) :
    FailsAs (inputArtifact input type uri) s fun f => ∃ split ∈ input.splits,
      SplitNames.isName split = false ∧ f.cause = .artifact (.invalidSplitName split) := by
  by_cases hvalid : ∀ split ∈ input.splits, SplitNames.isName split = true
  · exact (inputArtifact_decides input type uri s).failsAs hvalid _
  have hempty : input.splits.isEmpty = false := by
    rw [List.isEmpty_eq_false_iff]
    intro hnil
    exact hvalid (by simp [hnil])
  have hblank : ((s.newArtifact type).2.artifact (s.newArtifact type).1).uri = none := by
    simp [Store.newArtifact]
  refine FailsAs.bind_ok (StoreM.run'_apply _ _) ?_
  simp only [hempty]
  refine FailsAs.bind_ok (StoreM.run'_apply _ _) ?_
  cases hr : ((s.newArtifact type).2.change (s.newArtifact type).1
      (.setSplitNames input.splits)).1 with
  | none => exact absurd ((Store.change_setSplitNames_iff hblank _).mp hr) hvalid
  | some refusal =>
    obtain ⟨split, hsplit, hname, rfl⟩ := refusal_of_setSplitNames hblank hr
    exact .of_error rfl ⟨split, hsplit, hname, rfl⟩

/-- The channel of an input is refused for its type, or for the name of a split. -/
theorem inputChannel_failsAs {input : Input} (hinput : input ∈ r.inputs) (s : Store) :
    FailsAs (inputChannel registry.types input) s fun f => r.Obstacle registry f.cause := by
  by_cases hacceptable : input.Acceptable registry.types
  · exact (inputChannel_decides registry.types input s).failsAs hacceptable _
  unfold inputChannel
  cases htype : registry.types.lookup? input.typeName with
  | none => exact .of_error rfl (.unknownType hinput htype)
  | some type =>
    dsimp only
    cases huri : input.uri with
    | none => exact absurd ⟨⟨type, htype⟩, fun h => absurd huri h⟩ hacceptable
    | some uri =>
      have hinvalid : ¬ ∀ split ∈ input.splits, SplitNames.isName split = true := fun h =>
        hacceptable ⟨⟨type, htype⟩, fun _ => h⟩
      have hartifact : FailsAs (inputArtifact input type uri) s fun f =>
          r.Obstacle registry f.cause := by
        refine (inputArtifact_failsAs input type uri s).imp ?_
        rintro f ⟨split, hsplit, hname, hcause⟩
        rw [hcause]
        exact .splitName hinput hsplit hname
      exact hartifact.bind fun a s' ha =>
        absurd ((inputArtifact_decides input type uri s).sound a s' ha).1 hinvalid

/-- The channels of inputs are refused like those of single inputs, or for a name that occurs
again. -/
theorem inputChannels_failsAs {made : TextMap Channel} {inputs : List Input}
    (hinputs : ∀ input ∈ inputs, input ∈ r.inputs) (s : Store) :
    FailsAs (inputChannels registry.types made inputs) s fun f => r.Obstacle registry f.cause := by
  induction inputs generalizing made s with
  | nil => exact .pure made
  | cons input rest ih =>
    rw [List.forall_mem_cons] at hinputs
    refine (inputChannel_failsAs hinputs.1 s).bind fun c s' _ => ?_
    cases hcontains : made.contains input.name with
    | true => exact .of_error rfl (.sentence _)
    | false =>
      exact .bind_ok (StoreM.pure_apply _ s') (ih hinputs.2 s')

/-! ### Entries

To place an entry makes channels and cannot fail except for a kind that is not known. To construct
one can fail in its references, and then in its contract. -/

/-- An entry whose kind is not known is reported with a sentence. -/
theorem place_failsAs (entries : List Entry) (s : Store) :
    FailsAs (place registry entries) s fun f => r.Obstacle registry f.cause := by
  induction entries generalizing s with
  | nil => exact .pure []
  | cons entry rest ih =>
    refine (FailsAs.ask fun f hf => ?_).bind fun kind s₁ _ =>
      .bind_ok (StoreM.run'_apply _ s₁) ((ih _).bind fun others s₂ _ => .pure _)
    rw [Registry.kind] at hf
    cases hkind : registry.kinds.find? entry.kind with
    | none =>
      rw [hkind] at hf
      cases hf
      exact .sentence _
    | some kind =>
      rw [hkind] at hf
      cases hf

theorem exists_text_of_resolve {reference : String} {f : Fault}
    (h : channels.resolve reference = .error f) : ∃ message, f.cause = .text message := by
  rw [Channels.resolve] at h
  split at h
  · cases h
    exact ⟨_, rfl⟩
  · split at h
    · cases h
    · cases h
      exact ⟨_, rfl⟩
  · split at h
    · cases h
      exact ⟨_, rfl⟩
    · split at h
      · cases h
      · cases h
        exact ⟨_, rfl⟩

/-- References are refused with a sentence. -/
theorem exists_text_of_wire {component : String} {l : List (String × String)} {f : Fault}
    (h : wire channels component l = .error f) : ∃ message, f.cause = .text message := by
  induction l with
  | nil => cases h
  | cons e rest ih =>
    obtain ⟨field, reference⟩ := e
    rw [wire] at h
    cases hresolve : channels.resolve reference with
    | error f' =>
      rw [hresolve] at h
      cases h
      obtain ⟨message, hcause⟩ := exists_text_of_resolve hresolve
      exact ⟨message, hcause⟩
    | ok c =>
      cases hrest : wire channels component rest with
      | error f' =>
        rw [hresolve, hrest] at h
        cases h
        exact ih hrest
      | ok others =>
        rw [hresolve, hrest] at h
        cases h

/-- A circumstance is no cause. It is told together with the failure, and the cause stays what it
was. -/
theorem within_failsAs {ε α : Type} {x : StoreM ε α} {cause : ε → Cause} {K : Cause → Prop}
    (h : FailsAs x s fun e => K (cause e)) (context : String) :
    FailsAs (within context cause x) s fun f => K f.cause := by
  intro f s' hf
  rw [within] at hf
  split at hf
  · cases hf
  · rename_i e t he
    cases hf
    exact h e s' he

/-- The component of an entry is refused for its name, or for its inputs and parameters. -/
theorem construct_failsAs (hp : p.entry ∈ r.entries) (h : p.Declared registry)
    (hnodup : (p.outputs.values.map Channel.id).Nodup)
    (hunclaimed : ∀ c ∈ p.outputs.values, (s.channel c).producer = none) :
    FailsAs (construct channels p) s fun f => r.Obstacle registry f.cause := by
  refine (FailsAs.ask fun f hf => ?_).bind fun inputs s₁ hw => ?_
  · obtain ⟨message, hcause⟩ := exists_text_of_wire hf
    rw [hcause]
    exact .sentence message
  · rw [StoreM.ask_apply, Prod.mk.injEq] at hw
    obtain ⟨hwire, rfl⟩ := hw
    refine within_failsAs ?_ _
    intro e s' he
    obtain ⟨hfree, hunshared⟩ := h.outputs_free hnodup hunclaimed inputs
    rcases ComponentDraft.error_of_build (d := p.draft inputs) he hfree hunshared with
      ⟨hname, rfl⟩ | hvalid
    · exact .componentName hp hname
    · rw [h.filled_draft inputs s] at hvalid
      have houtputs := (Spec.checkChannels_ok_iff (some p.entry.name) .output).mpr h.outputs_valid
      exact .contract hp h.kind (.of_wire hwire) (Spec.report_of_validate houtputs hvalid)

/-- The components of entries are refused like those of single entries. What the builds before a
failure have claimed are other channels. -/
theorem constructAll_failsAs (hplaced : ∀ p ∈ placed, p.entry ∈ r.entries)
    (hdeclared : ∀ p ∈ placed, p.Declared registry)
    (hnodup : ((outputsOf placed).map Channel.id).Nodup)
    (hunclaimed : ∀ c ∈ outputsOf placed, (s.channel c).producer = none) :
    FailsAs (placed.mapM (construct channels)) s fun f => r.Obstacle registry f.cause := by
  induction placed generalizing s with
  | nil => exact .pure []
  | cons p rest ih =>
    rw [List.forall_mem_cons] at hplaced hdeclared
    rw [outputsOf, List.flatMap_cons] at hunclaimed hnodup
    rw [List.forall_mem_append] at hunclaimed
    rw [List.map_append, List.nodup_append] at hnodup
    obtain ⟨hp, hrest, hapart⟩ := hnodup
    rw [List.mapM_cons]
    refine (construct_failsAs hplaced.1 hdeclared.1 hp hunclaimed.1).bind fun k s' hk => ?_
    obtain ⟨-, -, hclaims⟩ := (construct_decides hdeclared.1 hp hunclaimed.1).sound k s' hk
    have hleft := hclaims.unclaimed
      (fun c hc hm => hapart _ hm _ (List.mem_map_of_mem hc) rfl) hunclaimed.2
    exact (ih hplaced.2 hdeclared.2 hrest hleft).bind fun ks s'' _ => .pure (k :: ks)

/-! ### All steps

What each step needs to know of the ones before it is in the facts about channels that were laid out
and about components that were built. -/

/-- Components of a recipe are refused for a name that they share, or for a cycle. -/
theorem assemble_failsAs (h : r.LaidOut registry channels placed s) {ks : List Component}
    (hks : Constructed channels placed ks) (name : String) (config : PipelineConfig) (t : Store) :
    FailsAs (Pipeline.assembleNoted name ks.toArray channels.inputs.values config) t fun e =>
      r.Obstacle registry (.dag e) := by
  refine (FailsAs.ask fun e he => ?_).bind fun p s' _ => .of_ok (StoreM.run'_apply _ _)
  rcases Pipeline.assemble_cases name ks.toArray channels.inputs.values config with
    ⟨-, again, hcase⟩ | ⟨-, hunresolved, -⟩ | ⟨-, -, cycle, -, hcase⟩ | ⟨_, _, _, hcase⟩
  · cases hcase.symm.trans he
    exact .duplicateName again
  · exact absurd (resolved_of_constructed h hks) hunresolved
  · cases hcase.symm.trans he
    exact .cycle _
  · cases hcase.symm.trans he

theorem layOut_failsAs (r : Recipe) (registry : Registry) (s : Store) :
    FailsAs (r.layOut registry) s fun f => r.Obstacle registry f.cause := by
  unfold layOut
  exact (inputChannels_failsAs (fun _ h => h) s).bind fun inputs s₁ _ =>
    (place_failsAs r.entries s₁).bind fun placed s₂ _ => .pure _

/-- Whatever the build of a recipe reports is an obstacle in the recipe. -/
theorem build_failsAs (r : Recipe) (registry : Registry) (rootGiven : Option String) (s : Store) :
    FailsAs (r.build registry rootGiven) s fun f => r.Obstacle registry f.cause := by
  refine (FailsAs.ask fun f hf => ?_).bind fun _ s₁ _ =>
    (layOut_failsAs r registry s₁).bind fun l s₂ hl => ?_
  · rw [checkVersion] at hf
    split at hf
    · cases hf
    · cases hf
      exact .sentence _
  · have hlaid := ((layOut_decides r registry s₁).sound _ _ hl).2
    have hnodup := hlaid.nodup
    rw [List.map_append, List.nodup_append] at hnodup
    have hplaced : ∀ p ∈ l.2, p.entry ∈ r.entries := fun p hp =>
      hlaid.mem_entries_iff.mpr ⟨p, hp, rfl⟩
    refine (constructAll_failsAs hplaced hlaid.declared hnodup.2.1 hlaid.unclaimed).bind
      fun ks s₃ hks => within_failsAs ?_ _
    exact assemble_failsAs hlaid ((constructAll_decides hlaid.declared hnodup.2.1
      hlaid.unclaimed).sound ks s₃ hks).2.1 _ _ s₃

end Recipe

/-! ### An input of another type

The channel has the type that the input declares, whoever reads it. So the fault is found where it
is read, when the component of the entry is built. -/

namespace Relay

def series : ArtifactType := ⟨"Series", by decide⟩

/-- A registry that knows of two types. -/
def mixed : Registry := { registry with types := registry.types.add series }

/-- A series that is there already is to be read as a table. -/
def mistyped : Recipe where
  version := 1
  name := "relay"
  inputs := [⟨"raw", "Series", some "mem:raw", ["train"]⟩, ⟨"extra", "Table", none, []⟩]
  entries := [entry "first" "raw" "extra"]

end Relay

/-! ### What is never reported -/

namespace Recipe

/-- No build of a recipe reports a channel that nothing produces or that is produced twice, a number
of artifacts, a location that is there already, or an output. Where it reports that types do not
match, it names an input that the contract of an entry declares and that the entry refers to. The
store is arbitrary: whatever it holds already, a build only meets channels that it has made
itself. -/
theorem build_never_reports {r : Recipe} {registry : Registry} {rootGiven : Option String}
    {s s' : Store} {fault : Fault} (h : r.build registry rootGiven s = (.error fault, s')) :
    (∀ component field channel typeName,
        fault.cause ≠ .dag (.unresolvedChannel component field channel typeName)) ∧
      (∀ channel producer, fault.cause ≠ .contract (.channelAlreadyProduced channel producer)) ∧
      (∀ typeName count, fault.cause ≠ .contract (.cardinality typeName count)) ∧
      (∀ id uri, fault.cause ≠ .artifact (.uriAlreadySet id uri)) ∧
      (∀ place, fault.cause ≠ .contract (.specValidation place (.missing .output)) ∧
        fault.cause ≠ .contract (.specValidation place (.unexpected .output))) ∧
      ∀ place expected actual, fault.cause = .contract (.typeMismatch place expected actual) →
        ∃ e ∈ r.entries, ∃ kind, registry.kinds.find? e.kind = some kind ∧
          ∃ field type, (field, type) ∈ kind.spec.inputs ∧
            field ∉ kind.spec.outputs.map Prod.fst ∧
            (∃ reference, e.inputs.find? field = some reference) ∧
            place = .field (some e.name) field ∧ expected = type.name ∧ actual ≠ expected := by
  have hobstacle : r.Obstacle registry fault.cause :=
    build_failsAs r registry rootGiven s fault s' h
  generalize fault.cause = cause at hobstacle
  cases hobstacle with
  | sentence | unknownType | splitName | componentName | duplicateName | cycle => simp
  | @contract e kind channels inputs error he hkind hwired hreport =>
    cases hreport with
    | inputName hname | parameterName hname => cases hname <;> simp
    | parameterType => simp
    | @inputType name type c hdeclared hsupplied hne =>
      obtain ⟨reference, hreference, -⟩ := (hwired.find? name c).mp hsupplied
      have hinput : name ∉ kind.spec.outputs.map Prod.fst := by
        intro hm
        obtain ⟨f, hf, hname⟩ := List.mem_map.mp hm
        exact Spec.ne_of_mem hdeclared hf hname.symm
      refine ⟨by simp, by simp, by simp, by simp, by simp, fun place expected actual hcause => ?_⟩
      cases hcause
      exact ⟨e, he, kind, hkind, name, type, hdeclared, hinput, ⟨reference, hreference⟩, rfl, rfl,
        hne.symm⟩

/-- A series where a table is declared is reported at the input that refers to them. -/
theorem build_mistyped :
    ∃ s fault, Relay.mistyped.build Relay.mixed none {} = (.error fault, s) ∧
      fault.cause = .contract (.typeMismatch (.field (some "first") "in") "Table" "Series") ∧
      ∃ e ∈ Relay.mistyped.entries, e.name = "first" ∧
        ∃ reference, e.inputs.find? "in" = some reference := by
  have hbuild : ∃ s, Relay.mistyped.build Relay.mixed none {} =
      (.error ⟨["Failed to construct component 'first'"],
        .contract (.typeMismatch (.field (some "first") "in") "Table" "Series")⟩, s) := ⟨_, by rfl⟩
  obtain ⟨s, hs⟩ := hbuild
  obtain ⟨-, -, -, -, -, hmismatch⟩ := build_never_reports hs
  obtain ⟨e, he, kind, -, field, type, -, -, hreference, hplace, -⟩ := hmismatch _ _ _ rfl
  rw [Place.field.injEq, Option.some.injEq] at hplace
  obtain ⟨hname, rfl⟩ := hplace
  exact ⟨s, _, hs, rfl, e, he, hname.symm, hreference⟩

end Recipe

end TypedPipeline
