import TypedPipeline.Proofs.Recipe.Layout
import TypedPipeline.Proofs.Recipe.Reference

/-!
# The components of a recipe

Once the channels of a recipe are there, each entry is built by itself: whether that succeeds does
not depend on the entries before it. A build claims the output channels of its own entry only, and
no other entry has one of them.

## Implementation notes

An entry that is placed has its kind and its output channels. So what is left to decide is whether
its references lead somewhere and whether its contract accepts what they lead to. This is
`Recipe.Placed.Fits`, and it speaks of references and not of the map of channels that is made of
them. `Recipe.Wired` says how the two are related, and through it names and types of references
become those of channels.

The build of a component also asks that its outputs have no producer. They have none when all
channels have just been made, and `Recipe.Claims` shows that the builds of other entries do not
change this. Channels of different entries differ, and a build claims its own ones only.

## Main definitions

* `Recipe.Wired` — the channels that references mean
* `Recipe.Placed.Fits` — what is asked of an entry whose channels are there
* `Recipe.Claims` — the producers that builds enter
* `Recipe.Constructed` — the components of the entries

## Main results

* `Recipe.resolve_ok_iff` — the channel that a reference means
* `Recipe.construct_decides`, `Recipe.constructAll_decides` — one entry, and all of them
-/

namespace TypedPipeline.Recipe

open StoreM (Decides)

variable {channels : Channels} {registry : Registry} {p : Placed} {placed : List Placed} {s : Store}

/-! ### Steps inside a circumstance

A failure is reported along with what was being done. This concerns the text that a caller reads,
not whether there is a failure. -/

theorem within_ok_iff {ε α : Type} {x : StoreM ε α} {context : String} {cause : ε → Cause} {a : α}
    {s s' : Store} : within context cause x s = (.ok a, s') ↔ x s = (.ok a, s') := by
  rw [within]
  rcases x s with ⟨_ | _, _⟩ <;> constructor <;> intro ha <;> cases ha <;> rfl

/-- A circumstance changes what is reported, not when. The condition and the end of the step
stay. -/
theorem within_decides {ε α : Type} {x : StoreM ε α} {P : Prop} {D : α → Store → Prop}
    (h : Decides x s P D) (context : String) (cause : ε → Cause) :
    Decides (within context cause x) s P D where
  succeeds hP := by simpa only [within_ok_iff] using h.succeeds hP
  sound a s' ha := h.sound a s' (within_ok_iff.mp ha)

/-! ### References

A reference is read as a text first and is looked up then. Both have to succeed, and neither is a
matter of types. -/

/-- A reference means the channel of an input, or that of an output of the first entry with a
name. -/
theorem resolve_ok_iff {reference : String} {c : Channel} :
    channels.resolve reference = .ok c ↔
      (∃ name, Reference.NamesInput reference name ∧ channels.inputs.find? name = some c) ∨
        ∃ component output outputs, Reference.NamesOutput reference component output ∧
          channels.outputs.lookup component = some outputs ∧ outputs.find? output = some c := by
  simp only [← Reference.ofText?_input_iff, ← Reference.ofText?_output_iff]
  rw [Channels.resolve]
  cases Reference.ofText? reference with
  | none => simp
  | some meant =>
    cases meant with
    | input name => cases hname : channels.inputs.find? name <;> simp [hname]
    | output component output =>
      cases hcomponent : channels.outputs.lookup component with
      | none => simp [hcomponent]
      | some outputs => cases houtput : outputs.find? output <;> simp [hcomponent, houtput]

/-- A reference to an output means that output and nothing else. The outputs are found under the
name of the component, of which the first entry counts. -/
theorem resolve_output_iff {reference component output : String} {c : Channel}
    (h : Reference.NamesOutput reference component output) :
    channels.resolve reference = .ok c ↔ ∃ outputs,
      channels.outputs.lookup component = some outputs ∧ outputs.find? output = some c := by
  rw [Channels.resolve, Reference.ofText?_output_iff.mpr h]
  cases hcomponent : channels.outputs.lookup component with
  | none => simp [hcomponent]
  | some outputs => cases houtput : outputs.find? output <;> simp [hcomponent, houtput]

theorem exists_wire_iff {component : String} {l : List (String × String)} :
    (∃ inputs, wire channels component l = .ok inputs) ↔
      ∀ e ∈ l, ∃ c, channels.resolve e.2 = .ok c := by
  induction l with
  | nil => simp [wire]
  | cons e rest ih =>
    obtain ⟨field, reference⟩ := e
    rw [List.forall_mem_cons, ← ih, wire]
    cases hresolve : channels.resolve reference with
    | error f => simp [Except.mapError, bind, Except.bind]
    | ok c => cases wire channels component rest <;> simp [Except.mapError, bind, Except.bind]

theorem find?_wire {component : String} {l : List (String × String)} {inputs : TextMap Channel}
    (h : wire channels component l = .ok inputs) (field : String) (c : Channel) :
    inputs.find? field = some c ↔
      ∃ reference, SortedMap.lookup field l = some reference ∧
        channels.resolve reference = .ok c := by
  induction l generalizing inputs with
  | nil =>
    cases h
    simp [SortedMap.lookup]
  | cons e rest ih =>
    obtain ⟨field', reference⟩ := e
    rw [wire] at h
    cases hresolve : channels.resolve reference with
    | error f => simp [Except.mapError, bind, Except.bind, hresolve] at h
    | ok c' =>
      cases hrest : wire channels component rest with
      | error f => simp [Except.mapError, bind, Except.bind, hresolve, hrest] at h
      | ok others =>
        simp only [Except.mapError, bind, Except.bind, hresolve, hrest, Except.ok.injEq] at h
        subst h
        rw [SortedMap.find?_insert, SortedMap.lookup]
        by_cases hfield : field = field'
        · simp [hfield, hresolve]
        · rw [if_neg hfield, if_neg (Ne.symm hfield), ih hrest]

/-- The inputs have the channels that the references of their fields mean, all of which mean one. -/
structure Wired (channels : Channels) (references : TextMap String) (inputs : TextMap Channel) :
    Prop where
  resolves : ∀ field reference, references.find? field = some reference →
    ∃ c, channels.resolve reference = .ok c
  find? : ∀ field c, inputs.find? field = some c ↔
    ∃ reference, references.find? field = some reference ∧ channels.resolve reference = .ok c

namespace Wired

variable {references : TextMap String} {inputs : TextMap Channel}
  {declared : List (String × ArtifactType)}

theorem of_wire {component : String} (h : wire channels component references.entries = .ok inputs) :
    Wired channels references inputs where
  resolves field reference hr :=
    exists_wire_iff.mp ⟨inputs, h⟩ (field, reference) (SortedMap.find?_eq_some_iff.mp hr)
  find? := find?_wire h

/-- A field has a channel if it has a reference. In this form, all that is said of the fields of one
map can be said of those of the other. -/
theorem exists_find?_iff (h : Wired channels references inputs) (field : String) :
    (∃ c, inputs.find? field = some c) ↔ ∃ reference, references.find? field = some reference := by
  constructor
  · rintro ⟨c, hc⟩
    obtain ⟨reference, hreference, -⟩ := (h.find? field c).mp hc
    exact ⟨reference, hreference⟩
  · rintro ⟨reference, hreference⟩
    obtain ⟨c, hc⟩ := h.resolves field reference hreference
    exact ⟨c, (h.find? field c).mpr ⟨reference, hreference, hc⟩⟩

theorem keys_eq (h : Wired channels references inputs) : inputs.keys = references.keys :=
  SortedMap.keys_eq_of_isSome fun field => Bool.eq_iff_iff.mpr
    (Option.isSome_iff_exists.trans ((h.exists_find?_iff field).trans
      Option.isSome_iff_exists.symm))

theorem namesAgree_iff (h : Wired channels references inputs) :
    Spec.NamesAgree declared inputs ↔ Spec.NamesAgree declared references :=
  forall_congr' fun field => iff_congr (h.exists_find?_iff field) Iff.rfl

/-- The types of channels are those of what the references mean. A field without reference has no
channel, and nothing is asked of it here. -/
theorem types_iff (h : Wired channels references inputs) :
    (∀ f ∈ declared, ∀ c, inputs.find? f.1 = some c → f.2.name = c.type.name) ↔
      ∀ f ∈ declared, ∀ reference, references.find? f.1 = some reference →
        ∃ c, channels.resolve reference = .ok c ∧ f.2.name = c.type.name := by
  refine forall₂_congr fun f _ => ?_
  constructor
  · intro htypes reference hreference
    obtain ⟨c, hc⟩ := h.resolves f.1 reference hreference
    exact ⟨c, hc, htypes c ((h.find? f.1 c).mpr ⟨reference, hreference, hc⟩)⟩
  · intro htypes c hc
    obtain ⟨reference, hreference, hc⟩ := (h.find? f.1 c).mp hc
    obtain ⟨c', hc', htype⟩ := htypes reference hreference
    cases hc.symm.trans hc'
    exact htype

end Wired

/-! ### One entry

The builds of components decide in general what is accepted, and here the draft is the one that an
entry leads to. Its outputs are given, so the pass that makes channels has nothing to do. -/

/-- What is asked of an entry once the channels of the recipe are there. It speaks of the references
of the entry, and not of the map of channels to which they lead. -/
structure Placed.Fits (channels : Channels) (p : Placed) : Prop where
  name : isComponentName p.entry.name = true
  fields : Spec.NamesAgree p.kind.spec.inputs p.entry.inputs
  references : ∀ f ∈ p.kind.spec.inputs, ∀ reference, p.entry.inputs.find? f.1 = some reference →
    ∃ c, channels.resolve reference = .ok c ∧ f.2.name = c.type.name
  parameterNames : Spec.NamesAgree p.kind.spec.parameters p.entry.parameters
  parameters : ∀ f ∈ p.kind.spec.parameters, ∀ v, p.entry.parameters.find? f.1 = some v →
    (v.coerce? f.2).isSome

/-- All references of an entry that fits can be resolved, since each is one of a declared field. -/
theorem Placed.Fits.exists_resolve (h : p.Fits channels) {field reference : String}
    (hf : p.entry.inputs.find? field = some reference) :
    ∃ c, channels.resolve reference = .ok c := by
  obtain ⟨type, htype⟩ := (h.fields field).mp ⟨reference, hf⟩
  obtain ⟨c, hc, -⟩ := h.references (field, type) htype reference hf
  exact ⟨c, hc⟩

/-- What a component has from its entry. Parameters are left out, since what a component has are
those that its contract has given back. -/
structure Placed.Made (channels : Channels) (p : Placed) (k : Component) : Prop where
  name : k.name = p.entry.name
  spec : k.spec = p.kind.spec
  outputs : k.outputs = p.outputs
  inputs : Wired channels p.entry.inputs k.inputs

/-- The draft of the component of an entry. -/
def Placed.draft (p : Placed) (inputs : TextMap Channel) : ComponentDraft where
  spec := p.kind.spec
  executor := p.kind.executor
  name := some p.entry.name
  inputs
  outputs := p.outputs
  parameters := p.entry.parameters

/-- All outputs have channels, so a build makes no more of them. -/
theorem Placed.Declared.filled_draft (h : p.Declared registry) (inputs : TextMap Channel)
    (s : Store) : (p.draft inputs).filled s = (p.outputs, s) := by
  refine ComponentDraft.fillOutputs_of_forall (fun f hf => ?_) s
  obtain ⟨c, hc, -⟩ := (h.outputs f.1 f.2).mpr hf
  exact ⟨c, hc⟩

/-- The outputs of an entry pass the check of its contract. -/
theorem Placed.Declared.outputs_valid (h : p.Declared registry) :
    Spec.NamesAgree p.kind.spec.outputs p.outputs ∧
      ∀ f ∈ p.kind.spec.outputs, ∀ c, p.outputs.find? f.1 = some c → f.2.name = c.type.name := by
  constructor
  · intro name
    constructor
    · rintro ⟨c, hc⟩
      exact ⟨c.type, (h.outputs name c.type).mp ⟨c, hc, rfl⟩⟩
    · rintro ⟨type, htype⟩
      obtain ⟨c, hc, -⟩ := (h.outputs name type).mpr htype
      exact ⟨c, hc⟩
  · rintro ⟨name, type⟩ hf c hc
    obtain ⟨c', hc', htype⟩ := (h.outputs name type).mpr hf
    cases hc.symm.trans hc'
    exact congrArg ArtifactType.name htype.symm

/-- The channels of an entry are free and differ when its component is built. They were made for the
entry, and other builds have claimed other channels. -/
theorem Placed.Declared.outputs_free (h : p.Declared registry)
    (hnodup : (p.outputs.values.map Channel.id).Nodup)
    (hunclaimed : ∀ c ∈ p.outputs.values, (s.channel c).producer = none)
    (inputs : TextMap Channel) :
    (∀ f ∈ ((p.draft inputs).filled s).1.entries,
        (((p.draft inputs).filled s).2.channel f.2).producer = none) ∧
      (((p.draft inputs).filled s).1.entries.map fun f => f.2.id).Nodup := by
  rw [h.filled_draft inputs s]
  constructor
  · intro e he
    exact hunclaimed e.2 (List.mem_map_of_mem he)
  · simpa [SortedMap.values, Function.comp_def] using hnodup

/-- The checks of a build accept the channels of a wired entry exactly if the entry fits. -/
theorem exists_accepted_iff (h : p.Declared registry)
    (hnodup : (p.outputs.values.map Channel.id).Nodup)
    (hunclaimed : ∀ c ∈ p.outputs.values, (s.channel c).producer = none)
    {inputs : TextMap Channel} (hwired : Wired channels p.entry.inputs inputs) :
    (∃ parameters, (p.draft inputs).Accepted s parameters) ↔ p.Fits channels := by
  have hvalid : (∃ parameters, p.kind.spec.validate (some p.entry.name) inputs p.outputs
      p.entry.parameters = .ok parameters) ↔ _ := Spec.exists_validate_iff _
  rw [hwired.namesAgree_iff, hwired.types_iff] at hvalid
  have hfilled := h.filled_draft inputs s
  constructor
  · rintro ⟨parameters, haccepted⟩
    have hv := haccepted.valid
    rw [hfilled] at hv
    obtain ⟨⟨hfields, hreferences⟩, -, hnames, hparameters⟩ := hvalid.mp ⟨parameters, hv⟩
    exact ⟨haccepted.named, hfields, hreferences, hnames, hparameters⟩
  · intro hfits
    obtain ⟨parameters, hv⟩ := hvalid.mpr ⟨⟨hfits.fields, hfits.references⟩, h.outputs_valid,
      hfits.parameterNames, hfits.parameters⟩
    obtain ⟨hfree, hunshared⟩ := h.outputs_free hnodup hunclaimed inputs
    exact ⟨parameters, hfits.name, by rw [hfilled]; exact hv, hfree, hunshared⟩

/-- Between two states of the store, entries have become the producers of their outputs, and no
other channel has been claimed. -/
structure Claims (placed : List Placed) (s s' : Store) : Prop where
  producer : ∀ p ∈ placed, ∀ e ∈ p.outputs.entries,
    (s'.channel e.2).producer = some ⟨p.entry.name, e.1⟩
  others : ∀ c : Channel, c.id ∉ (outputsOf placed).map Channel.id →
    (s'.channel c).producer = (s.channel c).producer

/-- A component is built from an entry exactly if the entry fits, and claims its outputs. -/
theorem construct_decides (h : p.Declared registry)
    (hnodup : (p.outputs.values.map Channel.id).Nodup)
    (hunclaimed : ∀ c ∈ p.outputs.values, (s.channel c).producer = none) :
    Decides (construct channels p) s (p.Fits channels) fun k s' => p.Made channels k ∧
      Claims [p] s s' := by
  refine ((Decides.ask.congr exists_wire_iff).bind fun inputs s₁ _ hw => ?_).congr
    (and_iff_right_of_imp fun hfits e he => ?_)
  · obtain ⟨hwire, rfl⟩ := hw
    have hwired := Wired.of_wire hwire
    refine within_decides ((((p.draft inputs).build_decides s₁).congr
      (exists_accepted_iff h hnodup hunclaimed hwired)).imp fun k s' _ hk => ?_) _ _
    obtain ⟨hclaimed, hname, hspec, hin, hout⟩ := hk
    rw [h.filled_draft inputs s₁] at hclaimed hout
    refine ⟨⟨hname, hspec, hout, by rw [hin]; exact hwired⟩, ?_, fun c hc => ?_⟩
    · intro q hq
      rw [List.mem_singleton.mp hq]
      exact hclaimed.producer
    · rw [hclaimed.others c (by simpa [outputsOf, SortedMap.values, Function.comp_def] using hc)]
  · exact hfits.exists_resolve (SortedMap.find?_eq_some_iff.mpr he)

/-! ### All entries

The induction is on the list of entries. Its hypothesis about channels without producers is about
the entries that are still to come. -/

/-- The components of the entries, in their order. Both lists have the same length, so no entry is
without a component. -/
def Constructed (channels : Channels) (placed : List Placed) (ks : List Component) : Prop :=
  List.Forall₂ (fun p k => p.Made channels k) placed ks

namespace Constructed

variable {ks : List Component}

theorem names (h : Constructed channels placed ks) :
    ks.map Component.name = placed.map fun p => p.entry.name := by
  induction h with
  | nil => rfl
  | cons hk _ ih => rw [List.map_cons, List.map_cons, hk.name, ih]

theorem exists_placed (h : Constructed channels placed ks) :
    ∀ k ∈ ks, ∃ p ∈ placed, p.Made channels k := by
  induction h with
  | nil => simp
  | cons hk _ ih =>
    rw [List.forall_mem_cons]
    refine ⟨⟨_, List.mem_cons_self, hk⟩, fun l hl => ?_⟩
    obtain ⟨q, hq, hl⟩ := ih l hl
    exact ⟨q, List.mem_cons_of_mem _ hq, hl⟩

theorem exists_component (h : Constructed channels placed ks) :
    ∀ p ∈ placed, ∃ k ∈ ks, p.Made channels k := by
  induction h with
  | nil => simp
  | cons hk _ ih =>
    rw [List.forall_mem_cons]
    refine ⟨⟨_, List.mem_cons_self, hk⟩, fun q hq => ?_⟩
    obtain ⟨l, hl, hq⟩ := ih q hq
    exact ⟨l, List.mem_cons_of_mem _ hl, hq⟩

/-- The outputs of the components are the channels that were made for the entries. -/
theorem outputs (h : Constructed channels placed ks) :
    ks.flatMap (fun k => k.outputs.values) = outputsOf placed := by
  induction h with
  | nil => rfl
  | cons hk _ ih => rw [outputsOf, List.flatMap_cons, List.flatMap_cons, hk.outputs, ih, outputsOf]

end Constructed

/-- Channels that are no outputs of an entry stay unclaimed when the entry claims its outputs. -/
theorem Claims.unclaimed {s' : Store} {cs : List Channel} (h : Claims [p] s s')
    (hapart : ∀ c ∈ cs, c.id ∉ p.outputs.values.map Channel.id)
    (hunclaimed : ∀ c ∈ cs, (s.channel c).producer = none) :
    ∀ c ∈ cs, (s'.channel c).producer = none := by
  intro c hc
  rw [h.others c (by simpa [outputsOf] using hapart c hc)]
  exact hunclaimed c hc

/-- A build leaves the channels of the other entries unclaimed, and what it has claimed stays so. -/
theorem constructAll_decides (hdeclared : ∀ p ∈ placed, p.Declared registry)
    (hnodup : ((outputsOf placed).map Channel.id).Nodup)
    (hunclaimed : ∀ c ∈ outputsOf placed, (s.channel c).producer = none) :
    Decides (placed.mapM (construct channels)) s (∀ p ∈ placed, p.Fits channels)
      fun ks s' => Constructed channels placed ks ∧ Claims placed s s' := by
  induction placed generalizing s with
  | nil => exact (Decides.pure ⟨.nil, by simp, fun _ _ => rfl⟩).congr (by simp)
  | cons p rest ih =>
    rw [List.forall_mem_cons] at hdeclared
    rw [outputsOf, List.flatMap_cons] at hunclaimed hnodup
    rw [List.forall_mem_append] at hunclaimed
    rw [List.map_append, List.nodup_append] at hnodup
    obtain ⟨hp, hrest, hapart⟩ := hnodup
    rw [List.mapM_cons]
    refine ((construct_decides hdeclared.1 hp hunclaimed.1).bind
      (Q := ∀ q ∈ rest, q.Fits channels) fun k s' _ hk => ?_).congr (by rw [List.forall_mem_cons])
    obtain ⟨hmade, hclaims⟩ := hk
    have hone : outputsOf [p] = p.outputs.values := by simp [outputsOf]
    have hleft := hclaims.unclaimed
      (fun c hc hm => hapart _ hm _ (List.mem_map_of_mem hc) rfl) hunclaimed.2
    refine (ih hdeclared.2 hrest hleft).andThen fun ks s'' _ hks =>
      .pure ⟨.cons hmade hks.1, ?_, fun c hc => ?_⟩
    · rw [List.forall_mem_cons]
      refine ⟨fun e he => ?_, hks.2.producer⟩
      have hmem : e.2 ∈ p.outputs.values := List.mem_map_of_mem he
      rw [hks.2.others e.2 fun hm => hapart _ (List.mem_map_of_mem hmem) _ hm rfl]
      exact hclaims.producer p List.mem_cons_self e he
    · rw [outputsOf, List.flatMap_cons, List.map_append, List.mem_append, not_or] at hc
      rw [hks.2.others c hc.2, hclaims.others c (by rw [hone]; exact hc.1)]

end TypedPipeline.Recipe
