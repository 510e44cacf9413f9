import TypedPipeline.Proofs.Pipeline.Assembly
import TypedPipeline.Proofs.Recipe.Construction

/-!
# Which recipes are accepted

Whether a pipeline can be built from a recipe is decided in many places: where channels are made,
where references are read, where a contract is checked, where outputs are claimed, and where the
pipeline is assembled. What all of them decide together is said here of the recipe and the registry
alone. No channel, no store and no order of the checks occurs in it, and so the order in which a
recipe lists its inputs and entries does not matter.

Of several entries with one name, a reference means the first one. This does not show, since names
that occur again are refused in the end.

## Implementation notes

Every step of a build has a lemma of one form, `Decides`: the step succeeds exactly if a condition
holds, and then something is known of what it gives. Such lemmas are joined in the order of the
steps, and the condition of a later step may speak of what an earlier one gave. So what comes out at
first is a condition on channels. The work of this module is to turn it into a condition on the
recipe, and `Recipe.LaidOut` is what makes this possible: it says which channels there are, in terms
of the recipe, without saying which numbers they have.

Conditions are turned one by one. That a reference leads to a channel of a type becomes
`Recipe.Provides`, that one component feeds another becomes `Recipe.Refers`, and the checks of an
assembly are two of names and one of cycles, of which the second, that every input comes from
somewhere, holds by itself.

## Names that occur twice

Some of these equivalences hold only if the entries have different names, since otherwise a
reference means the first of several. That is no gap. `Recipe.Acceptable` asks for different names,
and so does the assembly at the end of a build. So both sides of an equivalence are false if names
are not distinct, and one may assume that they are.

## Main definitions

* `Recipe.Provides`, `Recipe.Refers` — what a reference may mean, and who refers to whom
* `Recipe.Acceptable` — what is asked of a recipe
* `Recipe.Built` — what a pipeline has from its recipe

## Main results

* `Recipe.build_decides` — a pipeline is built from a recipe exactly if it is acceptable
* `Recipe.build_succeeds_iff` — the same of the outcome, in any order of inputs and entries
-/

namespace TypedPipeline

open StoreM (Decides)

namespace Recipe

/-! ### What is asked of a recipe

These definitions are made to be read beside a recipe. They mention types by their names, as recipes
do, and kinds by what the registry has for them. -/

/-- A reference means a declared input with a type, or an output that the kind of an entry declares
with that type. Where entries share a name, any of them will do. It is only for acceptable recipes
that this is the meaning of the reference. -/
def Provides (r : Recipe) (registry : Registry) (reference typeName : String) : Prop :=
  (∃ name, Reference.NamesInput reference name ∧
      ∃ input ∈ r.inputs, input.name = name ∧ input.typeName = typeName) ∨
    ∃ component output, Reference.NamesOutput reference component output ∧
      ∃ e ∈ r.entries, e.name = component ∧
        ∃ kind, registry.kinds.find? e.kind = some kind ∧
          ∃ type, (output, type) ∈ kind.spec.outputs ∧ type.name = typeName

/-- An entry has a reference to an output of another one, or of itself. Whether the other entry has
such an output is not asked here, because a reference to an output that is not there is refused in
its own right. -/
def Refers (r : Recipe) (a b : Entry) : Prop :=
  a ∈ r.entries ∧ b ∈ r.entries ∧ ∃ field reference output,
    a.inputs.find? field = some reference ∧ Reference.NamesOutput reference b.name output

/-- What is asked of an entry of a kind: a name that is a word, the fields of the contract,
references that mean channels of the declared types, and parameters that stand for theirs. -/
structure Entry.Acceptable (r : Recipe) (registry : Registry) (kind : Kind) (e : Entry) :
    Prop where
  nonempty : e.name ≠ ""
  word : ∀ c ∈ e.name.toList, c.isAlphanum = true ∨ c = '_' ∨ c = '-'
  fields : Spec.NamesAgree kind.spec.inputs e.inputs
  references : ∀ f ∈ kind.spec.inputs, ∀ reference, e.inputs.find? f.1 = some reference →
    r.Provides registry reference f.2.name
  parameterNames : Spec.NamesAgree kind.spec.parameters e.parameters
  parameters : ∀ f ∈ kind.spec.parameters, ∀ v, e.parameters.find? f.1 = some v →
    (v.coerce? f.2).isSome

/-- What is asked of a recipe. The order of inputs and entries occurs nowhere, and neither do the
name of the recipe, its configuration or the locations of its inputs, apart from the splits of an
input that has a location. -/
structure Acceptable (r : Recipe) (registry : Registry) : Prop where
  version : r.version = 1
  inputs : ∀ input ∈ r.inputs, input.Acceptable registry.types
  inputNames : (r.inputs.map Input.name).Nodup
  entries : ∀ e ∈ r.entries, ∃ kind, registry.kinds.find? e.kind = some kind ∧
    e.Acceptable r registry kind
  entryNames : (r.entries.map Entry.name).Nodup
  /-- No entry depends on its own outputs, directly or through others. -/
  acyclic : ∀ e, ¬ Relation.TransGen r.Refers e e

theorem isComponentName_iff {name : String} : isComponentName name = true ↔
    name ≠ "" ∧ ∀ c ∈ name.toList, c.isAlphanum = true ∨ c = '_' ∨ c = '-' := by
  simp [isComponentName, or_assoc]

variable {r r' : Recipe} {registry : Registry} {channels : Channels} {p q : Placed}
  {placed : List Placed} {s : Store}

/-! ### References

From here on the channels of the recipe are there, and what is said of them is turned into what is
said of the recipe. -/

namespace LaidOut

theorem mem_entries_iff (h : r.LaidOut registry channels placed s) {e : Entry} :
    e ∈ r.entries ↔ ∃ p ∈ placed, p.entry = e := by
  rw [← h.entries, List.mem_map]

/-- The outputs that are found under a name are those of an entry with that name. -/
theorem exists_placed_of_lookup (h : r.LaidOut registry channels placed s) {component : String}
    {outputs : TextMap Channel} (hl : channels.outputs.lookup component = some outputs) :
    ∃ p ∈ placed, p.entry.name = component ∧ p.outputs = outputs := by
  obtain ⟨before, behind, heq, -⟩ := List.lookup_eq_some_iff.mp hl
  have hmem : (component, outputs) ∈ channels.outputs := by simp [heq]
  rw [h.outputs, List.mem_map] at hmem
  obtain ⟨p, hp, heq⟩ := hmem
  exact ⟨p, hp, (Prod.mk.inj heq).1, (Prod.mk.inj heq).2⟩

/-- Where names are distinct, the outputs of an entry are found under its name. -/
theorem lookup_of_mem (h : r.LaidOut registry channels placed s)
    (hnames : (r.entries.map Entry.name).Nodup) (hp : p ∈ placed) :
    channels.outputs.lookup p.entry.name = some p.outputs := by
  have hsome : (channels.outputs.lookup p.entry.name).isSome := by
    rw [List.lookup_isSome_iff, h.outputs]
    exact ⟨_, List.mem_map_of_mem hp, by simp⟩
  obtain ⟨outputs, houtputs⟩ := Option.isSome_iff_exists.mp hsome
  obtain ⟨q, hq, hname, rfl⟩ := h.exists_placed_of_lookup houtputs
  rw [← h.entries, List.map_map] at hnames
  rw [houtputs, List.inj_on_of_nodup_map hnames hq hp hname]

/-- A channel is an output of one entry only. It was made for this entry, and no number is given out
twice. -/
theorem owner_unique (h : r.LaidOut registry channels placed s) (hp : p ∈ placed) (hq : q ∈ placed)
    {c d : Channel} (hc : c ∈ p.outputs.values) (hd : d ∈ q.outputs.values) (hid : c.id = d.id) :
    p = q := by
  have hnodup := h.nodup
  rw [List.map_append, List.nodup_append, outputsOf, List.map_flatMap, List.nodup_flatMap] at hnodup
  have : Std.Symm (Function.onFun List.Disjoint fun p : Placed =>
      p.outputs.values.map Channel.id) := ⟨fun _ _ hpq => hpq.symm⟩
  by_contra hne
  refine hnodup.2.1.2.forall hp hq hne (List.mem_map_of_mem hc) ?_
  rw [hid]
  exact List.mem_map_of_mem hd

theorem input_ne_output (h : r.LaidOut registry channels placed s) (hp : p ∈ placed)
    {c d : Channel} (hc : c ∈ channels.inputs.values) (hd : d ∈ p.outputs.values) :
    c.id ≠ d.id := by
  have hnodup := h.nodup
  rw [List.map_append, List.nodup_append] at hnodup
  have hmem : d ∈ outputsOf placed := List.mem_flatMap.mpr ⟨p, hp, hd⟩
  exact hnodup.2.2 c.id (List.mem_map_of_mem hc) d.id (List.mem_map_of_mem hmem)

/-- A reference leads to a channel of a type exactly if the recipe provides it. Here a question
about channels becomes one about what is written. -/
theorem provides_iff (h : r.LaidOut registry channels placed s)
    (hnames : (r.entries.map Entry.name).Nodup) {reference typeName : String} :
    (∃ c, channels.resolve reference = .ok c ∧ typeName = c.type.name) ↔
      r.Provides registry reference typeName := by
  constructor
  · rintro ⟨c, hc, rfl⟩
    rcases resolve_ok_iff.mp hc with ⟨name, hreads, hfind⟩ |
      ⟨component, output, outputs, hreads, hlookup, hfind⟩
    · exact .inl ⟨name, hreads, (h.inputs name c.type.name).mp ⟨c, hfind, rfl⟩⟩
    · obtain ⟨p, hp, hname, rfl⟩ := h.exists_placed_of_lookup hlookup
      have hdeclared := h.declared p hp
      exact .inr ⟨component, output, hreads, p.entry, h.mem_entries_iff.mpr ⟨p, hp, rfl⟩, hname,
        p.kind, hdeclared.kind, c.type, (hdeclared.outputs output c.type).mp ⟨c, hfind, rfl⟩, rfl⟩
  · rintro (⟨name, hreads, hinput⟩ | ⟨component, output, hreads, e, he, rfl, kind, hkind, type,
      htype, rfl⟩)
    · obtain ⟨c, hfind, htype⟩ := (h.inputs name typeName).mpr hinput
      exact ⟨c, resolve_ok_iff.mpr (.inl ⟨name, hreads, hfind⟩), htype.symm⟩
    · obtain ⟨p, hp, rfl⟩ := h.mem_entries_iff.mp he
      have hdeclared := h.declared p hp
      cases hkind.symm.trans hdeclared.kind
      obtain ⟨c, hfind, rfl⟩ := (hdeclared.outputs output type).mpr htype
      exact ⟨c, resolve_ok_iff.mpr (.inr ⟨p.entry.name, output, p.outputs, hreads,
        h.lookup_of_mem hnames hp, hfind⟩), rfl⟩

/-- What is asked of entries with channels is what is asked of entries. The two differ in what they
say of references, and there `provides_iff` leads from one to the other. -/
theorem fits_iff (h : r.LaidOut registry channels placed s)
    (hnames : (r.entries.map Entry.name).Nodup) :
    (∀ p ∈ placed, p.Fits channels) ↔
      ∀ e ∈ r.entries, ∃ kind, registry.kinds.find? e.kind = some kind ∧
        e.Acceptable r registry kind := by
  constructor
  · intro hfits e he
    obtain ⟨p, hp, rfl⟩ := h.mem_entries_iff.mp he
    have hp' := hfits p hp
    obtain ⟨hnonempty, hword⟩ := isComponentName_iff.mp hp'.name
    exact ⟨p.kind, (h.declared p hp).kind, hnonempty, hword, hp'.fields,
      fun f hf reference hr => (h.provides_iff hnames).mp (hp'.references f hf reference hr),
      hp'.parameterNames, hp'.parameters⟩
  · intro hall p hp
    obtain ⟨kind, hkind, he⟩ := hall p.entry (h.mem_entries_iff.mpr ⟨p, hp, rfl⟩)
    cases hkind.symm.trans (h.declared p hp).kind
    exact ⟨isComponentName_iff.mpr ⟨he.nonempty, he.word⟩, he.fields,
      fun f hf reference hr => (h.provides_iff hnames).mpr (he.references f hf reference hr),
      he.parameterNames, he.parameters⟩

end LaidOut

/-! ### Dependencies

The graph of components has an edge for every shared channel, and each channel is that of one output
or of one input. So an edge is a reference. -/

/-- A component feeds another one exactly if the entry of that one refers to its entry. They have a
channel in common if a reference leads to one that was made for an output. -/
theorem feeds_iff (h : r.LaidOut registry channels placed s)
    (hnames : (r.entries.map Entry.name).Nodup) (hp : p ∈ placed) (hq : q ∈ placed)
    {k l : Component} (hk : p.Made channels k) (hl : q.Made channels l) :
    k.Feeds l ↔ r.Refers q.entry p.entry := by
  constructor
  · rintro ⟨c, hc, d, hd, hid⟩
    rw [hk.outputs] at hc
    obtain ⟨field, hd⟩ := SortedMap.mem_values_iff_find?.mp hd
    obtain ⟨reference, hreference, hresolve⟩ := (hl.inputs.find? field d).mp hd
    refine ⟨h.mem_entries_iff.mpr ⟨q, hq, rfl⟩, h.mem_entries_iff.mpr ⟨p, hp, rfl⟩, field,
      reference, ?_⟩
    rcases resolve_ok_iff.mp hresolve with ⟨name, -, hfind⟩ |
      ⟨component, output, outputs, hreads, hlookup, hfind⟩
    · have hd := SortedMap.mem_values_iff_find?.mpr ⟨name, hfind⟩
      exact absurd hid.symm (h.input_ne_output hp hd hc)
    · obtain ⟨p', hp', rfl, rfl⟩ := h.exists_placed_of_lookup hlookup
      have hd := SortedMap.mem_values_iff_find?.mpr ⟨output, hfind⟩
      cases h.owner_unique hp hp' hc hd hid
      exact ⟨output, hreference, hreads⟩
  · rintro ⟨-, -, field, reference, output, hreference, hreads⟩
    obtain ⟨d, hresolve⟩ := hl.inputs.resolves field reference hreference
    have hd := (hl.inputs.find? field d).mpr ⟨reference, hreference, hresolve⟩
    obtain ⟨outputs, hlookup, hfind⟩ := (resolve_output_iff hreads).mp hresolve
    cases (h.lookup_of_mem hnames hp).symm.trans hlookup
    refine ⟨d, ?_, d, SortedMap.mem_values_iff_find?.mpr ⟨field, hd⟩, rfl⟩
    rw [hk.outputs]
    exact SortedMap.mem_values_iff_find?.mpr ⟨output, hfind⟩

/-- Every input of a component that was built is a declared one or an output of a component. So one
of the checks of an assembly never fails here. -/
theorem resolved_of_constructed (h : r.LaidOut registry channels placed s) {ks : List Component}
    (hks : Constructed channels placed ks) :
    Wiring.Resolved ks.toArray channels.inputs.values := by
  intro k hk d hd
  obtain ⟨q, -, hmade⟩ := hks.exists_placed k (by simpa using hk)
  obtain ⟨field, hd⟩ := SortedMap.mem_values_iff_find?.mp hd
  obtain ⟨reference, -, hresolve⟩ := (hmade.inputs.find? field d).mp hd
  rcases resolve_ok_iff.mp hresolve with ⟨name, -, hfind⟩ |
    ⟨component, output, outputs, -, hlookup, hfind⟩
  · exact .inl ⟨d, SortedMap.mem_values_iff_find?.mpr ⟨name, hfind⟩, rfl⟩
  · obtain ⟨p, hp, -, rfl⟩ := h.exists_placed_of_lookup hlookup
    obtain ⟨a, ha, hmade⟩ := hks.exists_component p hp
    refine .inr ⟨a, by simpa using ha, d, ?_, rfl⟩
    rw [hmade.outputs]
    exact SortedMap.mem_values_iff_find?.mpr ⟨output, hfind⟩

/-- Components of entries with different names share no output. This is a property of the channels
that were made for them, so it does not need that the components claimed them. -/
theorem exclusive_of_constructed (h : r.LaidOut registry channels placed s) {ks : List Component}
    (hks : Constructed channels placed ks) (hd : Wiring.Distinct ks.toArray) :
    Wiring.Exclusive ks.toArray := by
  intro u v c hc d hd' hid
  have hmem : ∀ w, Wiring.componentAt ks.toArray w ∈ ks := fun w => by
    simpa using Wiring.componentAt_mem w
  obtain ⟨p, hp, hu⟩ := hks.exists_placed _ (hmem u)
  obtain ⟨q, hq, hv⟩ := hks.exists_placed _ (hmem v)
  rw [hu.outputs] at hc
  rw [hv.outputs] at hd'
  cases h.owner_unique hp hq hc hd' hid
  exact hd.name_injective (hu.name.trans hv.name.symm)

/-- The components depend on each other as their entries refer to each other. So a circle of
components is a circle of entries. -/
theorem acyclic_iff (h : r.LaidOut registry channels placed s)
    (hnames : (r.entries.map Entry.name).Nodup) {ks : List Component}
    (hks : Constructed channels placed ks) :
    Wiring.Acyclic ks.toArray ↔ ∀ e, ¬ Relation.TransGen r.Refers e e := by
  have hswap : (∀ e, ¬ Relation.TransGen (Function.swap r.Refers) e e) ↔
      ∀ e, ¬ Relation.TransGen r.Refers e e :=
    forall_congr' fun e => not_congr Relation.transGen_swap
  rw [← hswap]
  refine acyclic_iff_of_related
    (m := fun k e => ∃ p ∈ placed, p.entry = e ∧ k ∈ ks ∧ p.Made channels k) ?_ ?_ ?_
  · intro k l hkl
    have hk : k ∈ ks := by simpa using hkl.1
    obtain ⟨p, hp, hmade⟩ := hks.exists_placed k hk
    exact ⟨p.entry, p, hp, rfl, hk, hmade⟩
  · intro e f hef
    obtain ⟨p, hp, rfl⟩ := h.mem_entries_iff.mp hef.2.1
    obtain ⟨k, hk, hmade⟩ := hks.exists_component p hp
    exact ⟨k, p, hp, rfl, hk, hmade⟩
  · rintro k l _ _ ⟨p, hp, rfl, hk, hmade⟩ ⟨q, hq, rfl, hl, hmade'⟩
    have hfeeds := feeds_iff h hnames hp hq hmade hmade'
    exact ⟨fun hkl => hfeeds.mp hkl.2.2,
      fun hkl => ⟨by simpa using hk, by simpa using hl, hfeeds.mpr hkl⟩⟩

/-- Of components that were built, names and dependencies are all that is left to be checked. -/
theorem exists_assemble_iff (h : r.LaidOut registry channels placed s) {ks : List Component}
    (hks : Constructed channels placed ks) (name : String) (config : PipelineConfig) :
    (∃ pipeline, Pipeline.assemble name ks.toArray channels.inputs.values config = .ok pipeline) ↔
      (r.entries.map Entry.name).Nodup ∧ ∀ e, ¬ Relation.TransGen r.Refers e e := by
  have hdistinct : Wiring.Distinct ks.toArray ↔ (r.entries.map Entry.name).Nodup := by
    rw [Wiring.Distinct, hks.names, ← h.entries, List.map_map]
    rfl
  rw [Pipeline.exists_assemble_iff, and_iff_right (resolved_of_constructed h hks), ← hdistinct]
  refine and_congr_right fun hd => ?_
  rw [Graph.findCycle?_eq_none_iff,
    Wiring.acyclic_graph_iff (exclusive_of_constructed h hks hd)]
  exact acyclic_iff h (hdistinct.mp hd) hks

/-! ### All steps

The steps are joined in their order: version, inputs, kinds, components, assembly. The last two are
taken together first, as `Recipe.LaidOut.assemble_decides`, because their conditions are those that
have to be turned. -/

theorem checkVersion_decides (r : Recipe) (s : Store) :
    Decides (StoreM.ask fun _ => r.checkVersion) s (r.version = 1) fun _ _ => True := by
  refine (Decides.ask.congr ?_).imp fun _ _ _ _ => trivial
  by_cases hversion : r.version = 1
  · simp [checkVersion, currentVersion, hversion]
  · simp [checkVersion, currentVersion, hversion]

theorem assembleNoted_decides (name : String) (cs : Array Component) (inputs : List Channel)
    (config : PipelineConfig) (s : Store) :
    Decides (Pipeline.assembleNoted name cs inputs config) s
      (∃ p, Pipeline.assemble name cs inputs config = .ok p)
      fun p s' => p.components = cs ∧ p.inputs = inputs ∧ s'.channels = s.channels :=
  Decides.ask.andThen fun p s' _ ⟨hp, hs'⟩ => by
    obtain ⟨hcomponents, hinputs⟩ := Pipeline.components_of_assemble hp
    exact .of_ok (StoreM.run'_apply _ _)
      ⟨hcomponents, hinputs, (Store.grows_noteAll s' _).channels.trans (by rw [hs'])⟩

/-- A pipeline whose components are those of placed entries, and the store behind it: the entries
have become the producers of their outputs, and nobody produces an input. -/
structure Built (r : Recipe) (registry : Registry) (channels : Channels) (placed : List Placed)
    (p : Pipeline) (s : Store) : Prop where
  laidOut : ∃ s₀, r.LaidOut registry channels placed s₀
  constructed : Constructed channels placed p.components.toList
  inputs : p.inputs = channels.inputs.values
  producer : ∀ q ∈ placed, ∀ e ∈ q.outputs.entries,
    (s.channel e.2).producer = some ⟨q.entry.name, e.1⟩
  unproduced : ∀ c ∈ channels.inputs.values, (s.channel c).producer = none

/-- What assembling adds to components that were built. -/
theorem LaidOut.built {s' s'' : Store} (h : r.LaidOut registry channels placed s)
    {ks : List Component} (hks : Constructed channels placed ks) (hclaims : Claims placed s s')
    {p : Pipeline} (hcomponents : p.components = ks.toArray)
    (hinputs : p.inputs = channels.inputs.values) (hs'' : s''.channels = s'.channels) :
    r.Built registry channels placed p s'' where
  laidOut := ⟨s, h⟩
  constructed := by rwa [hcomponents]
  inputs := hinputs
  producer q hq e he := by
    rw [Store.channel_congr hs'']
    exact hclaims.producer q hq e he
  unproduced c hc := by
    rw [Store.channel_congr hs'', hclaims.others c fun hm => ?_, h.unproduced c hc]
    obtain ⟨d, hd, hid⟩ := List.mem_map.mp hm
    obtain ⟨q, hq, hd⟩ := List.mem_flatMap.mp hd
    exact h.input_ne_output hq hc hd hid.symm

/-- What comes once all channels are there. -/
theorem LaidOut.assemble_decides (h : r.LaidOut registry channels placed s)
    (rootGiven : Option String) :
    Decides (do
        let components ← placed.mapM (construct channels)
        within s!"Failed to assemble pipeline '{r.name}'" .dag
          (Pipeline.assembleNoted r.name components.toArray channels.inputs.values
            (r.config.overridden rootGiven))) s
      ((∀ e ∈ r.entries, ∃ kind, registry.kinds.find? e.kind = some kind ∧
          e.Acceptable r registry kind) ∧
        (r.entries.map Entry.name).Nodup ∧ ∀ e, ¬ Relation.TransGen r.Refers e e)
      fun p s' => r.Built registry channels placed p s' := by
  have hnodup : ((outputsOf placed).map Channel.id).Nodup := by
    have := h.nodup
    rw [List.map_append, List.nodup_append] at this
    exact this.2.1
  refine ((constructAll_decides h.declared hnodup h.unclaimed).bind fun ks s'' _ hks =>
    within_decides (((assembleNoted_decides _ _ _ _ s'').congr
      (exists_assemble_iff h hks.1 _ _)).imp fun p t _ hp =>
        h.built hks.1 hks.2 hp.1 hp.2.1 hp.2.2) _ _).congr ?_
  rw [← and_assoc, ← and_assoc]
  exact and_congr_left fun _ => and_congr_left fun hnames => h.fits_iff hnames

/-- A pipeline is built from a recipe exactly if the recipe is acceptable. The store is arbitrary,
and so is the root that is given from outside: neither has a say in it. -/
theorem build_decides (r : Recipe) (registry : Registry) (rootGiven : Option String) (s : Store) :
    Decides (r.build registry rootGiven) s (r.Acceptable registry) fun p s' =>
      ∃ channels placed, r.Built registry channels placed p s' := by
  refine ((checkVersion_decides r s).bind fun _ s₁ _ _ =>
    (layOut_decides r registry s₁).bind fun l s₂ _ hl =>
      (hl.assemble_decides rootGiven).imp fun p t _ hbuilt => ⟨l.1, l.2, hbuilt⟩).congr ?_
  constructor
  · rintro ⟨hversion, ⟨⟨hinputs, hinputNames⟩, -⟩, hentries, hnames, hacyclic⟩
    exact ⟨hversion, hinputs, hinputNames, hentries, hnames, hacyclic⟩
  · intro h
    refine ⟨h.version, ⟨⟨h.inputs, h.inputNames⟩, fun e he => ?_⟩, h.entries, h.entryNames,
      h.acyclic⟩
    obtain ⟨kind, hkind, -⟩ := h.entries e he
    exact ⟨kind, hkind⟩

/-- The channels of a pipeline that was built are those that were made at first. -/
theorem layOut_of_build {rootGiven : Option String} {p : Pipeline} {s s' : Store}
    (h : r.build registry rootGiven s = (.ok p, s')) :
    ∃ channels placed s₀, r.layOut registry s = (.ok (channels, placed), s₀) ∧
      r.Built registry channels placed p s' := by
  rw [build, StoreM.bind_apply, StoreM.ask_apply] at h
  cases hversion : r.checkVersion with
  | error f =>
    rw [hversion] at h
    cases h
  | ok done =>
    rw [hversion] at h
    dsimp only at h
    rw [StoreM.bind_apply] at h
    rcases hlay : r.layOut registry s with ⟨f | ⟨channels, placed⟩, s₀⟩
    · rw [hlay] at h
      cases h
    · rw [hlay] at h
      have hlaid := ((layOut_decides r registry s).sound _ _ hlay).2
      exact ⟨channels, placed, s₀, rfl, ((hlaid.assemble_decides rootGiven).sound p s' h).2⟩

/-! ### The order of inputs and entries

Nothing needs to be shown of builds here. Acceptability is a matter of what is in the two lists, so
it is the same for all of their permutations. -/

theorem provides_of_perm (hinputs : r'.inputs.Perm r.inputs)
    (hentries : r'.entries.Perm r.entries) :
    r'.Provides registry = r.Provides registry := by
  funext reference typeName
  simp only [Provides, hinputs.mem_iff, hentries.mem_iff]

theorem refers_of_perm (hentries : r'.entries.Perm r.entries) : r'.Refers = r.Refers := by
  funext a b
  simp only [Refers, hentries.mem_iff]

/-- What is asked of a recipe does not depend on the order of its inputs and entries. Neither does
it depend on anything else but these and the version. -/
theorem Acceptable.of_perm (h : r.Acceptable registry) (hversion : r'.version = r.version)
    (hinputs : r'.inputs.Perm r.inputs) (hentries : r'.entries.Perm r.entries) :
    r'.Acceptable registry where
  version := hversion.trans h.version
  inputs input hinput := h.inputs input (hinputs.mem_iff.mp hinput)
  inputNames := (hinputs.map Input.name).nodup_iff.mpr h.inputNames
  entries e he := by
    obtain ⟨kind, hkind, hacceptable⟩ := h.entries e (hentries.mem_iff.mp he)
    refine ⟨kind, hkind, { hacceptable with references := ?_ }⟩
    rw [provides_of_perm hinputs hentries]
    exact hacceptable.references
  entryNames := (hentries.map Entry.name).nodup_iff.mpr h.entryNames
  acyclic := by
    rw [refers_of_perm hentries]
    exact h.acyclic

end Recipe

/-! ### Recipes of components that pass tables on

The components are those that have been used for pipelines, and they come from a recipe now. -/

namespace Relay

/-- The kind of the components, and the type of tables. -/
def registry : Registry :=
  { (Registry.empty.register spec fun _ _ => .apply ⟨.output, "out", 0⟩ (.setUri "mem:out")) with
    types := TypeRegistry.empty.add table }

/-- An entry of that kind. -/
def entry (name main side : String) : Recipe.Entry where
  name
  kind := "relay"
  inputs := .ofList [("in", main), ("side", side)]

/-- A table that is there already, and one that is not. -/
def declaredInputs : List Recipe.Input :=
  [⟨"raw", "Table", some "mem:raw", ["train"]⟩, ⟨"extra", "Table", none, []⟩]

/-- An entry that reads from a later one. -/
def recipe : Recipe where
  version := 1
  name := "relay"
  inputs := declaredInputs
  entries := [entry "second" " first.out" "extra", entry "first" "raw" "extra "]

/-- Two entries that read from each other. -/
def circular : Recipe :=
  { recipe with entries := [entry "second" "first.out" "extra", entry "first" "second.out" "raw"] }

theorem acceptable_declaredInputs : ∀ input ∈ declaredInputs, input.Acceptable registry.types := by
  simp only [declaredInputs, List.forall_mem_cons]
  exact ⟨⟨⟨table, rfl⟩, fun _ => by decide⟩, ⟨⟨table, rfl⟩, fun _ => by decide⟩, by simp⟩

theorem fields_entry (name main side : String) :
    Spec.NamesAgree spec.inputs (entry name main side).inputs :=
  (Spec.namesAgree_iff none .input).mpr (by cbv)

/-- An entry is acceptable if both references mean tables. -/
theorem exists_acceptable_entry {r : Recipe} {name main side : String}
    (hname : isComponentName name = true)
    (hmain : r.Provides registry main "Table") (hside : r.Provides registry side "Table") :
    ∃ kind, registry.kinds.find? (entry name main side).kind = some kind ∧
      (entry name main side).Acceptable r registry kind := by
  obtain ⟨hnonempty, hword⟩ := Recipe.isComponentName_iff.mp hname
  refine ⟨⟨spec, _⟩, rfl, hnonempty, hword, fields_entry name main side, ?_, ?_, ?_⟩
  · have hinputs : spec.inputs = [("in", table), ("side", table)] := rfl
    simp only [hinputs, List.forall_mem_cons, entry, SortedMap.ofList, List.foldl,
      SortedMap.find?_insert]
    simpa [table] using ⟨hmain, hside⟩
  · exact (Spec.namesAgree_iff none .parameter).mpr rfl
  · simp [spec, Spec.parameters]

theorem reference_entry {name main side field reference : String}
    (h : (entry name main side).inputs.find? field = some reference) :
    reference = main ∨ reference = side := by
  have hmem := SortedMap.mem_ofList (SortedMap.find?_eq_some_iff.mp h)
  have hcases : field = "in" ∧ reference = main ∨ field = "side" ∧ reference = side := by
    simpa using hmem
  exact hcases.imp And.right And.right

theorem refers_recipe {a b : Recipe.Entry} (h : recipe.Refers a b) :
    a.name = "second" ∧ b.name = "first" := by
  obtain ⟨ha, -, field, reference, output, hreference, hreads⟩ := h
  have hread := Reference.ofText?_output_iff.mpr hreads
  simp only [recipe, List.mem_cons, List.not_mem_nil, or_false] at ha
  rcases ha with rfl | rfl
  · rcases reference_entry hreference with rfl | rfl
    · have hfirst : Reference.ofText? " first.out" = some (.output "first" "out") := by
        decide +kernel
      have hboth : "first" = b.name ∧ "out" = output := by
        simpa using hfirst.symm.trans hread
      exact ⟨rfl, hboth.1.symm⟩
    · have hextra : Reference.ofText? "extra" = some (.input "extra") := by decide +kernel
      cases hextra.symm.trans hread
  · rcases reference_entry hreference with rfl | rfl
    · have hraw : Reference.ofText? "raw" = some (.input "raw") := by decide +kernel
      cases hraw.symm.trans hread
    · have hextra : Reference.ofText? "extra " = some (.input "extra") := by decide +kernel
      cases hextra.symm.trans hread

theorem acceptable_recipe : recipe.Acceptable registry where
  version := rfl
  inputs := acceptable_declaredInputs
  inputNames := by decide
  entries := by
    have hraw : recipe.Provides registry "raw" "Table" :=
      .inl ⟨"raw", by decide +kernel, _, .head _, rfl, rfl⟩
    have hextra : ∀ reference, Reference.NamesInput reference "extra" →
        recipe.Provides registry reference "Table" := fun _ h =>
      .inl ⟨"extra", h, _, .tail _ (.head _), rfl, rfl⟩
    have hfirst : recipe.Provides registry " first.out" "Table" :=
      .inr ⟨"first", "out", by decide +kernel, _, .tail _ (.head _), rfl, _, rfl, table,
        by simp [spec, Spec.outputs], rfl⟩
    simp only [recipe, List.forall_mem_cons]
    exact ⟨exists_acceptable_entry (by decide) hfirst (hextra _ (by decide +kernel)),
      exists_acceptable_entry (by decide) hraw (hextra _ (by decide +kernel)), by simp⟩
  entryNames := by decide
  acyclic e he := by
    obtain ⟨b, hfrom, -⟩ := Relation.TransGen.head'_iff.mp he
    obtain ⟨a, -, hto⟩ := Relation.TransGen.tail'_iff.mp he
    have hname := (refers_recipe hfrom).1.symm.trans (refers_recipe hto).2
    revert hname
    decide

theorem exists_cycle_circular : ∃ e, Relation.TransGen circular.Refers e e := by
  have hforth : circular.Refers (entry "second" "first.out" "extra")
      (entry "first" "second.out" "raw") :=
    ⟨.head _, .tail _ (.head _), "in", "first.out", "out", rfl, by decide +kernel⟩
  have hback : circular.Refers (entry "first" "second.out" "raw")
      (entry "second" "first.out" "extra") :=
    ⟨.tail _ (.head _), .head _, "in", "second.out", "out", rfl, by decide +kernel⟩
  exact ⟨_, .tail (.single hforth) hback⟩

end Relay

/-! ### The outcome -/

namespace Recipe

/-- A pipeline can be built from a recipe exactly if the recipe is acceptable. What it is called,
the environment and the store make no difference, and neither does the order of inputs and
entries. -/
theorem build_succeeds_iff (r : Recipe) (registry : Registry) (rootGiven : Option String)
    (s : Store) :
    ((∃ p s', r.build registry rootGiven s = (.ok p, s')) ↔ r.Acceptable registry) ∧
      ∀ (r' : Recipe) (rootGiven' : Option String) (t : Store), r'.version = r.version →
        r'.inputs.Perm r.inputs → r'.entries.Perm r.entries →
          ((∃ p t', r'.build registry rootGiven' t = (.ok p, t')) ↔
            ∃ p s', r.build registry rootGiven s = (.ok p, s')) := by
  have hbuild := (build_decides r registry rootGiven s).exists_ok_iff
  refine ⟨hbuild, fun r' rootGiven' t hversion hinputs hentries => ?_⟩
  rw [hbuild, (build_decides r' registry rootGiven' t).exists_ok_iff]
  exact ⟨fun h => h.of_perm hversion.symm hinputs.symm hentries.symm,
    fun h => h.of_perm hversion hinputs hentries⟩

/-- An entry may read from a later one, in any order of the entries; two entries may not read from
each other. -/
theorem build_succeeds_relay :
    (∃ p s', Relay.recipe.build Relay.registry none {} = (.ok p, s')) ∧
      (∃ p s', ({ Relay.recipe with entries := Relay.recipe.entries.reverse } : Recipe).build
        Relay.registry none {} = (.ok p, s')) ∧
      ¬ ∃ p s', Relay.circular.build Relay.registry none {} = (.ok p, s') := by
  obtain ⟨hverdict, horder⟩ := build_succeeds_iff Relay.recipe Relay.registry none {}
  have hbuilt := hverdict.mpr Relay.acceptable_recipe
  have hreversed := horder { Relay.recipe with entries := Relay.recipe.entries.reverse } none {} rfl
    (.refl _) (List.reverse_perm _)
  refine ⟨hbuilt, hreversed.mpr hbuilt, ?_⟩
  rw [(build_succeeds_iff Relay.circular Relay.registry none {}).1]
  obtain ⟨e, he⟩ := Relay.exists_cycle_circular
  exact fun h => h.acyclic e he

end Recipe

end TypedPipeline
