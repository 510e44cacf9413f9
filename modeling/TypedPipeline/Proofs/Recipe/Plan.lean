import TypedPipeline.Plan
import TypedPipeline.Proofs.Pipeline.Layers
import TypedPipeline.Proofs.Recipe.Acceptance

/-!
# Plans of recipes

A plan is made from a pipeline, whose components know channels and no references. If the pipeline
was built from a recipe, its plan can be read beside the recipe: every entry is there with its kind
and its fields, and every reference has become the channel of what it means. The order of the plan
is that of execution, so an entry that refers to a later one stands behind it; what an entry reads
from is listed as the recipe lists it.

A plan lists declared inputs by rising name and without their names. Here they are given back to
them.

## Implementation notes

A plan is a record of texts and numbers, and a reader of it has no channels. So all that is said of
a plan is said of these texts: a wire and an output belong together if they have one text for their
channel. Different channels have different texts, and this is used each time.

The theorem about plans has three parts. What a plan says of one entry is `Recipe.Entry.PlannedAs`,
what it says of the order is known of all pipelines and only has to be restated, and that all
channels differ was said when they were made. They are put together in `Recipe.Built.planned`.

A plan reads the producers of channels from a store. It may be another one than the one in which the
pipeline was built, if only the producers are the same; artifacts may have been made and filled in
between.

## Main definitions

* `Recipe.Entry.Names` — an entry refers to an output of a component
* `Recipe.Entry.PlannedAs`, `Recipe.Planned` — an entry and its component in a plan, a recipe and a
  plan

## Main results

* `Pipeline.mem_of_plan_stages`, `Pipeline.mem_of_plan_layers` — what a component reads from is
  planned before it
* `Recipe.Built.output_of_reference`, `Recipe.Built.input_of_reference` — the channels of references
* `Recipe.plan_of_build` — the plan of a pipeline that was built from a recipe
-/

namespace TypedPipeline

theorem ChannelId.text_injective : Function.Injective ChannelId.text := by
  rintro ⟨m⟩ ⟨n⟩ h
  have hdigits : Nat.toDigits 10 m = Nat.toDigits 10 n := by
    have hlists := congrArg String.toList h
    simpa [text, Nat.repr_eq_ofList_toDigits] using hlists
  have hnumber : m = n := calc
    m = Nat.ofDigitChars 10 (Nat.toDigits 10 m) 0 := Nat.ofDigitChars_ten_toDigits.symm
    _ = Nat.ofDigitChars 10 (Nat.toDigits 10 n) 0 := by rw [hdigits]
    _ = n := Nat.ofDigitChars_ten_toDigits
  rw [hnumber]

/-! ### Plans of pipelines

The stages of a plan stand in the order of execution and the layers by their depth. Both put a
component behind those from which it reads. -/

namespace Pipeline

variable {p : Pipeline} {s : Store} {generatedAt : Timestamp}

theorem mem_sources_iff {a : String} {v : Fin p.components.size} :
    a ∈ p.sources v ↔ ∃ u, p.graph.Edge u v ∧ p.nameAt u = a := by
  simp [sources, Graph.sources]

theorem mem_plan_stages {stage : Plan.Stage} :
    stage ∈ (p.plan s generatedAt).stages ↔ ∃ v, p.planStage s v = stage := by
  simp [plan, p.isOrder_order.mem]

/-- What a component reads from stands before it in a plan. A plan lists components in the order of
execution, in which producers come first. -/
theorem mem_of_plan_stages {before after : List Plan.Stage} {stage : Plan.Stage}
    (h : (p.plan s generatedAt).stages = before ++ stage :: after) {a : String}
    (ha : a ∈ stage.sources) : a ∈ before.map Plan.Stage.name := by
  obtain ⟨before', rest, horder, rfl, hrest⟩ := List.map_eq_append_iff.mp h
  obtain ⟨v, after', rfl, rfl, -⟩ := List.map_eq_cons_iff.mp hrest
  obtain ⟨u, huv, rfl⟩ := mem_sources_iff.mp ha
  have hcut := p.isOrder_order
  rw [horder] at hcut
  rw [List.map_map]
  exact List.mem_map.mpr ⟨u, hcut.mem_of_edge huv, rfl⟩

/-- What a component reads from is in an earlier layer of a plan. So a scheduler that goes layer
after layer always finds the inputs made. -/
theorem mem_of_plan_layers {before after : List (List String)} {layer : List String}
    (h : (p.plan s generatedAt).layers = before ++ layer :: after) {stage : Plan.Stage}
    (hstage : stage ∈ (p.plan s generatedAt).stages) (hlayer : stage.name ∈ layer) {a : String}
    (ha : a ∈ stage.sources) : a ∈ before.flatten := by
  obtain ⟨v, rfl⟩ := mem_plan_stages.mp hstage
  obtain ⟨u, huv, rfl⟩ := mem_sources_iff.mp ha
  obtain ⟨before', rest, hlayers, rfl, hrest⟩ := List.map_eq_append_iff.mp h
  obtain ⟨layer', after', rfl, rfl, -⟩ := List.map_eq_cons_iff.mp hrest
  rw [← List.flatMap_def]
  exact mem_of_leads_of_layers hlayers hlayer (leads_iff.mpr huv)

end Pipeline

namespace Recipe

/-! ### Recipe and plan

Everything in `Recipe.Planned` is about a recipe and a plan. There is nothing in it of components,
channels or stores, so it can be checked with the two texts side by side. -/

/-- Some reference of an entry means an output of a component with this name. -/
def Entry.Names (e : Entry) (component : String) : Prop :=
  ∃ field reference output, e.inputs.find? field = some reference ∧
    Reference.NamesOutput reference component output

/-- What a component in a plan has from its entry. The declared inputs of the plan are given by
their names. -/
structure Entry.PlannedAs (r : Recipe) (plan : Plan) (inputs : TextMap Plan.Input) (e : Entry)
    (stage : Plan.Stage) : Prop where
  kind : stage.kind = e.kind
  fields : stage.inputs.keys = e.inputs.keys
  /-- A reference to an output leads to the channel that the plan has for this output, and the plan
  says who produces it. -/
  outputs : ∀ field reference component output, e.inputs.find? field = some reference →
    Reference.NamesOutput reference component output →
      ∃ wire, stage.inputs.find? field = some wire ∧
        wire.producer = some (component ++ "." ++ output) ∧
        ∃ source ∈ plan.stages, source.name = component ∧
          ∃ other, source.outputs.find? output = some other ∧ other.channel = wire.channel
  /-- A reference to a declared input leads to the channel that the plan has for this input, and
  nobody produces it. -/
  inputs : ∀ field reference name, e.inputs.find? field = some reference →
    Reference.NamesInput reference name →
      ∃ wire, stage.inputs.find? field = some wire ∧ wire.producer = none ∧
        ∃ input, inputs.find? name = some input ∧ input.channel = wire.channel
  mem_sources : ∀ a, a ∈ stage.sources ↔ e.Names a
  nodup_sources : stage.sources.Nodup
  /-- What it reads from is listed as in the recipe. -/
  sublist_sources : stage.sources.Sublist (r.entries.map Entry.name)

/-- What a plan has from a recipe. -/
structure Planned (r : Recipe) (plan : Plan) (inputs : TextMap Plan.Input) : Prop where
  /-- Every entry is a component once, and there are no others. -/
  names : (plan.stages.map Plan.Stage.name).Perm (r.entries.map Entry.name)
  nodup : (r.entries.map Entry.name).Nodup
  entries : ∀ e ∈ r.entries, ∀ stage ∈ plan.stages, stage.name = e.name →
    e.PlannedAs r plan inputs stage
  values : inputs.values = plan.inputs
  declared : ∀ name typeName,
    (∃ input, inputs.find? name = some input ∧ input.typeName = typeName) ↔
      ∃ input ∈ r.inputs, input.name = name ∧ input.typeName = typeName
  earlier : ∀ before stage after, plan.stages = before ++ stage :: after →
    ∀ a ∈ stage.sources, a ∈ before.map Plan.Stage.name
  /-- Every entry is in one layer. -/
  layers : plan.layers.flatten.Perm (r.entries.map Entry.name)
  lower : ∀ before layer after, plan.layers = before ++ layer :: after →
    ∀ stage ∈ plan.stages, stage.name ∈ layer → ∀ a ∈ stage.sources, a ∈ before.flatten
  /-- No two of the outputs and declared inputs have the same channel. -/
  channels : (plan.inputs.map Plan.Input.channel ++
    plan.stages.flatMap fun stage => stage.outputs.values.map Plan.Wire.channel).Nodup

/-! ### A pipeline that was built

The places of the pipeline are those of the entries, since its components are listed as the recipe
lists them. -/

variable {r : Recipe} {registry : Registry} {channels : Channels} {placed : List Placed}
  {p : Pipeline} {q q' : Placed} {s t : Store} {generatedAt : Timestamp}

/-- A reference to an input means that input and nothing else. It has no point, so no output is
looked for. -/
theorem resolve_input_iff {reference name : String} {c : Channel}
    (h : Reference.NamesInput reference name) :
    channels.resolve reference = .ok c ↔ channels.inputs.find? name = some c := by
  rw [Channels.resolve, Reference.ofText?_input_iff.mpr h]
  cases hname : channels.inputs.find? name <;> simp [hname]

namespace Built

/-- The components are the entries, in the order of the recipe. -/
theorem names (h : r.Built registry channels placed p s) :
    p.components.toList.map Component.name = r.entries.map Entry.name := by
  obtain ⟨s₀, hl⟩ := h.laidOut
  rw [h.constructed.names, ← hl.entries, List.map_map]
  rfl

theorem nodup_names (h : r.Built registry channels placed p s) :
    (r.entries.map Entry.name).Nodup := by
  rw [← h.names]
  exact Wiring.distinct_iff.mp p.distinct

theorem exists_placed (h : r.Built registry channels placed p s) (v : Fin p.components.size) :
    ∃ q ∈ placed, q.Made channels (p.componentAt v) :=
  h.constructed.exists_placed _ (Array.mem_toList_iff.mpr (Wiring.componentAt_mem v))

theorem exists_place (h : r.Built registry channels placed p s) (hq : q ∈ placed) :
    ∃ v, q.Made channels (p.componentAt v) := by
  obtain ⟨k, hk, hmade⟩ := h.constructed.exists_component q hq
  obtain ⟨v, rfl⟩ := Wiring.exists_componentAt (by simpa using hk)
  exact ⟨v, hmade⟩

/-- Edges are references. An edge leads from the component that is referred to to the one that
refers to it. -/
theorem edge_iff (h : r.Built registry channels placed p s) (hq : q ∈ placed) (hq' : q' ∈ placed)
    {u v : Fin p.components.size} (hu : q.Made channels (p.componentAt u))
    (hv : q'.Made channels (p.componentAt v)) :
    p.graph.Edge u v ↔ r.Refers q'.entry q.entry := by
  obtain ⟨s₀, hl⟩ := h.laidOut
  have hexclusive : Wiring.Exclusive p.components :=
    exclusive_of_constructed hl h.constructed (Wiring.distinct_iff.mp p.distinct)
  rw [p.graph_eq, Wiring.edge_graph_iff hexclusive]
  exact feeds_iff hl h.nodup_names hq hq' hu hv

/-- A reference to an output leads to the channel of the output of a component. The producer that is
entered for the channel has the two names that are written in the reference. -/
theorem output_of_reference (h : r.Built registry channels placed p s) {v : Fin p.components.size}
    (hv : q.Made channels (p.componentAt v)) {field reference component output : String}
    (hreference : q.entry.inputs.find? field = some reference)
    (hnames : Reference.NamesOutput reference component output) :
    ∃ q' ∈ placed, q'.entry.name = component ∧ ∃ c, q'.outputs.find? output = some c ∧
      (p.componentAt v).inputs.find? field = some c ∧
      (s.channel c).producer = some ⟨component, output⟩ := by
  obtain ⟨s₀, hl⟩ := h.laidOut
  obtain ⟨c, hresolve⟩ := hv.inputs.resolves field reference hreference
  obtain ⟨outputs, hlookup, hfind⟩ := (resolve_output_iff hnames).mp hresolve
  obtain ⟨q', hq', rfl, rfl⟩ := hl.exists_placed_of_lookup hlookup
  exact ⟨q', hq', rfl, c, hfind, (hv.inputs.find? field c).mpr ⟨reference, hreference, hresolve⟩,
    h.producer q' hq' (output, c) (SortedMap.find?_eq_some_iff.mp hfind)⟩

/-- A reference to an input leads to the channel of that input. -/
theorem input_of_reference (h : r.Built registry channels placed p s) {v : Fin p.components.size}
    (hv : q.Made channels (p.componentAt v)) {field reference name : String}
    (hreference : q.entry.inputs.find? field = some reference)
    (hnames : Reference.NamesInput reference name) :
    ∃ c, channels.inputs.find? name = some c ∧
      (p.componentAt v).inputs.find? field = some c ∧ (s.channel c).producer = none := by
  obtain ⟨c, hresolve⟩ := hv.inputs.resolves field reference hreference
  have hfind := (resolve_input_iff hnames).mp hresolve
  exact ⟨c, hfind, (hv.inputs.find? field c).mpr ⟨reference, hreference, hresolve⟩,
    h.unproduced c (SortedMap.mem_values_iff_find?.mpr ⟨name, hfind⟩)⟩

/-- What a component reads from is what its entry names. -/
theorem mem_sources_iff (h : r.Built registry channels placed p s) (hq : q ∈ placed)
    {v : Fin p.components.size} (hv : q.Made channels (p.componentAt v)) {a : String} :
    a ∈ p.sources v ↔ q.entry.Names a := by
  rw [Pipeline.mem_sources_iff]
  constructor
  · rintro ⟨u, huv, rfl⟩
    obtain ⟨q', hq', hu⟩ := h.exists_placed u
    obtain ⟨-, -, hnames⟩ := (h.edge_iff hq' hq hu hv).mp huv
    rw [Pipeline.nameAt, hu.name]
    exact hnames
  · rintro ⟨field, reference, output, hreference, hnames⟩
    obtain ⟨s₀, hl⟩ := h.laidOut
    obtain ⟨q', hq', rfl, -⟩ := h.output_of_reference hv hreference hnames
    obtain ⟨u, hu⟩ := h.exists_place hq'
    refine ⟨u, (h.edge_iff hq' hq hu hv).mpr ?_, hu.name⟩
    exact ⟨hl.mem_entries_iff.mpr ⟨q, hq, rfl⟩, hl.mem_entries_iff.mpr ⟨q', hq', rfl⟩, field,
      reference, output, hreference, hnames⟩

theorem sublist_sources (h : r.Built registry channels placed p s) (v : Fin p.components.size) :
    (p.sources v).Sublist (r.entries.map Entry.name) := by
  rw [← h.names, ← Wiring.map_componentAt, List.map_map]
  exact List.filter_sublist.map p.nameAt

/-! ### The plan of a pipeline that was built

The map of declared inputs, of which `Recipe.Planned` says that there is one, is the map of the
channels of inputs with every channel as a plan shows it. -/

/-- The declared inputs of a plan, by their names. -/
def plannedInputs (channels : Channels) (t : Store) : TextMap Plan.Input :=
  channels.inputs.map fun _ c => Pipeline.planInput t c

theorem plannedAs (h : r.Built registry channels placed p s)
    (ht : ∀ c, (t.channel c).producer = (s.channel c).producer) (hq : q ∈ placed)
    {v : Fin p.components.size} (hv : q.Made channels (p.componentAt v)) :
    q.entry.PlannedAs r (p.plan t generatedAt) (plannedInputs channels t) (p.planStage t v) where
  kind := by
    obtain ⟨s₀, hl⟩ := h.laidOut
    have hkind : (p.planStage t v).kind = q.kind.spec.kind := congrArg Spec.kind hv.spec
    rw [hkind, registry.named _ _ (hl.declared q hq).kind]
  fields := by
    rw [← hv.inputs.keys_eq]
    simp [Pipeline.planStage, SortedMap.keys, SortedMap.map]
  outputs field reference component output hreference hnames := by
    obtain ⟨q', hq', rfl, c, hout, hin, hproducer⟩ := h.output_of_reference hv hreference hnames
    obtain ⟨u, hu⟩ := h.exists_place hq'
    refine ⟨Pipeline.planWire t c, by simp [Pipeline.planStage, hin], ?_, p.planStage t u,
      Pipeline.mem_plan_stages.mpr ⟨u, rfl⟩, hu.name, Pipeline.planWire t c, ?_, rfl⟩
    · rw [Pipeline.planWire, ht, hproducer]
      rfl
    · simp [Pipeline.planStage, hu.outputs, hout]
  inputs field reference name hreference hnames := by
    obtain ⟨c, hinput, hin, hproducer⟩ := h.input_of_reference hv hreference hnames
    refine ⟨Pipeline.planWire t c, by simp [Pipeline.planStage, hin], ?_,
      Pipeline.planInput t c, by simp [plannedInputs, hinput], rfl⟩
    simp [Pipeline.planWire, ht, hproducer]
  mem_sources a := h.mem_sources_iff hq hv
  nodup_sources := h.nodup_names.sublist (h.sublist_sources v)
  sublist_sources := h.sublist_sources v

/-- The channels of outputs and inputs in a plan are those of the recipe. All of them differ, and so
do their texts. -/
theorem nodup_channels (h : r.Built registry channels placed p s) :
    ((p.plan t generatedAt).inputs.map Plan.Input.channel ++
      (p.plan t generatedAt).stages.flatMap fun stage =>
        stage.outputs.values.map Plan.Wire.channel).Nodup := by
  obtain ⟨s₀, hl⟩ := h.laidOut
  have hinputs : (p.plan t generatedAt).inputs.map Plan.Input.channel =
      channels.inputs.values.map (ChannelId.text ∘ Channel.id) := by
    simp [Pipeline.plan, h.inputs, Pipeline.planInput, Function.comp_def]
  have hstages : ((p.plan t generatedAt).stages.flatMap fun stage =>
      stage.outputs.values.map Plan.Wire.channel) =
        (p.execution.flatMap fun k => k.outputs.values).map (ChannelId.text ∘ Channel.id) := by
    simp [Pipeline.plan, Pipeline.planStage, Pipeline.planWire, Pipeline.execution,
      List.flatMap_map, List.map_flatMap, SortedMap.values, SortedMap.map, Function.comp_def]
  have houtputs : (p.execution.flatMap fun k => k.outputs.values).Perm (outputsOf placed) := by
    rw [← h.constructed.outputs]
    exact p.execution_perm.flatMap_right _
  rw [hinputs, hstages, ← List.map_append, ← List.map_map]
  refine List.Nodup.map ChannelId.text_injective ?_
  exact (((houtputs.append_left _).map _).nodup_iff).mpr hl.nodup

theorem planned (h : r.Built registry channels placed p s)
    (ht : ∀ c, (t.channel c).producer = (s.channel c).producer) :
    r.Planned (p.plan t generatedAt) (plannedInputs channels t) where
  names := by
    rw [← h.names]
    simpa [Pipeline.plan, Pipeline.planStage, Pipeline.execution, Function.comp_def] using
      p.execution_perm.map Component.name
  nodup := h.nodup_names
  entries e he stage hstage hname := by
    obtain ⟨s₀, hl⟩ := h.laidOut
    obtain ⟨v, rfl⟩ := Pipeline.mem_plan_stages.mp hstage
    obtain ⟨q, hq, hv⟩ := h.exists_placed v
    have hentry : q.entry = e := List.inj_on_of_nodup_map h.nodup_names
      (hl.mem_entries_iff.mpr ⟨q, hq, rfl⟩) he (hv.name.symm.trans hname)
    rw [← hentry]
    exact h.plannedAs ht hq hv
  values := by
    simp [plannedInputs, Pipeline.plan, h.inputs, SortedMap.values, SortedMap.map]
  declared name typeName := by
    obtain ⟨s₀, hl⟩ := h.laidOut
    rw [← hl.inputs]
    simp [plannedInputs, Supplies, Pipeline.planInput]
  earlier before stage after hcut a ha := Pipeline.mem_of_plan_stages hcut ha
  layers := by
    rw [← h.names]
    exact p.flatMap_layers_perm
  lower before layer after hcut stage hstage hname a ha :=
    Pipeline.mem_of_plan_layers hcut hstage hname ha
  channels := h.nodup_channels

end Built

/-- The plan of a pipeline that was built from a recipe has from it what it should have: the entries
with their kinds and fields, the channels and producers that the references mean, and for each entry
the components that it names, before it and in earlier layers. A plan may be made later, as long as
no channel has been claimed in between. -/
theorem plan_of_build {rootGiven : Option String}
    (h : r.build registry rootGiven s = (.ok p, t)) {t' : Store}
    (ht : ∀ c, (t'.channel c).producer = (t.channel c).producer) (generatedAt : Timestamp) :
    ∃ inputs, r.Planned (p.plan t' generatedAt) inputs := by
  obtain ⟨-, channels, placed, hbuilt⟩ := (build_decides r registry rootGiven s).sound p t h
  exact ⟨_, hbuilt.planned ht⟩

/-- An entry that refers to a later one is planned behind it. -/
theorem plan_of_build_relay :
    ∃ p t inputs, Relay.recipe.build Relay.registry none {} = (.ok p, t) ∧
      Relay.recipe.Planned (p.plan t {}) inputs ∧
      ∃ stage ∈ (p.plan t {}).stages, stage.name = "second" ∧ "first" ∈ stage.sources ∧
        ∃ wire, stage.inputs.find? "in" = some wire ∧ wire.producer = some "first.out" := by
  obtain ⟨p, t, hbuild⟩ :=
    (build_decides Relay.recipe Relay.registry none {}).succeeds Relay.acceptable_recipe
  obtain ⟨inputs, hplanned⟩ := plan_of_build hbuild (fun _ => rfl) {}
  refine ⟨p, t, inputs, hbuild, hplanned, ?_⟩
  have hsecond : "second" ∈ (p.plan t {}).stages.map Plan.Stage.name :=
    hplanned.names.mem_iff.mpr (.head _)
  obtain ⟨stage, hstage, hname⟩ := List.mem_map.mp hsecond
  have hentry := hplanned.entries _ (.head _) stage hstage hname
  have hreference : (Relay.entry "second" " first.out" "extra").inputs.find? "in" =
      some " first.out" := rfl
  have hnames : Reference.NamesOutput " first.out" "first" "out" := by decide +kernel
  obtain ⟨wire, hwire, hproducer, -⟩ := hentry.outputs _ _ _ _ hreference hnames
  exact ⟨stage, hstage, hname, (hentry.mem_sources _).mpr ⟨_, _, _, hreference, hnames⟩, wire,
    hwire, hproducer⟩

end Recipe

end TypedPipeline
