import TypedPipeline.Proofs.Run.Failure
import TypedPipeline.Proofs.Run.Handout

/-!
# Contents of channels

What is bound to a channel in a run, by sight, are the contents of the channel. A component that is
executed leaves contents that it obeys: from those of the channels that it reads, its executor has
made those of the channels that it writes. Conversely, where a component obeys certain contents and
finds them in the channels that it reads, it is executed and leaves them in those that it writes, if
its executor is deterministic.

So the contents say all that matters of an execution. The store and the bindings, in which there are
numbers of artifacts, do not appear any more.

## Implementation notes

`Component.Yields` says that there are a store, a machine and artifacts of certain sights for which
the executor ends well with certain outputs. As an assertion that something exists it is weak in
general. For an executor that is deterministic it is as strong as it can be: what was made once will
be made again, from all artifacts of these sights. So it may stand for a function, without there
being one for executors that are not deterministic.

`Component.Executes` holds all that is known of an execution that ends well, so that the proofs
about contents do not go back to the definitions of the three steps. It comes with the two stores
between the steps, because inputs are compared in the one in which the executor starts and outputs
in the one that it leaves.

An executor may not replace locations. Without this hypothesis it could change artifacts that other
components have read already, and there would be no such thing as the contents of a channel.

## Main definitions

* `Bindings.contents` — what is bound to a channel, by sight
* `Component.Executes` — an execution that ends well, step by step
* `Component.Yields`, `Component.Obeys` — what an executor makes of contents

## Main results

* `Component.execute_ok_iff` — an execution ends well if its three steps do
* `Component.Executes.obeys` — a component that was executed obeys the contents that it has left
* `Component.Obeys.execute` — a component is executed as it obeys
-/

namespace TypedPipeline

variable {W : Type} (host : Host (StateM W))

/-! ### Executions that end well

The three steps of a component have different types and fail in different ways. Where all of them
succeed, only four equations are left. -/

theorem Request.invoke_ok_iff {r : Request} {executor : Executor} {s s' : Store} {w w' : W} :
    r.invoke host executor s w = ((.ok (), s'), w') ↔
      (executor r.handed.offer r.parameters).run host r.handed s w = ((.ok (), s'), w') ∧
        r.incomplete? s' = none := by
  rw [invoke_apply]
  rcases (executor r.handed.offer r.parameters).run host r.handed s w with ⟨⟨result, t⟩, x⟩
  constructor
  · intro h
    obtain ⟨hends, rfl⟩ := Prod.mk.inj h
    obtain ⟨hjudge, rfl⟩ := Prod.mk.inj hends
    obtain ⟨rfl, hincomplete⟩ := judge_ok_iff.mp hjudge
    exact ⟨rfl, hincomplete⟩
  · rintro ⟨hrun, hincomplete⟩
    cases hrun
    rw [judge_ok_iff.mpr ⟨rfl, hincomplete⟩]

namespace Component

variable {c : Component} {runId root : String} {b b' : Bindings} {s s' : Store} {w w' : W}
  {outputs : TextMap (List ArtifactRecord)}

theorem perform_ok_iff {r : Request} :
    c.perform host r b s w = (((.ok outputs, b'), s'), w') ↔
      r.invoke host c.executor s w = ((.ok (), s'), w') ∧ r.publish b = (b', .ok ()) ∧
        r.outputRecords s' = outputs := by
  unfold perform
  rw [machine_bind_apply]
  rcases r.invoke host c.executor s w with ⟨⟨e | done, t⟩, x⟩
  · constructor
    · intro h
      cases h
    · rintro ⟨h, -⟩
      cases h
  · dsimp only
    rcases r.publish b with ⟨b'', e | done⟩
    · constructor
      · intro h
        cases h
      · rintro ⟨-, h, -⟩
        cases h
    · dsimp only
      rw [machine_bind_apply, machine_get_apply]
      constructor
      · intro h
        cases h
        exact ⟨rfl, rfl, rfl⟩
      · rintro ⟨h, h', rfl⟩
        cases h
        cases h'
        rfl

theorem execute_ok_iff :
    c.execute host runId root b s w = (((.ok outputs, b'), s'), w') ↔
      ∃ r s₁, c.prepare runId root b s = (.ok r, s₁) ∧
        r.invoke host c.executor s₁ w = ((.ok (), s'), w') ∧ r.publish b = (b', .ok ()) ∧
          r.outputRecords s' = outputs := by
  rcases c.prepare_cases runId root b s with ⟨e, hprepare⟩ | ⟨r, s₁, hprepare, -⟩
  · rw [execute_of_refused host hprepare, hprepare]
    constructor
    · intro h
      cases h
    · rintro ⟨r, s₁, h, -⟩
      cases h
  · rw [execute_of_prepared host hprepare, perform_ok_iff, hprepare]
    constructor
    · intro h
      exact ⟨r, s₁, rfl, h⟩
    · rintro ⟨r', s₁', h, hrest⟩
      cases h
      exact hrest

end Component

/-- Only artifacts that are there are bound. What is not there yet would look different as soon as
its number has been given out. -/
def Bindings.Known (b : Bindings) (s : Store) : Prop :=
  ∀ d, ∀ a ∈ b.artifacts d, a.id.number < s.nextArtifact

/-- The contents of a channel: what is bound to it, by sight. A channel to which nothing was bound
has none. -/
def Bindings.contents (b : Bindings) (s : Store) (id : ChannelId) : List Sight :=
  ((b.bound.find? id).getD []).map s.sight

namespace Component

variable {c : Component} {runId root : String} {b b' : Bindings} {s s' : Store} {w w' : W}
  {r : Request}

/-- The inputs are the contents of the channels that the component reads. -/
theorem HandsOut.sights_inputs (h : c.HandsOut runId root b s s' r) (hknown : b.Known s) :
    s'.sights r.inputs = c.inputs.map fun _ d => b.contents s d.id := by
  rw [h.inputs, Store.sights, SortedMap.map_map, SortedMap.map_eq_map_iff]
  intro e _
  exact h.spares.map_sight fun a ha => ⟨hknown e.2 a ha, trivial⟩

/-- Each output has one artifact, of the type of its channel. -/
theorem HandsOut.output (h : c.HandsOut runId root b s s' r) {e : String × Channel}
    (he : e ∈ c.outputs.entries) : ∃ a, r.outputs.find? e.1 = some [a] ∧ a.type = e.2.type := by
  have hfield := congrArg (fun m => m.find? e.1) h.outputs
  simp only [Store.find?_sights, blanks, SortedMap.find?_map,
    SortedMap.find?_eq_some_iff.mpr he, Option.map_some] at hfield
  obtain ⟨l, hl, hsight⟩ := Option.map_eq_some_iff.mp hfield
  obtain ⟨a, rfl, ha⟩ := List.map_eq_singleton_iff.mp hsight
  exact ⟨a, hl, congrArg Sight.type ha⟩

/-- What was handed out for the outputs can be published, if no two outputs have one channel. -/
theorem HandsOut.publish (h : c.HandsOut runId root b s s' r) (b : Bindings)
    (hunshared : (c.outputs.entries.map fun e => e.2.id).Nodup) :
    ∃ b', r.publish b = (b', .ok ()) ∧
      Bindings.Published r.outputs c.outputs.entries b b' := by
  rw [Request.publish, h.targets]
  exact Request.publishAll_spec b hunshared fun e he => h.output he

/-- An execution that ends well, step by step: the component is prepared, its executor runs to its
end, all outputs have locations, and they are published. No artifact that was there before has
changed. -/
structure Executes (c : Component) (runId root : String) (b b' : Bindings) (s s₁ s' : Store)
    (w w' : W) (r : Request) : Prop where
  handsOut : c.HandsOut runId root b s s₁ r
  run : (c.executor r.handed.offer r.parameters).run host r.handed s₁ w = ((.ok (), s'), w')
  complete : ∀ e ∈ r.outputs.entries, ∀ a ∈ e.2, (s'.artifact a).uri ≠ none
  published : Bindings.Published r.outputs c.outputs.entries b b'
  spares : s.Spares (fun _ => True) s'
  known : b'.Known s'

theorem executes_of_prepare (hwrites : c.executor.WritesOnce)
    (hunshared : (c.outputs.entries.map fun e => e.2.id).Nodup) (hknown : b.Known s) {s₁ : Store}
    (hprepare : c.prepare runId root b s = (.ok r, s₁))
    (hinvoke : r.invoke host c.executor s₁ w = ((.ok (), s'), w')) :
    ∃ b', r.publish b = (b', .ok ()) ∧ c.Executes host runId root b b' s s₁ s' w w' r := by
  have hout := handsOut_of_prepare hknown hprepare
  obtain ⟨hrun, hincomplete⟩ := (Request.invoke_ok_iff host).mp hinvoke
  obtain ⟨b', hpublish, hpublished⟩ := hout.publish b hunshared
  have hrunSpares := Request.spares_run host hout.ready
    (hwrites r.handed.offer r.parameters) w
  rw [hrun] at hrunSpares
  have hspares : s.Spares (fun _ => True) s' := by
    refine ⟨hrunSpares.channels.trans hout.spares.channels,
      Nat.le_trans hout.spares.nextArtifact hrunSpares.nextArtifact, fun a ha _ => ?_⟩
    rw [hrunSpares.artifact a (Nat.lt_of_lt_of_le ha hout.spares.nextArtifact),
      hout.spares.artifact a ha trivial]
    rintro ⟨e, he, b, hb, hid⟩
    have hnew := (hout.new e he b hb).1
    rw [hid] at hnew
    omega
  refine ⟨b', hpublish, hout, hrun, fun e he a ha => ?_, hpublished, hspares, fun d a ha => ?_⟩
  · have hpopulated := Request.incomplete?_eq_none_iff.mp hincomplete e he a ha
    intro hnone
    rw [ArtifactState.populated, hnone] at hpopulated
    cases hpopulated
  · rw [Bindings.artifacts] at ha
    by_cases hd : ∃ e ∈ c.outputs.entries, e.2.id = d.id
    · obtain ⟨e, he, hid⟩ := hd
      obtain ⟨a', ha', -⟩ := hout.output he
      rw [Bindings.find?, ← hid, ← Bindings.find?, hpublished.bound e he, ha'] at ha
      have hnew := hout.new (e.1, [a']) (SortedMap.find?_eq_some_iff.mp ha') a ha
      exact Nat.lt_of_lt_of_le hnew.2 hrunSpares.nextArtifact
    · rw [hpublished.others d fun e he hid => hd ⟨e, he, hid⟩] at ha
      exact Nat.lt_of_lt_of_le (hknown d a ha) hspares.nextArtifact

theorem executes_of_execute (hwrites : c.executor.WritesOnce)
    (hunshared : (c.outputs.entries.map fun e => e.2.id).Nodup) (hknown : b.Known s)
    {outputs : TextMap (List ArtifactRecord)}
    (h : c.execute host runId root b s w = (((.ok outputs, b'), s'), w')) :
    ∃ r s₁, c.Executes host runId root b b' s s₁ s' w w' r ∧ r.outputRecords s' = outputs := by
  obtain ⟨r, s₁, hprepare, hinvoke, hpublish, hrecords⟩ := (execute_ok_iff host).mp h
  obtain ⟨b'', hpublish', hexecutes⟩ :=
    executes_of_prepare host hwrites hunshared hknown hprepare hinvoke
  cases hpublish.symm.trans hpublish'
  exact ⟨r, s₁, hexecutes, hrecords⟩

/-- A channel is one of those that the component writes. -/
def Writes (c : Component) (id : ChannelId) : Prop := ∃ d ∈ c.outputs.values, d.id = id

namespace Executes

variable {s₁ : Store} (h : c.Executes host runId root b b' s s₁ s' w w' r)
include h

/-- The contents of other channels stay. Neither what is bound to them nor the artifacts that are
bound have changed. -/
theorem contents_others (hknown : b.Known s) {d : Channel} (hd : ¬ c.Writes d.id) :
    b'.contents s' d.id = b.contents s d.id := by
  have hbound : b'.find? d = b.find? d := by
    refine h.published.others d fun e he hid => hd ⟨e.2, ?_, hid⟩
    exact SortedMap.mem_values.mpr ⟨e.1, he⟩
  have hsights := h.spares.map_sight (l := b.artifacts d) fun a ha => ⟨hknown d a ha, trivial⟩
  calc b'.contents s' d.id = ((b'.find? d).getD []).map s'.sight := rfl
    _ = (b.artifacts d).map s'.sight := by rw [hbound, Bindings.artifacts]
    _ = b.contents s d.id := hsights

/-- The contents of the channels that it writes are its outputs. -/
theorem sights_outputs :
    s'.sights r.outputs = c.outputs.map fun _ d => b'.contents s' d.id := by
  refine SortedMap.ext_find? fun output => ?_
  rw [Store.find?_sights, SortedMap.find?_map]
  cases houtput : c.outputs.find? output with
  | none =>
    have hblank := congrArg (fun m => m.find? output) h.handsOut.outputs
    simp only [Store.find?_sights, blanks, SortedMap.find?_map, houtput, Option.map_none,
      Option.map_eq_none_iff] at hblank
    rw [hblank]
    rfl
  | some d =>
    have he := SortedMap.find?_eq_some_iff.mp houtput
    obtain ⟨a, ha, -⟩ := h.handsOut.output he
    have hbound : b'.find? d = some [a] := (h.published.bound _ he).trans ha
    have hcontents : b'.contents s' d.id = ((b'.find? d).getD []).map s'.sight := rfl
    rw [ha, Option.map_some, Option.map_some, hcontents, hbound, Option.getD_some]

/-- The contents of the channels that it reads are its inputs, and still are when it has ended. This
would be wrong of a component that reads one of its own outputs. -/
theorem sights_inputs (hknown : b.Known s) (hself : ¬ c.Feeds c) :
    s₁.sights r.inputs = c.inputs.map fun _ d => b'.contents s' d.id := by
  rw [h.handsOut.sights_inputs hknown, SortedMap.map_eq_map_iff]
  intro e he
  have hnot : ¬ c.Writes e.2.id := fun ⟨d, hd, hid⟩ =>
    hself ⟨d, hd, e.2, SortedMap.mem_values.mpr ⟨e.1, he⟩, hid⟩
  exact (h.contents_others host hknown hnot).symm

end Executes

theorem outputRecords_eq (r : Request) (s : Store) :
    r.outputRecords s = (s.sights r.outputs).map fun _ l => l.map Sight.record := by
  simp [Request.outputRecords, Store.sights, SortedMap.map_map, Function.comp_def,
    Store.record_sight]

/-! ### What executors make

From here on there are contents only. Whatever a component does with them is said by `Obeys`, and
the two theorems say that this is neither too much nor too little. -/

/-- From inputs that look like `inputs`, the executor makes outputs that look like `outputs`. -/
def Yields (c : Component) (runId root : String) (inputs outputs : TextMap (List Sight)) : Prop :=
  ∃ (h : Work.Handed) (s s' : Store) (w w' : W), h.Ready s ∧ s.sights h.inputs = inputs ∧
    s.sights h.outputs = c.blanks runId root ∧
    (c.executor h.offer c.parameters).run host h s w = ((.ok (), s'), w') ∧
    s'.sights h.outputs = outputs

/-- What a deterministic executor has made once, it makes again. The artifacts, the store and the
machine may be others than the first time. -/
theorem Yields.run {inputs outputs : TextMap (List Sight)}
    (hy : c.Yields host runId root inputs outputs) (hd : c.executor.Deterministic host)
    {h : Work.Handed} (hr : h.Ready s) (hinputs : s.sights h.inputs = inputs)
    (houtputs : s.sights h.outputs = c.blanks runId root) (w : W) :
    ∃ s' w', (c.executor h.offer c.parameters).run host h s w = ((.ok (), s'), w') ∧
      s'.sights h.outputs = outputs := by
  obtain ⟨h₁, s₁, s₁', w₁, w₁', hr₁, rfl, houtputs₁, hrun₁, rfl⟩ := hy
  obtain ⟨hresult, hsights⟩ := hd c.parameters h₁ h s₁ s w₁ w hr₁ hr
    ⟨hinputs.symm, houtputs₁.trans houtputs.symm⟩
  rw [hrun₁] at hresult hsights
  rcases hrun : (c.executor h.offer c.parameters).run host h s w with ⟨⟨e | done, s'⟩, w'⟩
  · rw [hrun] at hresult
    cases hresult
  · rw [hrun] at hsights
    exact ⟨s', w', rfl, hsights.symm⟩

/-- A component obeys contents of channels: its inputs can be read there, and from these its
executor makes what is there for its outputs. -/
structure Obeys (c : Component) (runId root : String) (contents : ChannelId → List Sight) :
    Prop where
  readable : ∀ d ∈ c.inputs.values, contents d.id ≠ [] ∧
    ∀ v ∈ contents d.id, v.state.uri ≠ none
  yields : c.Yields host runId root (c.inputs.map fun _ d => contents d.id)
    (c.outputs.map fun _ d => contents d.id)
  complete : ∀ d ∈ c.outputs.values, ∀ v ∈ contents d.id, v.state.uri ≠ none

/-- Whether a component obeys contents depends on those of the channels that it reads or writes. -/
theorem Obeys.congr {contents contents' : ChannelId → List Sight}
    (h : c.Obeys host runId root contents)
    (hinputs : ∀ d ∈ c.inputs.values, contents' d.id = contents d.id)
    (houtputs : ∀ d ∈ c.outputs.values, contents' d.id = contents d.id) :
    c.Obeys host runId root contents' where
  readable d hd := by
    rw [hinputs d hd]
    exact h.readable d hd
  yields := by
    have hsame : ∀ m : TextMap Channel, (∀ d ∈ m.values, contents' d.id = contents d.id) →
        (m.map fun _ d => contents' d.id) = m.map fun _ d => contents d.id := by
      intro m hm
      exact SortedMap.map_eq_map_iff.mpr fun e he => hm e.2 (SortedMap.mem_values.mpr ⟨e.1, he⟩)
    rw [hsame _ hinputs, hsame _ houtputs]
    exact h.yields
  complete d hd := by
    rw [houtputs d hd]
    exact h.complete d hd

/-- A component that is executed obeys the contents of channels after it. It has changed only those
that it writes, so the contents of what it reads are the same before and after. -/
theorem Executes.obeys {s₁ : Store} (h : c.Executes host runId root b b' s s₁ s' w w' r)
    (hknown : b.Known s) (hself : ¬ c.Feeds c) : c.Obeys host runId root (b'.contents s') where
  readable d hd := by
    have hnot : ¬ c.Writes d.id := fun ⟨e, he, hid⟩ => hself ⟨e, he, d, hd, hid⟩
    have hcontents : b'.contents s' d.id = (b.artifacts d).map s.sight :=
      h.contents_others host hknown hnot
    rw [hcontents]
    refine ⟨fun hnil => h.handsOut.nonempty d hd (List.map_eq_nil_iff.mp hnil), fun v hv => ?_⟩
    obtain ⟨a, ha, rfl⟩ := List.mem_map.mp hv
    obtain ⟨field, hfield⟩ := SortedMap.mem_values.mp hd
    have hentry : (field, b.artifacts d) ∈ r.inputs.entries := by
      rw [h.handsOut.inputs]
      exact List.mem_map.mpr ⟨_, hfield, rfl⟩
    have huri := h.handsOut.ready.populated _ hentry a ha
    rwa [h.handsOut.spares.artifact a (hknown d a ha) trivial] at huri
  yields := by
    refine ⟨r.handed, s₁, s', w, w', h.handsOut.ready, h.sights_inputs host hknown hself,
      h.handsOut.outputs, ?_, h.sights_outputs host⟩
    rw [← h.handsOut.parameters]
    exact h.run
  complete d hd v hv := by
    obtain ⟨output, houtput⟩ := SortedMap.mem_values.mp hd
    have hfield := congrArg (fun m => m.find? output) (h.sights_outputs host)
    simp only [Store.find?_sights, SortedMap.find?_map,
      SortedMap.find?_eq_some_iff.mpr houtput, Option.map_some] at hfield
    obtain ⟨l, hl, hsights⟩ := Option.map_eq_some_iff.mp hfield
    rw [← hsights] at hv
    obtain ⟨a, ha, rfl⟩ := List.mem_map.mp hv
    exact h.complete (output, l) (SortedMap.find?_eq_some_iff.mp hl) a ha

/-- A component that obeys contents of channels, and finds them in its inputs, is executed and
leaves them in its outputs. The store, the bindings and the machine may be any. Only determinism is
used to get from the one execution that is known to the one at hand. -/
theorem Obeys.execute {contents : ChannelId → List Sight}
    (ho : c.Obeys host runId root contents) (hd : c.executor.Deterministic host)
    (hwrites : c.executor.WritesOnce) (hunshared : (c.outputs.entries.map fun e => e.2.id).Nodup)
    (hknown : b.Known s) (hinputs : ∀ d ∈ c.inputs.values, b.contents s d.id = contents d.id)
    (w : W) :
    ∃ r s₁ b' s' w', c.Executes host runId root b b' s s₁ s' w w' r ∧
      c.execute host runId root b s w = (((.ok (c.outputs.map fun _ d =>
        (contents d.id).map Sight.record), b'), s'), w') ∧
      ∀ d ∈ c.outputs.values, b'.contents s' d.id = contents d.id := by
  have hreadable : ∀ e ∈ c.inputs.entries, Component.readable s (b.artifacts e.2) = true := by
    intro e he
    have hvalue : e.2 ∈ c.inputs.values := SortedMap.mem_values.mpr ⟨e.1, he⟩
    obtain ⟨hne, huris⟩ := ho.readable e.2 hvalue
    rw [← hinputs e.2 hvalue] at hne huris
    have hcontents : b.contents s e.2.id = (b.artifacts e.2).map s.sight := rfl
    rw [hcontents] at hne huris
    refine readable_iff.mpr ⟨fun hnil => hne (List.map_eq_nil_iff.mpr hnil), fun a ha => ?_⟩
    exact Option.isSome_iff_ne_none.mpr (huris _ (List.mem_map.mpr ⟨a, ha, rfl⟩))
  rcases c.prepare_cases runId root b s with ⟨e, hrefused⟩ | ⟨r, s₁, hprepare, -⟩
  · obtain ⟨e, he, hnot⟩ := prepare_error_iff.mp ⟨e, s, hrefused⟩
    rw [hreadable e he] at hnot
    cases hnot
  have hout := handsOut_of_prepare hknown hprepare
  have hsights : s₁.sights r.inputs = c.inputs.map fun _ d => contents d.id := by
    rw [hout.sights_inputs hknown, SortedMap.map_eq_map_iff]
    intro e he
    exact hinputs e.2 (SortedMap.mem_values.mpr ⟨e.1, he⟩)
  obtain ⟨s', w', hrun, houtputs⟩ := ho.yields.run host hd hout.ready hsights hout.outputs w
  have hcomplete : ∀ e ∈ r.outputs.entries, ∀ a ∈ e.2, (s'.artifact a).populated = true := by
    intro e he a ha
    have hfield := congrArg (fun m => m.find? e.1) houtputs
    simp only [Request.handed, Store.find?_sights, SortedMap.find?_map,
      SortedMap.find?_eq_some_iff.mpr he, Option.map_some] at hfield
    obtain ⟨d, hd, hcontents⟩ := Option.map_eq_some_iff.mp hfield.symm
    have hvalue : d ∈ c.outputs.values :=
      SortedMap.mem_values.mpr ⟨e.1, SortedMap.find?_eq_some_iff.mp hd⟩
    have hmem : s'.sight a ∈ contents d.id := by
      rw [hcontents]
      exact List.mem_map.mpr ⟨a, ha, rfl⟩
    exact Option.isSome_iff_ne_none.mpr (ho.complete d hvalue _ hmem)
  have hinvoke : r.invoke host c.executor s₁ w = ((.ok (), s'), w') := by
    refine (Request.invoke_ok_iff host).mpr ⟨?_, Request.incomplete?_eq_none_iff.mpr hcomplete⟩
    rw [hout.parameters]
    exact hrun
  obtain ⟨b', hpublish, hexecutes⟩ :=
    executes_of_prepare host hwrites hunshared hknown hprepare hinvoke
  have hleft : (c.outputs.map fun _ d => b'.contents s' d.id) =
      c.outputs.map fun _ d => contents d.id :=
    (hexecutes.sights_outputs host).symm.trans houtputs
  refine ⟨r, s₁, b', s', w', hexecutes, (execute_ok_iff host).mpr
    ⟨r, s₁, hprepare, hinvoke, hpublish, ?_⟩, fun d hd => ?_⟩
  · rw [outputRecords_eq, hexecutes.sights_outputs host, hleft, SortedMap.map_map]
  · obtain ⟨output, houtput⟩ := SortedMap.mem_values.mp hd
    exact SortedMap.map_eq_map_iff.mp hleft _ houtput

end Component

end TypedPipeline
