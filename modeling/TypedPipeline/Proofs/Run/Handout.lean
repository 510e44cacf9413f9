import TypedPipeline.Proofs.Component.Build
import TypedPipeline.Proofs.Run.Sight

/-!
# What a request hands out

A request hands out what is bound to the inputs, and new artifacts for the outputs. By sight these
are settled by what is bound, the component, the run and the root alone; and an executor that
replaces no location can change nothing but the outputs of its own request.

## Implementation notes

`Component.HandsOut` is said of two stores and a request, and is what all later modules know of
preparing. Sights are used for outputs, since their numbers depend on what was given out before, and
numbers for inputs, since these are the artifacts themselves.

To prepare a component changes nothing that was there. This is the field `spares`, with no artifact
excepted. An executor that replaces no location changes more, but what it changes is among the
outputs of its request: inputs have locations, so all its changes to them are refused.

## Main definitions

* `Component.blanks` — new outputs by sight
* `Component.HandsOut` — what a prepared component hands out

## Main results

* `Component.handsOut_of_prepare` — what preparing makes
* `Request.spares_run` — what an invocation leaves alone
-/

namespace TypedPipeline

variable {W : Type} (host : Host (StateM W))

namespace Component

/-- The outputs of a component before its executor is invoked, by sight. They depend on the
component, the root and the id of the run, so two runs have different ones. -/
def blanks (c : Component) (runId root : String) : TextMap (List Sight) :=
  c.outputs.map fun output d => [⟨d.type, some (stagingUri root c.name output runId), {}⟩]

section

variable {root component runId : String} {s : Store} {l : List (String × Channel)}

theorem spares_placeholders (spared : Artifact → Prop) (root component runId : String) (s : Store)
    (l : List (String × Channel)) : s.Spares spared (placeholders root component runId s l).2 := by
  induction l generalizing s with
  | nil => exact .refl s
  | cons e rest ih => exact (Store.spares_newArtifact spared s _ _ _).trans (ih _)

/-- The artifact of each output is new and blank. Its number lies between the next numbers before
and after. -/
theorem blank_of_mem_placeholders {e : String × List Artifact}
    (he : e ∈ (placeholders root component runId s l).1.entries) :
    ∃ a, e.2 = [a] ∧ s.nextArtifact ≤ a.id.number ∧
      a.id.number < (placeholders root component runId s l).2.nextArtifact ∧
      (placeholders root component runId s l).2.artifact a = {} := by
  induction l generalizing s with
  | nil => cases he
  | cons f rest ih =>
    let made := s.newArtifact f.2.type (some (stagingUri root component f.1 runId))
    have hspares := spares_placeholders (fun _ => True) root component runId made.2 rest
    rw [placeholders] at he ⊢
    rcases SortedMap.mem_insertEntry he with rfl | he
    · refine ⟨made.1, rfl, Nat.le_refl _, hspares.nextArtifact, ?_⟩
      exact (hspares.artifact made.1 (Nat.lt_succ_self _) trivial).trans
        (Store.artifact_newArtifact_self ..)
    · obtain ⟨a, ha, hnew, hknown, hblank⟩ := ih he
      exact ⟨a, ha, Nat.le_of_succ_le hnew, hknown, hblank⟩

/-- No two outputs have one artifact. Each is made by itself, and numbers are given out once. -/
theorem distinct_placeholders {e f : String × List Artifact}
    (he : e ∈ (placeholders root component runId s l).1.entries)
    (hf : f ∈ (placeholders root component runId s l).1.entries) {a b : Artifact} (ha : a ∈ e.2)
    (hb : b ∈ f.2) (hid : a.id = b.id) : e.1 = f.1 := by
  induction l generalizing s with
  | nil => cases he
  | cons g rest ih =>
    let made := s.newArtifact g.2.type (some (stagingUri root component g.1 runId))
    -- Those made behind the first one have greater numbers.
    have hlater : ∀ e' ∈ (placeholders root component runId made.2 rest).1.entries, ∀ a' ∈ e'.2,
        a'.id ≠ made.1.id := by
      intro e' he' a' ha' hid'
      obtain ⟨a'', hsingle, hnew, -⟩ := blank_of_mem_placeholders he'
      rw [hsingle] at ha'
      cases List.mem_singleton.mp ha'
      rw [hid'] at hnew
      exact Nat.lt_irrefl _ hnew
    rw [placeholders] at he hf
    rcases SortedMap.mem_insertEntry he with rfl | he <;>
      rcases SortedMap.mem_insertEntry hf with rfl | hf
    · rfl
    · cases List.mem_singleton.mp ha
      exact absurd hid.symm (hlater f hf b hb)
    · cases List.mem_singleton.mp hb
      exact absurd hid (hlater e he a ha)
    · exact ih he hf

/-- By sight, every output has the type of its channel and its staging location. -/
theorem sights_placeholders (root component runId : String) (s : Store)
    (l : List (String × Channel)) (output : String) :
    ((placeholders root component runId s l).2.sights
        (placeholders root component runId s l).1).find? output =
      (SortedMap.lookup output l).map fun d =>
        [⟨d.type, some (stagingUri root component output runId), {}⟩] := by
  induction l generalizing s with
  | nil => rfl
  | cons e rest ih =>
    let made := s.newArtifact e.2.type (some (stagingUri root component e.1 runId))
    have hspares := spares_placeholders (fun _ => True) root component runId made.2 rest
    have hblank := (hspares.artifact made.1 (Nat.lt_succ_self _) trivial).trans
      (Store.artifact_newArtifact_self ..)
    have hrest := ih made.2
    rw [Store.find?_sights] at hrest ⊢
    rw [placeholders]
    dsimp only
    rw [SortedMap.find?_insert, SortedMap.lookup]
    by_cases houtput : output = e.1
    · subst houtput
      rw [if_pos rfl, if_pos rfl, Option.map_some, Option.map_some, List.map_singleton, Store.sight,
        hblank]
      rfl
    · rw [if_neg houtput, if_neg (Ne.symm houtput)]
      exact hrest

end

/-- What is known of a component that was prepared: `s` is the store before and `s'` the one after
it. -/
structure HandsOut (c : Component) (runId root : String) (b : Bindings) (s s' : Store)
    (r : Request) : Prop where
  component : r.component = c.name
  run : r.runId = runId
  inputs : r.inputs = c.inputs.map fun _ d => b.artifacts d
  outputs : s'.sights r.outputs = c.blanks runId root
  parameters : r.parameters = c.parameters
  targets : r.targets = c.outputs
  /-- Inputs can be read, and outputs are new. -/
  ready : r.handed.Ready s'
  nonempty : ∀ d ∈ c.inputs.values, b.artifacts d ≠ []
  new : ∀ e ∈ r.outputs.entries, ∀ a ∈ e.2, s.nextArtifact ≤ a.id.number ∧
    a.id.number < s'.nextArtifact
  spares : s.Spares (fun _ => True) s'

/-- What preparing makes, if only known artifacts are bound. -/
theorem handsOut_of_prepare {c : Component} {runId root : String} {b : Bindings} {s s' : Store}
    {r : Request} (hknown : ∀ d, ∀ a ∈ b.artifacts d, a.id.number < s.nextArtifact)
    (h : c.prepare runId root b s = (.ok r, s')) : c.HandsOut runId root b s s' r := by
  obtain ⟨hu, rfl, rfl⟩ := prepare_eq_ok_iff.mp h
  have hspares := spares_placeholders (fun _ => True) root c.name runId s c.outputs.entries
  have hread : ∀ e ∈ c.inputs.entries, b.artifacts e.2 ≠ [] ∧
      ∀ a ∈ b.artifacts e.2, (s.artifact a).populated = true := by
    intro e he
    exact readable_iff.mp (unpopulated?_eq_none_iff.mp hu e he)
  refine ⟨rfl, rfl, rfl, ?_, rfl, rfl, ⟨fun e he a ha => ?_, fun e he => ?_,
    fun e he f hf a ha b hb => distinct_placeholders he hf ha hb⟩, fun d hd => ?_,
    fun e he a ha => ?_, hspares⟩
  · refine SortedMap.ext_find? fun output => ?_
    rw [request_outputs, sights_placeholders, blanks, SortedMap.find?_map]
    rfl
  · obtain ⟨f, hf, rfl⟩ := List.mem_map.mp he
    rw [hspares.artifact a (hknown f.2 a ha) trivial]
    have hpopulated := (hread f hf).2 a ha
    intro hnone
    rw [ArtifactState.populated, hnone] at hpopulated
    cases hpopulated
  · obtain ⟨a, ha, -, -, hblank⟩ := blank_of_mem_placeholders he
    exact ⟨a, ha, hblank⟩
  · obtain ⟨field, hfield⟩ := SortedMap.mem_values.mp hd
    exact (hread _ hfield).1
  · obtain ⟨a', ha', hnew, hlt, -⟩ := blank_of_mem_placeholders he
    rw [ha'] at ha
    cases List.mem_singleton.mp ha
    exact ⟨hnew, hlt⟩

end Component

/-! ### Invoking

The request is all that an executor can reach. Whatever is not handed out to it stays as it is. -/

namespace Request

/-- The artifact is one of the outputs of the request. -/
def Makes (r : Request) (a : Artifact) : Prop := ∃ e ∈ r.outputs.entries, ∃ b ∈ e.2, b.id = a.id

/-- An executor that replaces no location changes nothing but the outputs of its request. -/
theorem spares_run {r : Request} {s : Store} (hr : r.handed.Ready s) {p : Work Unit}
    (hp : p.WritesOnce) (w : W) :
    s.Spares (fun a => ¬ r.Makes a) (p.run host r.handed s w).1.2 where
  channels := (Work.grows_run host r.handed p s w).channels
  nextArtifact := (Work.grows_run host r.handed p s w).nextArtifact
  artifact a _ ha := by
    refine Work.artifact_run host hp ?_ w
    by_cases huri : (s.artifact a).uri = none
    · refine .inr fun slot a' ha' hid => ?_
      obtain ⟨e, he, -, hget⟩ := Work.Handed.exists_entry_of_artifact? ha'
      have hmem := List.mem_of_getElem? hget
      obtain ⟨side, field, index⟩ := slot
      cases side with
      | input =>
        refine hr.populated e he a' hmem ?_
        rw [Store.artifact_of_id hid]
        exact huri
      | output => exact ha ⟨e, he, a', hmem, hid⟩
    · exact .inl huri

end Request

end TypedPipeline
