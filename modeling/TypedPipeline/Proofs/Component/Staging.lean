import TypedPipeline.Proofs.Component.Build
import TypedPipeline.Proofs.Request

/-!
# Staging locations

Every output of a run is made at a location of its own: below the root, the name of the component,
the name of the output and the id of the run follow each other, with slashes between them. The name
of a component has no slash, so outputs of different components are always kept apart. Behind it
nothing is: neither names of outputs nor ids of runs are kept free of slashes. If the name of one
output goes on behind that of another with a slash, and an id begins with what is behind it, both
lead to the same location.

## Why slashes matter

That a name of a component has no slash is checked when the component is built. So the first slash
behind the root ends the name, and two locations can be compared from there on. What is left are the
name of an output and an id of a run with a slash between them, and the question is in how many ways
a text can be cut at a slash. `Component.append_slash_eq_iff` answers it: either both cuts are at
one slash, or a part of the text stands between the two. The second case is the collision.

Types, parameters and the order of components do not come in. Neither does the root, as long as both
locations are below the same one. Locations below different roots are not compared here.

## Main definitions

* `Component.Stages` — an artifact that a component made for an output in a run

## Main results

* `Component.append_slash_eq_iff` — two ways to cut a text at a slash
* `Component.staging_of_prepare` — where the output of a request is made
* `Component.staging_eq_iff` — which outputs have one location
-/

namespace TypedPipeline

namespace Component

/-! ### Texts with slashes

Both lemmas are about lists of characters, and say of them what is needed of names. -/

/-- A text that is cut at two slashes has a part between them, unless they are the same slash. -/
theorem append_slash_eq_iff {a a' b b' : List Char} :
    a ++ '/' :: b = a' ++ '/' :: b' ↔
      a = a' ∧ b = b' ∨ (∃ part, a' = a ++ '/' :: part ∧ b = part ++ '/' :: b') ∨
        ∃ part, a = a' ++ '/' :: part ∧ b' = part ++ '/' :: b := by
  have hlonger : ∀ {a a' b b' : List Char} {part : List Char}, a' = a ++ part →
      '/' :: b = part ++ '/' :: b' →
      a = a' ∧ b = b' ∨ ∃ part, a' = a ++ '/' :: part ∧ b = part ++ '/' :: b' := by
    intro a a' b b' part ha hb
    cases part with
    | nil =>
      rw [List.append_nil] at ha
      cases hb
      exact .inl ⟨ha.symm, rfl⟩
    | cons c part =>
      cases hb
      exact .inr ⟨part, ha, rfl⟩
  constructor
  · intro h
    rcases List.append_eq_append_iff.mp h with ⟨part, ha, hb⟩ | ⟨part, ha, hb⟩
    · exact (hlonger ha hb).imp_right .inl
    · exact (hlonger ha hb).imp (And.imp Eq.symm Eq.symm) .inr
  · rintro (⟨rfl, rfl⟩ | ⟨part, rfl, rfl⟩ | ⟨part, rfl, rfl⟩) <;> simp

/-- A first part without slash ends at the first slash. The name of a component is such a part, and
the name of an output need not be one. -/
theorem append_slash_eq_of_not_mem {a a' b b' : List Char} (ha : '/' ∉ a) (ha' : '/' ∉ a') :
    a ++ '/' :: b = a' ++ '/' :: b' ↔ a = a' ∧ b = b' := by
  rw [append_slash_eq_iff]
  refine or_iff_left ?_
  rintro (⟨part, rfl, -⟩ | ⟨part, rfl, -⟩)
  · simp at ha'
  · simp at ha

/-! ### Outputs of requests

A location is fixed when a component is prepared, and is part of the artifact from then on. It is no
location in the store: whether something was written there is another matter. -/

variable {k k₁ k₂ : Component} {root runId runId₁ runId₂ output output₁ output₂ : String}
  {b : Bindings} {s s' : Store} {r : Request} {a a₁ a₂ : Artifact}

theorem staging_of_mem_placeholders {component : String} {l : List (String × Channel)}
    {e : String × List Artifact}
    (he : e ∈ (placeholders root component runId s l).1.entries) (ha : a ∈ e.2) :
    a.staging = some (stagingUri root component e.1 runId) := by
  induction l generalizing s with
  | nil => cases he
  | cons f rest ih =>
    rw [placeholders] at he
    rcases SortedMap.mem_insertEntry he with rfl | he
    · rw [List.mem_singleton.mp ha]
    · exact ih he

/-- An artifact that is handed out for an output is to be made at the location of this output. What
is bound and what is stored have no influence on it. -/
theorem staging_of_prepare (h : k.prepare runId root b s = (.ok r, s')) {l : List Artifact}
    (hl : r.outputs.find? output = some l) (ha : a ∈ l) :
    a.staging = some (stagingUri root k.name output runId) := by
  obtain ⟨-, rfl, -⟩ := prepare_eq_ok_iff.mp h
  rw [request_outputs] at hl
  have hmade := staging_of_mem_placeholders (SortedMap.find?_eq_some_iff.mp hl) ha
  exact hmade

/-- The artifact was handed out for an output of a component that was built, when the component was
prepared for a run. Both parts matter: only a component that was built has a name without slash, and
only a request has artifacts with such locations. -/
structure Stages (k : Component) (root runId output : String) (a : Artifact) : Prop where
  built : ∃ (d : ComponentDraft) (s s' : Store), d.build s = (.ok k, s')
  prepared : ∃ (b : Bindings) (s s' : Store) (r : Request) (l : List Artifact),
    k.prepare runId root b s = (.ok r, s') ∧ r.outputs.find? output = some l ∧ a ∈ l

namespace Stages

theorem slash_not_mem (h : k.Stages root runId output a) : '/' ∉ k.name.toList := by
  obtain ⟨d, s, s', hbuild⟩ := h.built
  obtain ⟨parameters, haccepted, -, rfl⟩ := ComponentDraft.accepted_of_build hbuild
  have hnamed := haccepted.named
  rw [isComponentName, Bool.and_eq_true, List.all_eq_true] at hnamed
  intro hslash
  exact absurd (hnamed.2 '/' hslash) (by decide)

theorem staging (h : k.Stages root runId output a) :
    a.staging = some (stagingUri root k.name output runId) := by
  obtain ⟨b, s, s', r, l, hprepare, hl, ha⟩ := h.prepared
  exact staging_of_prepare hprepare hl ha

end Stages

/-! ### Outputs with one location

Now names and ids are texts again, so the part between the two cuts is made one as well. -/

theorem exists_part_iff {s s' t t' : String} :
    (∃ part : List Char, s'.toList = s.toList ++ '/' :: part ∧
        t.toList = part ++ '/' :: t'.toList) ↔
      ∃ part, s' = s ++ "/" ++ part ∧ t = part ++ "/" ++ t' := by
  constructor
  · rintro ⟨part, hs, ht⟩
    refine ⟨String.ofList part, ?_, ?_⟩ <;> rw [← String.toList_inj] <;> simp [hs, ht]
  · rintro ⟨part, rfl, rfl⟩
    exact ⟨part.toList, by simp, by simp⟩

/-- Behind the name of a component, what follows has to be the same as a whole. Where it is cut into
a name and an id cannot be seen from the location. -/
theorem stagingUri_eq_iff (root output₁ output₂ runId₁ runId₂ : String)
    {component₁ component₂ : String} (h₁ : '/' ∉ component₁.toList)
    (h₂ : '/' ∉ component₂.toList) :
    stagingUri root component₁ output₁ runId₁ = stagingUri root component₂ output₂ runId₂ ↔
      component₁ = component₂ ∧
        output₁.toList ++ '/' :: runId₁.toList = output₂.toList ++ '/' :: runId₂.toList := by
  have hchars : ∀ component output runId, (stagingUri root component output runId).toList =
      (Store.withoutSlashes root).toList ++
        '/' :: (component.toList ++ '/' :: (output.toList ++ '/' :: runId.toList)) := by
    intro component output runId
    have htext : stagingUri root component output runId =
        Store.withoutSlashes root ++ "/" ++ component ++ "/" ++ output ++ "/" ++ runId := rfl
    simp [htext]
  rw [← String.toList_inj, hchars, hchars, List.append_cancel_left_eq, List.cons.injEq,
    append_slash_eq_of_not_mem h₁ h₂, String.toList_inj]
  simp

/-- Outputs below one root, of components that were built, have one location exactly if the
components have one name and either outputs and runs are the same as well, or the name of one output
goes on behind that of the other with a slash, and with what stands behind this slash the id of the
other run begins. So in one run each output has a location of its own, and outputs whose names have
no slash never share one, whatever the ids of their runs are. -/
theorem staging_eq_iff (h₁ : k₁.Stages root runId₁ output₁ a₁)
    (h₂ : k₂.Stages root runId₂ output₂ a₂) :
    (a₁.staging = a₂.staging ↔ k₁.name = k₂.name ∧
      (output₁ = output₂ ∧ runId₁ = runId₂ ∨
        (∃ part, output₂ = output₁ ++ "/" ++ part ∧ runId₁ = part ++ "/" ++ runId₂) ∨
        ∃ part, output₁ = output₂ ++ "/" ++ part ∧ runId₂ = part ++ "/" ++ runId₁)) ∧
      (runId₁ = runId₂ → a₁.staging = a₂.staging → k₁.name = k₂.name ∧ output₁ = output₂) ∧
      ('/' ∉ output₁.toList → '/' ∉ output₂.toList → a₁.staging = a₂.staging →
        k₁.name = k₂.name ∧ output₁ = output₂ ∧ runId₁ = runId₂) := by
  have hlocations := stagingUri_eq_iff root output₁ output₂ runId₁ runId₂ h₁.slash_not_mem
    h₂.slash_not_mem
  rw [h₁.staging, h₂.staging, Option.some_inj, hlocations]
  refine ⟨?_, fun hrun h => ⟨h.1, ?_⟩, fun hslash₁ hslash₂ h => ⟨h.1, ?_⟩⟩
  · rw [append_slash_eq_iff, exists_part_iff, exists_part_iff, String.toList_inj,
      String.toList_inj]
  · have houtput := h.2
    rw [hrun, List.append_cancel_right_eq] at houtput
    exact String.toList_inj.mp houtput
  · have hparts := (append_slash_eq_of_not_mem hslash₁ hslash₂).mp h.2
    exact hparts.imp String.toList_inj.mp String.toList_inj.mp

end Component

/-! ### Names with slashes

One component with two outputs is enough for a collision, and it takes two runs. In a single run the
ids are the same, and then neither of them can begin with a part of a name. -/

namespace Depot

def data : ArtifactType := ⟨"Data", by decide⟩

/-- Two outputs, and the name of the second one goes on behind that of the first one. -/
def spec : Spec := ⟨"depot", [.output "x" data, .output "x/y" data], by decide +kernel⟩

def draft : ComponentDraft := { spec, executor := fun _ _ => .done () }

def component : Component where
  name := "depot"
  spec
  executor := draft.executor
  inputs := .empty
  outputs := .ofList [("x", ⟨⟨1⟩, data⟩), ("x/y", ⟨⟨2⟩, data⟩)]
  parameters := .empty

def first (runId : String) : Artifact :=
  ⟨⟨1⟩, data, some (Component.stagingUri "out" "depot" "x" runId)⟩

def second (runId : String) : Artifact :=
  ⟨⟨2⟩, data, some (Component.stagingUri "out" "depot" "x/y" runId)⟩

/-- The request for a run with this id. -/
def request (runId : String) : Request where
  component := "depot"
  runId
  inputs := .empty
  outputs := .ofList [("x/y", [second runId]), ("x", [first runId])]
  parameters := .empty
  targets := component.outputs

theorem prepare_component (runId : String) :
    (component.prepare runId "out" {} {}).1 = .ok (request runId) := rfl

theorem stages {runId output : String} {l : List Artifact} {a : Artifact}
    (hl : (request runId).outputs.find? output = some l) (ha : a ∈ l) :
    component.Stages "out" runId output a where
  built := ⟨draft, {}, _, rfl⟩
  prepared := ⟨{}, {}, _, _, l, Prod.ext (prepare_component runId) rfl, hl, ha⟩

theorem stages_first (runId : String) : component.Stages "out" runId "x" (first runId) :=
  stages (l := [first runId]) (by simp [request, SortedMap.ofList]) List.mem_cons_self

theorem stages_second (runId : String) : component.Stages "out" runId "x/y" (second runId) :=
  stages (l := [second runId]) (by simp [request, SortedMap.ofList]) List.mem_cons_self

end Depot

namespace Component

/-- The first output of the run `y/z` has the location of the second output of the run `z`. Neither
shares one with an output of its own run. -/
theorem staging_eq_depot :
    (∀ runId, Depot.component.Stages "out" runId "x" (Depot.first runId)) ∧
      (∀ runId, Depot.component.Stages "out" runId "x/y" (Depot.second runId)) ∧
      (Depot.first "y/z").staging = (Depot.second "z").staging ∧
      ∀ runId, (Depot.first runId).staging ≠ (Depot.second runId).staging := by
  refine ⟨Depot.stages_first, Depot.stages_second, ?_, fun runId h => ?_⟩
  · exact (staging_eq_iff (Depot.stages_first _) (Depot.stages_second _)).1.mpr
      ⟨rfl, .inr (.inl ⟨"y", by decide, by decide⟩)⟩
  · obtain ⟨-, houtput⟩ :=
      (staging_eq_iff (Depot.stages_first runId) (Depot.stages_second runId)).2.1 rfl h
    exact absurd houtput (by decide)

end Component

end TypedPipeline
