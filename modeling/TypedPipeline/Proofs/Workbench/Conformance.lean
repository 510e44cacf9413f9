import TypedPipeline.Proofs.Run.Failure
import TypedPipeline.Proofs.Workbench

/-!
# Requests and contracts

An executor may rely on what the contract of its component declares: every input has artifacts of
the declared type, all with locations, every output has one new artifact of the declared type, and
the parameters have their declared types. No single check says all this. The build compares channels
and parameters with the contract, a bind compares artifacts with channels, and preparing looks for
locations. Taken together they are enough on every workbench, and what they have found stays true
until the executor is invoked.

## Implementation notes

`Component.HandsOut` is what `Component.prepare` gives, and everything here is proved of it. So
`Component.HandsOut.conforms` needs the invariant of types, `Component.HandsOut.blank` needs the
numbers, and neither knows how a component is prepared.

A request is a picture of bindings at one time. The artifacts in it stay what they are, but their
locations are in the store, which goes on changing. That they are found again later is the last part
of `Workbench.prepare_conforms`. It rests on `Session.Keeps`: no step takes a location away. That an
input still has artifacts of its type needs no step, because the artifacts carry their types.

## Main definitions

* `Bindings.Lacks` — a channel to which nothing that can be read is bound
* `Request.Conforms` — what the contract says of a request
* `Request.Blank` — outputs that are new

## Main results

* `Component.unpopulatedInput_iff` — when a component is not prepared
* `Component.HandsOut.conforms`, `Component.HandsOut.blank` — the request of one that was
* `Workbench.prepare_conforms` — both, and what stays true of the inputs
-/

namespace TypedPipeline

/-! ### Inputs that cannot be read

An input is looked at through the bindings of the run only. What its channel holds does not matter
here. If a component was built with a channel that nobody bound anything to, it is not prepared,
however many artifacts the channel itself holds. -/

/-- Nothing was bound to the channel, or no artifact, or one without location. What has a location
is taken as it is: whether anything can be found there is not asked. -/
def Bindings.Lacks (b : Bindings) (s : Store) (c : Channel) : Prop :=
  b.find? c = none ∨ b.find? c = some [] ∨
    ∃ l, b.find? c = some l ∧ ∃ a ∈ l, (s.artifact a).uri = none

namespace Component

variable {k : Component} {runId root : String} {b : Bindings} {s s' : Store} {r : Request}

theorem readable_eq_false_iff {c : Channel} :
    readable s (b.artifacts c) = false ↔ b.Lacks s c := by
  rw [Bindings.artifacts, Bindings.Lacks, ← Bool.not_eq_true, readable_iff]
  cases b.find? c with
  | none => simp
  | some l => simp [ArtifactState.populated, or_iff_not_imp_left]

/-- A component is not prepared exactly if there is an input that cannot be read. The inputs are
tried in the order of their names, and the first one that lacks something is reported. -/
theorem unpopulatedInput_iff :
    (∃ field s', k.prepare runId root b s = (.error (.unpopulatedInput k.name field), s')) ↔
      ∃ field c, k.inputs.find? field = some c ∧ b.Lacks s c := by
  constructor
  · rintro ⟨field, s', h⟩
    obtain ⟨e, he, hread⟩ := prepare_error_iff.mp ⟨_, s', h⟩
    exact ⟨e.1, e.2, SortedMap.find?_eq_some_iff.mpr he, readable_eq_false_iff.mp hread⟩
  · rintro ⟨field, c, hc, hlacks⟩
    have hentry : (field, c) ∈ k.inputs.entries := SortedMap.find?_eq_some_iff.mp hc
    obtain ⟨e, s', h⟩ :=
      prepare_error_iff.mpr ⟨(field, c), hentry, readable_eq_false_iff.mpr hlacks⟩
    obtain ⟨input, -, rfl, -⟩ := unpopulatedInput_of_prepare h
    exact ⟨input.1, s', h⟩

/-- There is no other failure, and a failure leaves the store alone. -/
theorem prepare_error {e : ExecutionError} (h : k.prepare runId root b s = (.error e, s')) :
    (∃ field, e = .unpopulatedInput k.name field) ∧ s' = s := by
  obtain ⟨input, -, he, -⟩ := unpopulatedInput_of_prepare h
  refine ⟨⟨input.1, he⟩, ?_⟩
  rcases k.prepare_cases runId root b s with ⟨e', he'⟩ | ⟨r, s'', hr, -⟩
  · cases h.symm.trans he'
    rfl
  · cases h.symm.trans hr

end Component

/-! ### Requests

Conformance is about types and numbers of artifacts, and blankness is about their being new. The
first is what a contract says, the second is why runs cannot disturb each other. -/

/-- The request has what the contract declares. -/
structure Request.Conforms (r : Request) (spec : Spec) : Prop where
  inputNames : Spec.NamesAgree spec.inputs r.inputs
  /-- There is something to read, of the declared type. -/
  inputs : ∀ f ∈ spec.inputs, ∀ l, r.inputs.find? f.1 = some l → l ≠ [] ∧ ∀ a ∈ l, a.type = f.2
  outputNames : Spec.NamesAgree spec.outputs r.outputs
  /-- There is one artifact to fill, of the declared type. -/
  outputs : ∀ f ∈ spec.outputs, ∀ l, r.outputs.find? f.1 = some l → ∃ a, l = [a] ∧ a.type = f.2
  parameters : spec.Typed r.parameters

/-- The outputs of the request are new: `w` is the session before they were made, and `s` the store
after it. -/
structure Request.Blank (r : Request) (w : Session) (s : Store) : Prop where
  /-- They have no location and no properties. -/
  state : ∀ e ∈ r.outputs.entries, ∀ a ∈ e.2, s.artifact a = {}
  /-- Their numbers had not been given out. -/
  number : ∀ e ∈ r.outputs.entries, ∀ a ∈ e.2, w.store.nextArtifact ≤ a.id.number
  /-- No artifact of the session has one of their numbers. -/
  others : ∀ e ∈ r.outputs.entries, ∀ a ∈ e.2, ∀ a' ∈ w.artifacts, a'.id ≠ a.id
  /-- No two outputs have one number. -/
  distinct : ∀ e ∈ r.outputs.entries, ∀ f ∈ r.outputs.entries, ∀ a ∈ e.2, ∀ a' ∈ f.2,
    a.id = a'.id → e.1 = f.1

theorem Spec.NamesAgree.map {α β γ : Type} {declared : List (String × α)} {m : TextMap β}
    (h : NamesAgree declared m) (f : String → β → γ) : NamesAgree declared (m.map f) := by
  intro name
  rw [SortedMap.find?_map, ← h name]
  simp

namespace Component.HandsOut

variable {k : Component} {runId root : String} {b : Bindings} {s s' : Store} {r : Request}

/-- What stands under the name of an output is blank. It has the type of its channel and the
location at which it is to be made. -/
theorem sight_output (h : k.HandsOut runId root b s s' r) (field : String) :
    (r.outputs.find? field).map (List.map s'.sight) = (k.outputs.find? field).map fun d =>
      [⟨d.type, some (stagingUri root k.name field runId), {}⟩] := by
  rw [← Store.find?_sights, h.outputs, blanks, SortedMap.find?_map]

/-- What is bound to the channels of inputs stands under the names of the inputs. Two inputs with
one channel are handed the same. -/
theorem exists_input (h : k.HandsOut runId root b s s' r) {e : String × List Artifact}
    (he : e ∈ r.inputs.entries) : ∃ c, k.inputs.find? e.1 = some c ∧ b.artifacts c = e.2 := by
  have hfind := SortedMap.find?_eq_some_iff.mpr he
  rw [h.inputs, SortedMap.find?_map] at hfind
  exact Option.map_eq_some_iff.mp hfind

variable {w : Session}

/-- The request of a component of a session has what the contract declares. Names are those of the
component, and types are those of its channels. -/
theorem conforms (h : k.HandsOut runId root b s s' r) (hw : w.Typed) (hk : k ∈ w.components)
    (hb : b.Within w) : r.Conforms k.spec := by
  have hconforms := hw.conforms k hk
  refine ⟨?_, fun f hf l hl => ?_, fun field => ?_, fun f hf l hl => ?_, ?_⟩
  · rw [h.inputs]
    exact hconforms.inputs.names.map _
  · obtain ⟨c, hc, rfl⟩ := h.exists_input (SortedMap.find?_eq_some_iff.mp hl)
    refine ⟨h.nonempty c (SortedMap.mem_values_iff_find?.mpr ⟨f.1, hc⟩), fun a ha => ?_⟩
    -- The artifact was compared with some channel, and the number says that it is this one.
    obtain ⟨-, d, hd, hid, htype⟩ := hb c a ha
    rw [htype]
    exact hw.input_type hk hf hc hd hid
  · have hsome := congrArg Option.isSome (h.sight_output field)
    rw [Option.isSome_map, Option.isSome_map] at hsome
    rw [← hconforms.outputs.names field, ← Option.isSome_iff_exists, ← Option.isSome_iff_exists,
      hsome]
  · have hsight := h.sight_output f.1
    rw [hl, Option.map_some] at hsight
    obtain ⟨d, hd, hmap⟩ := Option.map_eq_some_iff.mp hsight.symm
    obtain ⟨a, rfl, ha⟩ := List.map_eq_singleton_iff.mp hmap.symm
    refine ⟨a, rfl, ?_⟩
    rw [← hconforms.outputs.types f hf d hd]
    exact congrArg Sight.type ha
  · rw [h.parameters]
    exact hconforms.parameters

theorem blank (h : k.HandsOut runId root b w.store s' r) (hw : w.Sound) : r.Blank w s' where
  state e he a ha := by
    obtain ⟨a', ha', hblank⟩ := h.ready.blank e he
    rw [ha'] at ha
    rw [List.mem_singleton.mp ha, hblank]
  number e he a ha := (h.new e he a ha).1
  others e he a ha a' ha' hid := by
    have hnew := (h.new e he a ha).1
    have hold := hw.artifact_lt a' ha'
    rw [hid] at hold
    omega
  distinct := h.ready.distinct

end Component.HandsOut

/-! ### Every workbench

A workbench is a session with all bindings and all requests that were ever made. So what is said of
one of them is true whatever else goes on beside it. -/

namespace Workbench

variable {w w' : Workbench} {k : Component} {b : Bindings} {runId root : String} {r : Request}
  {s : Store}

/-- Inputs that were found to have locations keep them, whatever is done afterwards. -/
theorem Sound.populated_later (hw : w.Sound) (hk : k ∈ w.session.components) (hb : b ∈ w.bindings)
    (h : k.prepare runId root b w.session.store = (.ok r, s))
    (hlater : Relation.ReflTransGen Step (w.prepared r s) w') :
    ∀ e ∈ r.inputs.entries, ∀ a ∈ e.2, (w'.session.store.artifact a).uri ≠ none := by
  intro e he a ha
  have hout := hw.handsOut hb h
  have hkeeps := (keeps_of_steps (hw.prepared hk hb h) hlater).2
  obtain ⟨c, -, hc⟩ := hout.exists_input he
  rw [← hc] at ha
  -- What was bound belongs to the session, and there no location is lost.
  have hmem : a ∈ (w.prepared r s).session.artifacts :=
    List.mem_append_right _ (hw.bindings b hb c a ha).1
  have hready : (s.artifact a).uri ≠ none := hout.ready.populated e he a (hc ▸ ha)
  have hpopulated := hkeeps.populated a hmem (Option.isSome_iff_ne_none.mpr hready)
  exact Option.isSome_iff_ne_none.mp hpopulated

/-- A component is not prepared exactly if there is an input to whose channel nothing was bound, or
no artifact, or an artifact without location; and it fails in no other way. If it is prepared, the
request has what the contract declares, the outputs are new, and all inputs have locations, then and
after whatever is done on the workbench later. -/
theorem prepare_conforms (hw : w.Reachable) (hk : k ∈ w.session.components) (hb : b ∈ w.bindings)
    (runId root : String) :
    ((∃ field s,
        k.prepare runId root b w.session.store = (.error (.unpopulatedInput k.name field), s)) ↔
      ∃ field c, k.inputs.find? field = some c ∧ b.Lacks w.session.store c) ∧
    (∀ e s, k.prepare runId root b w.session.store = (.error e, s) →
      (∃ field, e = .unpopulatedInput k.name field) ∧ s = w.session.store) ∧
    ∀ r s, k.prepare runId root b w.session.store = (.ok r, s) →
      r.Conforms k.spec ∧ r.Blank w.session s ∧
        ∀ w', Relation.ReflTransGen Step (w.prepared r s) w' →
          ∀ e ∈ r.inputs.entries, ∀ a ∈ e.2, (w'.session.store.artifact a).uri ≠ none := by
  have hsound := hw.sound
  refine ⟨Component.unpopulatedInput_iff, fun e s h => Component.prepare_error h, fun r s h => ?_⟩
  have hout := hsound.handsOut hb h
  exact ⟨hout.conforms hsound.typed hk (hsound.bindings b hb), hout.blank hsound.session,
    fun w' hlater => hsound.populated_later hk hb h hlater⟩

end Workbench

/-! ### Outputs that are published too early

To publish does not ask whether the outputs have locations. It may be done by hand before an
executor has run, and then the next component is not prepared. -/

namespace Relay

/-- Bindings that begin with what the first channel holds. -/
def seeded : Bindings := session.store.seed [channel 1]

def made : Artifact := ⟨⟨3⟩, table, some (Component.stagingUri "out" "first" "out" "run")⟩

/-- The request of the first component in a run with these bindings. -/
def request : Request where
  component := "first"
  runId := "run"
  inputs := .ofList [("in", [artifact 2, artifact 1]), ("side", [artifact 2, artifact 1])]
  outputs := .ofList [("out", [made])]
  parameters := .empty
  targets := .ofList [("out", channel 2)]

/-- The store once the first component was prepared. -/
def allotted : Store := (session.store.newArtifact table made.staging).2

theorem prepare_first :
    (component "first" 1 1 2).prepare "run" "out" seeded session.store =
      (.ok request, allotted) := rfl

/-- The workbench on which the first component is prepared. -/
def workbench : Workbench := { session, bindings := [seeded] }

/-- The workbench on which its output was published, though no executor has been invoked. -/
def hasty : Workbench :=
  { workbench.prepared request allotted with bindings := [(request.publish seeded).1, seeded] }

theorem reachable_workbench : workbench.Reachable :=
  .tail (Workbench.reachable_of_session reachable) (.seed _ (l := [channel 1]) (by decide))

theorem reachable_hasty : hasty.Reachable :=
  .tail (.tail reachable_workbench
    (.prepare _ (List.mem_cons_of_mem _ List.mem_cons_self) List.mem_cons_self prepare_first))
    (.publish _ List.mem_cons_self List.mem_cons_self)

end Relay

namespace Workbench

/-- The first component gets the request that its contract declares. Its output has no location when
it is published, so the second component, which reads it, is not prepared. -/
theorem prepare_conforms_relay :
    Relay.workbench.Reachable ∧ Relay.hasty.Reachable ∧
      (Relay.request.Conforms Relay.spec ∧
        Relay.request.Blank Relay.session Relay.allotted) ∧
      (∀ e ∈ Relay.request.inputs.entries, ∀ a ∈ e.2,
        (Relay.hasty.session.store.artifact a).uri ≠ none) ∧
      ∃ field s, (Relay.component "second" 2 1 3).prepare "run" "out"
          (Relay.request.publish Relay.seeded).1 Relay.hasty.session.store =
        (.error (.unpopulatedInput "second" field), s) := by
  obtain ⟨-, -, hok⟩ := prepare_conforms Relay.reachable_workbench
    (k := Relay.component "first" 1 1 2) (b := Relay.seeded)
    (List.mem_cons_of_mem _ List.mem_cons_self) List.mem_cons_self "run" "out"
  obtain ⟨hconforms, hblank, hlater⟩ := hok _ _ Relay.prepare_first
  obtain ⟨hfails, -, -⟩ := prepare_conforms Relay.reachable_hasty
    (k := Relay.component "second" 2 1 3) (b := (Relay.request.publish Relay.seeded).1)
    List.mem_cons_self List.mem_cons_self "run" "out"
  refine ⟨Relay.reachable_workbench, Relay.reachable_hasty, ⟨hconforms, hblank⟩,
    hlater _ (.single (.publish _ List.mem_cons_self List.mem_cons_self)), hfails.mpr ?_⟩
  exact ⟨"in", Relay.channel 2, rfl, .inr (.inr ⟨[Relay.made], rfl, Relay.made, by simp, rfl⟩)⟩

end Workbench

end TypedPipeline
