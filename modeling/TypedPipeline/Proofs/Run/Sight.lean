import TypedPipeline.Proofs.Request

/-!
# What executors see

Two runs of one pipeline are handed different artifacts: the numbers differ. To say that they do the
same, artifacts are compared by sight, that is by all there is to them but the number. An executor
that goes by sight alone does the same in both.

The second thing that runs need of executors is that they leave alone what has a location. Most
changes do so by themselves, since they are refused; only one kind of change is not.

That an executor goes by sight is asked only of what a request hands out: inputs that all have
locations, and outputs that are new and all different. A program could otherwise tell by a change to
one output whether another one is the same artifact.

## Implementation notes

`Executor.Deterministic` has to be about all stores and machines, and an executor is a program that
may ask anything of either. `Work.Blind` is a condition on the text of such a program which is
enough and easy to check: it goes on alike for all numbers and all answers of the machine. It is not
needed for what follows, which uses determinism only; but without it one would not know that any
executor is deterministic.

Programs look at artifacts slot by slot. So two stores look alike to a program if they do so in
every slot, and a change in one slot must not be seen in another one. `Work.Handed.Unshared` is what
this needs, and it stays true because a change that is accepted is made to an artifact without
location, which is in one slot only.

The induction in `Work.run_alike` is on the program. The two runs of it are always at one place, as
they have been told the same so far.

## Main definitions

* `Sight`, `Store.sights` — artifacts without their numbers
* `Work.WritesOnce` — no location is ever replaced
* `Work.Handed.Ready` — artifacts as a request hands them out
* `Executor.Deterministic` — what an executor does depends on sights and parameters alone
* `Store.Spares` — a store in which some of the artifacts have not changed

## Main results

* `Work.artifact_run` — which artifacts a program leaves alone
* `Executor.deterministic_of_blind` — a program that does not look at numbers goes by sight
-/

namespace TypedPipeline

variable {W α : Type} (host : Host (StateM W))

/-! ### Artifacts without numbers

Everything that an executor may go by is in a sight: the type, where it is to be made, and the
state. -/

/-- All about an artifact but its number. It has everything that is ever written down about the
artifact. -/
structure Sight where
  type : ArtifactType
  staging : Option String
  state : ArtifactState
deriving DecidableEq

/-- The record of an artifact, which has no number. -/
def Sight.record (v : Sight) : ArtifactRecord := ⟨v.type.name, v.state.uri, v.state.properties⟩

namespace Store

/-- An artifact by sight. -/
def sight (s : Store) (a : Artifact) : Sight := ⟨a.type, a.staging, s.artifact a⟩

/-- Artifacts by sight, field by field. -/
def sights (s : Store) (m : TextMap (List Artifact)) : TextMap (List Sight) :=
  m.map fun _ l => l.map s.sight

theorem record_sight (s : Store) (a : Artifact) : (s.sight a).record = s.record a := rfl

theorem find?_sights (s : Store) (m : TextMap (List Artifact)) (field : String) :
    (s.sights m).find? field = (m.find? field).map (List.map s.sight) :=
  SortedMap.find?_map ..

theorem artifact_of_id {s : Store} {a b : Artifact} (h : a.id = b.id) :
    s.artifact a = s.artifact b := by
  rw [artifact, artifact, h]

/-- What was done to a store has left certain artifacts as they were, and all channels. Artifacts
may have been added. Those that are added are not among those that were left alone, since they were
not there. -/
structure Spares (spared : Artifact → Prop) (s s' : Store) : Prop where
  channels : s'.channels = s.channels
  nextArtifact : s.nextArtifact ≤ s'.nextArtifact
  artifact : ∀ a : Artifact, a.id.number < s.nextArtifact → spared a → s'.artifact a = s.artifact a

namespace Spares

variable {spared spared' : Artifact → Prop} {s s' s'' : Store}

theorem refl (s : Store) : Spares spared s s := ⟨rfl, Nat.le_refl _, fun _ _ _ => rfl⟩

theorem trans (h : Spares spared s s') (h' : Spares spared s' s'') : Spares spared s s'' where
  channels := h'.channels.trans h.channels
  nextArtifact := Nat.le_trans h.nextArtifact h'.nextArtifact
  artifact a ha hspared := (h'.artifact a (Nat.lt_of_lt_of_le ha h.nextArtifact) hspared).trans
    (h.artifact a ha hspared)

theorem mono (h : Spares spared s s') (hspared : ∀ a, spared' a → spared a) :
    Spares spared' s s' :=
  ⟨h.channels, h.nextArtifact, fun a ha hs => h.artifact a ha (hspared a hs)⟩

/-- Artifacts that are left alone look as before. They have to be there, since others may have been
made. -/
theorem map_sight (h : Spares spared s s') {l : List Artifact}
    (hl : ∀ a ∈ l, a.id.number < s.nextArtifact ∧ spared a) : l.map s'.sight = l.map s.sight := by
  refine List.map_congr_left fun a ha => ?_
  rw [sight, sight, h.artifact a (hl a ha).1 (hl a ha).2]

theorem sights (h : Spares spared s s') {m : TextMap (List Artifact)}
    (hm : ∀ e ∈ m.entries, ∀ a ∈ e.2, a.id.number < s.nextArtifact ∧ spared a) :
    s'.sights m = s.sights m := by
  refine SortedMap.ext_find? fun field => ?_
  rw [find?_sights, find?_sights]
  cases hfield : m.find? field with
  | none => rfl
  | some l =>
    have hl := hm (field, l) (SortedMap.find?_eq_some_iff.mp hfield)
    rw [Option.map_some, Option.map_some, h.map_sight hl]

end Spares

theorem artifact_newArtifact_self (s : Store) (type : ArtifactType) (staging : Option String)
    (state : ArtifactState) :
    (s.newArtifact type staging state).2.artifact (s.newArtifact type staging state).1 = state :=
  (artifact_newArtifact s type staging state _).trans (if_pos rfl)

theorem spares_newArtifact (spared : Artifact → Prop) (s : Store) (type : ArtifactType)
    (staging : Option String) (state : ArtifactState) :
    Spares spared s (s.newArtifact type staging state).2 where
  channels := rfl
  nextArtifact := Nat.le_succ _
  artifact a ha _ := by
    have hne : a.id ≠ ⟨s.nextArtifact⟩ := by
      intro e
      rw [e] at ha
      exact Nat.lt_irrefl _ ha
    rw [artifact_newArtifact, if_neg hne]

end Store

/-! ### Programs that replace no location

Of the changes to an artifact all but one are refused once there is a location. So it is enough to
exclude this one, and the location protects itself from the others. -/

/-- The change replaces a location. -/
def ArtifactOp.Replaces : ArtifactOp → Prop
  | .overwriteUri _ => True
  | _ => False

/-- A change that replaces no location is refused once there is one. -/
theorem ArtifactState.uri_eq_none_of_apply {op : ArtifactOp} {s s' : ArtifactState}
    (hop : ¬ op.Replaces) (h : s.apply op = .ok s') : s.uri = none := by
  have haccepted := (apply_isOk_iff op s).mp ⟨s', h⟩
  cases op with
  | setUri uri => exact haccepted
  | overwriteUri uri => exact absurd trivial hop
  | setProperty name value => exact haccepted
  | setSplitNames names => exact haccepted.1

namespace Work

/-- No step of the program replaces a location. -/
def WritesOnce : Work α → Prop
  | done _ => True
  | fail _ => True
  | refused _ _ => True
  | look _ next => ∀ v, (next v).WritesOnce
  | change _ op next => ¬ op.Replaces ∧ ∀ r, (next r).WritesOnce
  | ask _ next => ∀ r, (next r).WritesOnce
  | note _ next => next.WritesOnce

/-- An artifact is left alone by a program that replaces no location, if it has one or is not among
those that the program is handed. -/
theorem artifact_run {h : Handed} {p : Work α} (hp : p.WritesOnce) {s : Store} {a : Artifact}
    (ha : (s.artifact a).uri ≠ none ∨ ∀ slot a', h.artifact? slot = some a' → a'.id ≠ a.id)
    (w : W) : (p.run host h s w).1.2.artifact a = s.artifact a := by
  induction p generalizing s w with
  | done a => rfl
  | fail e => rfl
  | refused slot r => rfl
  | look slot next ih => exact ih _ (hp _) ha w
  | change slot op next ih =>
    rw [run]
    cases hslot : h.artifact? slot with
    | none => exact ih _ (hp.2 _) ha w
    | some a' =>
      have hkept : (s.change a' op).2.artifact a = s.artifact a := by
        cases happly : (s.artifact a').apply op with
        | error r => rw [Store.change_of_error happly]
        | ok state =>
          rw [(Store.change_of_ok happly).2, if_neg]
          intro hid
          rcases ha with huri | hout
          · rw [Store.artifact_of_id hid] at huri
            exact huri (ArtifactState.uri_eq_none_of_apply hp.1 happly)
          · exact hout slot a' hslot hid.symm
      have hrest := ih (s.change a' op).1 (hp.2 _) (s := (s.change a' op).2)
        (ha.imp_left fun huri => by rwa [hkept]) w
      exact hrest.trans hkept
  | ask request next ih => exact ih _ (hp _) ha _
  | note e next ih => exact ih hp (s := s.note e) ha w

end Work

/-! ### Failures without numbers

Two runs that fail in the same way may name different artifacts. Only the numbers are taken away;
which failure it is, and all else it says, stays. -/

/-- A failure of an artifact that does not say of which one. -/
def ArtifactError.anonymous : ArtifactError → ArtifactError
  | uriAlreadySet _ uri => uriAlreadySet ⟨0⟩ uri
  | sealed _ => sealed ⟨0⟩
  | unpopulated _ => unpopulated ⟨0⟩
  | invalidSplitName name => invalidSplitName name
  | splitNotFound split found => splitNotFound split found

/-- A failure without numbers of artifacts. -/
def ExecutionError.anonymous : ExecutionError → ExecutionError
  | artifact e => artifact e.anonymous
  | e => e

@[simp]
theorem ArtifactError.anonymous_error (r : Refusal) (id : ArtifactId) :
    (r.error id).anonymous = (r.error ⟨0⟩).anonymous := by
  cases r <;> rfl

/-! ### What is handed out

All these conditions hold of what a request hands out. They are hypotheses here, so that this module
does not depend on how components are prepared. -/

namespace Work.Handed

/-- Artifacts as a request hands them out. Inputs have locations. Outputs are new, and there is one
for each field, no two of them the same. -/
structure Ready (h : Handed) (s : Store) : Prop where
  populated : ∀ e ∈ h.inputs.entries, ∀ a ∈ e.2, (s.artifact a).uri ≠ none
  blank : ∀ e ∈ h.outputs.entries, ∃ a, e.2 = [a] ∧ s.artifact a = {}
  distinct : ∀ e ∈ h.outputs.entries, ∀ f ∈ h.outputs.entries, ∀ a ∈ e.2, ∀ b ∈ f.2,
    a.id = b.id → e.1 = f.1

/-- What is handed out in two stores looks the same. -/
structure Alike (h₁ : Handed) (s₁ : Store) (h₂ : Handed) (s₂ : Store) : Prop where
  inputs : s₁.sights h₁.inputs = s₂.sights h₂.inputs
  outputs : s₁.sights h₁.outputs = s₂.sights h₂.outputs

end Work.Handed

/-- What an executor does with what a request hands out depends on the sight of it and on the
parameters: not on the numbers of artifacts, and not on the machine. -/
def Executor.Deterministic (executor : Executor) : Prop :=
  ∀ (parameters : Parameters) (h₁ h₂ : Work.Handed) (s₁ s₂ : Store) (w₁ w₂ : W),
    h₁.Ready s₁ → h₂.Ready s₂ → h₁.Alike s₁ h₂ s₂ →
      ((executor h₁.offer parameters).run host h₁ s₁ w₁).1.1.mapError ExecutionError.anonymous =
          ((executor h₂.offer parameters).run host h₂ s₂ w₂).1.1.mapError
            ExecutionError.anonymous ∧
        ((executor h₁.offer parameters).run host h₁ s₁ w₁).1.2.sights h₁.outputs =
          ((executor h₂.offer parameters).run host h₂ s₂ w₂).1.2.sights h₂.outputs

/-- No step of what the executor does replaces a location. To write one where there is none is no
replacement. -/
def Executor.WritesOnce (executor : Executor) : Prop :=
  ∀ offer parameters, (executor offer parameters).WritesOnce

/-! ### Programs that do not look at numbers

The condition is about the text of a program. That it leads to determinism takes the rest of the
module. -/

namespace Work

/-- The program goes on alike whatever the numbers of the artifacts are that it looks at, and
whatever the surroundings reply. -/
def Blind : Work α → Prop
  | done _ => True
  | fail _ => True
  | refused _ _ => True
  | look _ next => (∀ v, (next v).Blind) ∧ ∀ (a b : Artifact) (state : ArtifactState),
      a.type = b.type → a.staging = b.staging → next (some ⟨a, state⟩) = next (some ⟨b, state⟩)
  | change _ _ next => ∀ r, (next r).Blind
  | ask _ next => (∀ r, (next r).Blind) ∧ ∀ r r', next r = next r'
  | note _ next => next.Blind

namespace Handed

/-- What is in a slot, by sight. -/
def sight? (h : Handed) (s : Store) (slot : Slot) : Option Sight :=
  (h.artifact? slot).map s.sight

/-- An artifact without location is in one slot only. -/
def Unshared (h : Handed) (s : Store) : Prop :=
  ∀ slot slot' a b, h.artifact? slot = some a → h.artifact? slot' = some b → a.id = b.id →
    (s.artifact a).uri = none → slot = slot'

variable {h h₁ h₂ : Handed} {s s₁ s₂ : Store}

theorem artifact?_eq (h : Handed) (slot : Slot) :
    h.artifact? slot = ((h.side slot.side).find? slot.field).bind (·[slot.index]?) := rfl

theorem exists_entry_of_artifact? {slot : Slot} {a : Artifact} (ha : h.artifact? slot = some a) :
    ∃ e ∈ (h.side slot.side).entries, e.1 = slot.field ∧ e.2[slot.index]? = some a := by
  rw [artifact?_eq] at ha
  obtain ⟨l, hl, hget⟩ := Option.bind_eq_some_iff.mp ha
  exact ⟨(slot.field, l), SortedMap.find?_eq_some_iff.mp hl, rfl, hget⟩

theorem sight?_eq (h : Handed) (s : Store) (slot : Slot) :
    h.sight? s slot = ((s.sights (h.side slot.side)).find? slot.field).bind (·[slot.index]?) := by
  rw [sight?, artifact?_eq, Store.find?_sights]
  cases (h.side slot.side).find? slot.field with
  | none => rfl
  | some l => simp

theorem Alike.sight? (ha : h₁.Alike s₁ h₂ s₂) (slot : Slot) :
    h₁.sight? s₁ slot = h₂.sight? s₂ slot := by
  rw [sight?_eq, sight?_eq]
  obtain ⟨side, field, index⟩ := slot
  cases side with
  | input => rw [side, side, ha.inputs]
  | output => rw [side, side, ha.outputs]

/-- Programs are told the same of artifacts that look the same. They are told fields, counts and
types. -/
theorem Alike.offer (ha : h₁.Alike s₁ h₂ s₂) : h₁.offer = h₂.offer := by
  have htypes : ∀ (s : Store) (m : TextMap (List Artifact)),
      m.map (fun _ l => l.map Artifact.type) =
        (s.sights m).map fun _ l => l.map Sight.type := by
    intro s m
    rw [Store.sights, SortedMap.map_map, SortedMap.map_eq_map_iff]
    intro e _
    simp [Store.sight]
  rw [Handed.offer, Handed.offer, htypes s₁ h₁.inputs, htypes s₁ h₁.outputs, ha.inputs, ha.outputs,
    ← htypes, ← htypes]

/-- What a request hands out has nothing without location in two slots. -/
theorem Ready.unshared (hr : h.Ready s) : h.Unshared s := by
  intro slot slot' a b ha hb hid huri
  obtain ⟨side, field, index⟩ := slot
  obtain ⟨side', field', index'⟩ := slot'
  obtain ⟨e, he, rfl, hget⟩ := exists_entry_of_artifact? ha
  obtain ⟨f, hf, rfl, hget'⟩ := exists_entry_of_artifact? hb
  have huri' : (s.artifact b).uri = none := by rwa [← Store.artifact_of_id hid]
  cases side with
  | input => exact absurd huri (hr.populated e he a (List.mem_of_getElem? hget))
  | output =>
    cases side' with
    | input => exact absurd huri' (hr.populated f hf b (List.mem_of_getElem? hget'))
    | output =>
      have hfield := hr.distinct e he f hf a (List.mem_of_getElem? hget) b
        (List.mem_of_getElem? hget') hid
      obtain ⟨a', ha', -⟩ := hr.blank e he
      obtain ⟨b', hb', -⟩ := hr.blank f hf
      rw [ha'] at hget
      rw [hb'] at hget'
      have hindex := (List.getElem?_eq_some_iff.mp hget).1
      have hindex' := (List.getElem?_eq_some_iff.mp hget').1
      simp only [List.length_singleton, Nat.lt_one_iff] at hindex hindex'
      rw [hfield, hindex, hindex']

/-- A change that is accepted is seen in its slot and nowhere else. -/
theorem sight?_change (hu : h.Unshared s) {slot : Slot} {a : Artifact} {op : ArtifactOp}
    {state : ArtifactState} (ha : h.artifact? slot = some a) (hop : ¬ op.Replaces)
    (happly : (s.artifact a).apply op = .ok state) (other : Slot) :
    h.sight? (s.change a op).2 other =
      if other = slot then some ⟨a.type, a.staging, state⟩ else h.sight? s other := by
  have huri := ArtifactState.uri_eq_none_of_apply hop happly
  split
  · rename_i hother
    rw [hother, sight?, ha, Option.map_some, Store.sight, (Store.change_of_ok happly).2, if_pos rfl]
  · rename_i hother
    rw [sight?, sight?]
    cases hb : h.artifact? other with
    | none => rfl
    | some b =>
      have hne : b.id ≠ a.id := fun hid => hother (hu slot other a b ha hb hid.symm huri).symm
      rw [Option.map_some, Option.map_some, Store.sight, (Store.change_of_ok happly).2, if_neg hne]
      rfl

theorem Unshared.change (hu : h.Unshared s) {a : Artifact} {op : ArtifactOp}
    {state : ArtifactState} (hop : ¬ op.Replaces)
    (happly : (s.artifact a).apply op = .ok state) : h.Unshared (s.change a op).2 := by
  intro slot slot' c d hc hd hid huri
  refine hu slot slot' c d hc hd hid ?_
  rw [(Store.change_of_ok happly).2] at huri
  split at huri
  · rename_i hca
    rw [Store.artifact_of_id hca]
    exact ArtifactState.uri_eq_none_of_apply hop happly
  · exact huri

end Handed

open Handed in
/-- A program that does not look at numbers ends alike on what looks alike, and leaves it alike. -/
theorem run_alike {h₁ h₂ : Handed} {p : Work α} (hblind : p.Blind) (hp : p.WritesOnce)
    {s₁ s₂ : Store} (hsight : ∀ slot, h₁.sight? s₁ slot = h₂.sight? s₂ slot)
    (hu₁ : h₁.Unshared s₁) (hu₂ : h₂.Unshared s₂) (w₁ w₂ : W) :
    (p.run host h₁ s₁ w₁).1.1.mapError ExecutionError.anonymous =
        (p.run host h₂ s₂ w₂).1.1.mapError ExecutionError.anonymous ∧
      ∀ slot, h₁.sight? (p.run host h₁ s₁ w₁).1.2 slot =
        h₂.sight? (p.run host h₂ s₂ w₂).1.2 slot := by
  have hslots : ∀ (s₁ s₂ : Store), (∀ slot, h₁.sight? s₁ slot = h₂.sight? s₂ slot) → ∀ slot,
      (h₁.artifact? slot = none ∧ h₂.artifact? slot = none) ∨
        ∃ a₁ a₂, h₁.artifact? slot = some a₁ ∧ h₂.artifact? slot = some a₂ ∧
          s₁.sight a₁ = s₂.sight a₂ := by
    intro s₁ s₂ hsight slot
    have hslot := hsight slot
    rw [sight?, sight?] at hslot
    cases ha₁ : h₁.artifact? slot <;> cases ha₂ : h₂.artifact? slot <;>
      simp_all
  induction p generalizing s₁ s₂ w₁ w₂ with
  | done a => exact ⟨rfl, hsight⟩
  | fail e => exact ⟨rfl, hsight⟩
  | refused slot r =>
    refine ⟨?_, hsight⟩
    change Except.error (refusedError h₁ slot r).anonymous =
      Except.error (refusedError h₂ slot r).anonymous
    rw [refusedError, refusedError]
    rcases hslots s₁ s₂ hsight slot with ⟨ha₁, ha₂⟩ | ⟨a₁, a₂, ha₁, ha₂, -⟩
    · rw [ha₁, ha₂]
    · rw [ha₁, ha₂]
      simp only [ExecutionError.anonymous]
      rw [ArtifactError.anonymous_error, ArtifactError.anonymous_error r a₂.id]
  | look slot next ih =>
    rw [run_look, run_look]
    rcases hslots s₁ s₂ hsight slot with ⟨ha₁, ha₂⟩ | ⟨a₁, a₂, ha₁, ha₂, hsame⟩
    · rw [ha₁, ha₂]
      exact ih none (hblind.1 none) (hp none) hsight hu₁ hu₂ w₁ w₂
    · obtain ⟨htype, hstaging, hstate⟩ := Sight.mk.inj hsame
      rw [ha₁, ha₂, Option.map_some, Option.map_some, hstate, hblind.2 a₁ a₂ _ htype hstaging]
      exact ih _ (hblind.1 _) (hp _) hsight hu₁ hu₂ w₁ w₂
  | change slot op next ih =>
    rcases hslots s₁ s₂ hsight slot with ⟨ha₁, ha₂⟩ | ⟨a₁, a₂, ha₁, ha₂, hsame⟩
    · rw [run_change_of_none host ha₁, run_change_of_none host ha₂]
      exact ih none (hblind none) (hp.2 none) hsight hu₁ hu₂ w₁ w₂
    · obtain ⟨htype, hstaging, hstate⟩ := Sight.mk.inj hsame
      rw [run_change_of_some host ha₁, run_change_of_some host ha₂]
      cases happly : (s₁.artifact a₁).apply op with
      | error r =>
        rw [Store.change_of_error happly, Store.change_of_error (hstate ▸ happly)]
        exact ih (some r) (hblind _) (hp.2 _) hsight hu₁ hu₂ w₁ w₂
      | ok state =>
        have happly₂ : (s₂.artifact a₂).apply op = .ok state := hstate ▸ happly
        rw [(Store.change_of_ok happly).1, (Store.change_of_ok happly₂).1]
        refine ih none (hblind _) (hp.2 _) (fun other => ?_) (hu₁.change hp.1 happly)
          (hu₂.change hp.1 happly₂) w₁ w₂
        rw [sight?_change hu₁ ha₁ hp.1 happly, sight?_change hu₂ ha₂ hp.1 happly₂, htype, hstaging,
          hsight other]
  | ask request next ih =>
    rw [run_ask, run_ask, hblind.2 (host request w₂).1 (host request w₁).1]
    exact ih _ (hblind.1 _) (hp _) hsight hu₁ hu₂ _ _
  | note e next ih =>
    have hnoted : ∀ slot, h₁.sight? (s₁.note e) slot = h₂.sight? (s₂.note e) slot := hsight
    exact ih hblind hp hnoted hu₁ hu₂ w₁ w₂

end Work

/-- Where two hands of artifacts have looked alike field by field, they look alike again if they do
so slot by slot. The fields and the numbers of artifacts in them have not changed. -/
theorem Work.Handed.sights_outputs_eq {h₁ h₂ : Handed} {s₁ s₂ s₁' s₂' : Store}
    (ha : s₁.sights h₁.outputs = s₂.sights h₂.outputs)
    (hsight : ∀ slot, h₁.sight? s₁' slot = h₂.sight? s₂' slot) :
    s₁'.sights h₁.outputs = s₂'.sights h₂.outputs := by
  refine SortedMap.ext_find? fun field => ?_
  have hfield := congrArg (fun m => m.find? field) ha
  simp only [Store.find?_sights] at hfield ⊢
  cases hl₁ : h₁.outputs.find? field with
  | none =>
    rw [hl₁] at hfield
    cases hl₂ : h₂.outputs.find? field with
    | none => rfl
    | some l₂ =>
      rw [hl₂] at hfield
      cases hfield
  | some l₁ =>
    rw [hl₁] at hfield
    cases hl₂ : h₂.outputs.find? field with
    | none =>
      rw [hl₂] at hfield
      cases hfield
    | some l₂ =>
      refine congrArg some (List.ext_getElem? fun i => ?_)
      have hslot := hsight ⟨.output, field, i⟩
      rw [sight?_eq, sight?_eq, Store.find?_sights, Store.find?_sights] at hslot
      simpa [side, hl₁, hl₂] using hslot

/-- An executor whose programs do not look at numbers and replace no location is deterministic. -/
theorem Executor.deterministic_of_blind {executor : Executor}
    (hblind : ∀ offer parameters, (executor offer parameters).Blind)
    (hwrites : executor.WritesOnce) : executor.Deterministic host := by
  intro parameters h₁ h₂ s₁ s₂ w₁ w₂ hr₁ hr₂ ha
  rw [← ha.offer]
  obtain ⟨hresult, hsight⟩ := Work.run_alike host (hblind h₁.offer parameters)
    (hwrites h₁.offer parameters) ha.sight? hr₁.unshared hr₂.unshared w₁ w₂
  exact ⟨hresult, Work.Handed.sights_outputs_eq ha.outputs hsight⟩

end TypedPipeline
