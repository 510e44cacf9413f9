import Mathlib.Logic.Relation
import TypedPipeline.Proofs.Component.Build
import TypedPipeline.Proofs.Run.Step

/-!
# Sessions

Whoever uses the library makes channels and artifacts, binds and changes them, builds components and
runs pipelines. A session is what such a caller has been given so far. Callers can name only what
they have been given, so what holds in every session that calls can lead to holds of every list of
components that can be handed to a pipeline.

Preparing and invoking one component are no calls of their own here: what they do to a store is to
add artifacts, to change artifacts and to leave notes, and these are calls.

## Why sessions

Many properties of components hold because of the way in which components come about: a channel is
the output of one component, because a build refuses a channel with a producer. Such properties are
not hypotheses that a caller has to check. They are invariants of every state that calls can lead
to, and theorems about pipelines take components from a reachable session.

## Implementation notes

A session remembers everything that was handed out. Nothing is ever taken from it, so membership is
kept by every call. A call that fails is a call as well; a build that fails may have made channels,
which nobody is given.

The invariant ties lists to numbers: what is in the session has a number that was given out, and of
numbers that were not given out nothing is known. From this it follows that something new is
different from everything that was there.

## Main definitions

* `Session`, `Session.Step`, `Session.Reachable` — what a caller has, and what calls do to it
* `Session.Sound` — what holds in every session

## Main results

* `Session.Sound.step`, `Session.Reachable.sound` — one call, and all calls from the beginning
* `Session.Sound.output_unique` — a channel is the output of one component only
-/

namespace TypedPipeline

/-- A store with the channels, artifacts and components that a caller has been given. Callers may
have forgotten some of it, which makes no difference. -/
structure Session where
  store : Store := {}
  channels : List Channel := []
  artifacts : List Artifact := []
  components : List Component := []

namespace Session

/-- One call. The conditions say what the caller has to be given before; what the call itself
refuses is part of the call. -/
inductive Step : Session → Session → Prop where
  | newChannel (w : Session) (type : ArtifactType) :
      Step w { w with
        store := (w.store.newChannel type).2
        channels := (w.store.newChannel type).1 :: w.channels }
  | newArtifact (w : Session) (type : ArtifactType) (staging : Option String)
      (state : ArtifactState) :
      Step w { w with
        store := (w.store.newArtifact type staging state).2
        artifacts := (w.store.newArtifact type staging state).1 :: w.artifacts }
  | change (w : Session) {a : Artifact} (ha : a ∈ w.artifacts) (op : ArtifactOp) :
      Step w { w with store := (w.store.change a op).2 }
  | bind (w : Session) {c : Channel} {l : List Artifact} {s : Store} (hc : c ∈ w.channels)
      (hl : ∀ a ∈ l, a ∈ w.artifacts) (h : w.store.bind c l = .ok s) :
      Step w { w with store := s }
  | build (w : Session) {d : ComponentDraft} {k : Component} {s : Store}
      (hread : ∀ c ∈ d.inputs.values, c ∈ w.channels)
      (hgiven : ∀ c ∈ d.outputs.values, c ∈ w.channels) (h : d.build w.store = (.ok k, s)) :
      Step w { w with
        store := s
        channels := k.outputs.values ++ w.channels
        components := k :: w.components }
  | buildFails (w : Session) {d : ComponentDraft} {e : ContractError} {s : Store}
      (hread : ∀ c ∈ d.inputs.values, c ∈ w.channels)
      (hgiven : ∀ c ∈ d.outputs.values, c ∈ w.channels) (h : d.build w.store = (.error e, s)) :
      Step w { w with store := s }
  | run (w : Session) {W : Type} (host : Host (StateM W)) (r : Runner) (p : Pipeline)
      (runId : String) (machine : W) :
      Step w { w with store := (r.run host p runId w.store machine).1.2 }
  | note (w : Session) (e : Event) : Step w { w with store := w.store.note e }
  | scope (w : Session) (scope : Option RunScope) :
      Step w { w with store := { w.store with scope } }

/-- Calls lead from the beginning to this session. At the beginning there is nothing. -/
def Reachable (w : Session) : Prop := Relation.ReflTransGen Step {} w

/-- What holds in every session. -/
structure Sound (w : Session) : Prop where
  /-- Channels have numbers that were given out. -/
  channel_lt : ∀ c ∈ w.channels, c.id.number < w.store.nextChannel
  /-- Artifacts have numbers that were given out. -/
  artifact_lt : ∀ a ∈ w.artifacts, a.id.number < w.store.nextArtifact
  /-- Of other channels nothing is known. -/
  fresh : w.store.FreshChannels
  /-- Channels hold artifacts of the session. -/
  held : ∀ c : Channel, ∀ a ∈ (w.store.channel c).held, a ∈ w.artifacts
  /-- The outputs of components are channels of the session. -/
  output_mem : ∀ k ∈ w.components, ∀ c ∈ k.outputs.values, c ∈ w.channels
  /-- The outputs of a component have it as their producer. -/
  claimed : ∀ k ∈ w.components, ∀ e ∈ k.outputs.entries,
    (w.store.channel e.2).producer = some ⟨k.name, e.1⟩

namespace Sound

variable {w : Session} {s : Store}

theorem start : Sound {} where
  channel_lt := by simp
  artifact_lt := by simp
  fresh _ _ := rfl
  held _ := by simp [Store.channel]
  output_mem := by simp
  claimed := by simp

/-- More channels, of which nothing is known. -/
theorem moreChannels (h : w.Sound) (hs : w.store.MoreChannels s) :
    Sound { w with store := s } where
  channel_lt c hc := Nat.lt_of_lt_of_le (h.channel_lt c hc) hs.nextChannel
  artifact_lt a ha := by rw [hs.nextArtifact]; exact h.artifact_lt a ha
  fresh := hs.fresh h.fresh
  held c := by rw [hs.channel c]; exact h.held c
  output_mem := h.output_mem
  claimed k hk e he := by rw [hs.channel e.2]; exact h.claimed k hk e he

/-- More artifacts, and changes of artifacts. -/
theorem grows (h : w.Sound) (hs : w.store.Grows s) : Sound { w with store := s } where
  channel_lt c hc := by rw [hs.nextChannel]; exact h.channel_lt c hc
  artifact_lt a ha := Nat.lt_of_lt_of_le (h.artifact_lt a ha) hs.nextArtifact
  fresh c hc := by
    rw [hs.nextChannel] at hc
    rw [Store.channel_congr hs.channels]
    exact h.fresh c hc
  held c := by rw [Store.channel_congr hs.channels]; exact h.held c
  output_mem := h.output_mem
  claimed k hk e he := by rw [Store.channel_congr hs.channels]; exact h.claimed k hk e he

theorem newChannel (h : w.Sound) (type : ArtifactType) :
    Sound { w with
      store := (w.store.newChannel type).2
      channels := (w.store.newChannel type).1 :: w.channels } := by
  have hmore := h.moreChannels (Store.moreChannels_newChannel h.fresh type)
  refine { hmore with channel_lt := fun c hc => ?_, output_mem := fun k hk c hc => ?_ }
  · rcases List.mem_cons.mp hc with rfl | hc
    · exact Nat.lt_succ_self _
    · exact hmore.channel_lt c hc
  · exact List.mem_cons_of_mem _ (h.output_mem k hk c hc)

/-- Artifacts whose numbers were given out. -/
theorem moreArtifacts (h : w.Sound) {l : List Artifact}
    (hl : ∀ a ∈ l, a.id.number < w.store.nextArtifact) :
    Sound { w with artifacts := l ++ w.artifacts } := by
  refine { h with artifact_lt := fun a ha => ?_, held := fun c a ha => ?_ }
  · rcases List.mem_append.mp ha with ha | ha
    · exact hl a ha
    · exact h.artifact_lt a ha
  · exact List.mem_append_right _ (h.held c a ha)

theorem newArtifact (h : w.Sound) (type : ArtifactType) (staging : Option String)
    (state : ArtifactState) :
    Sound { w with
      store := (w.store.newArtifact type staging state).2
      artifacts := (w.store.newArtifact type staging state).1 :: w.artifacts } := by
  have hgrows := h.grows (Store.grows_newArtifact w.store type staging state)
  refine hgrows.moreArtifacts (l := [(w.store.newArtifact type staging state).1]) fun a ha => ?_
  rw [List.mem_singleton.mp ha]
  exact Nat.lt_succ_self _

/-- A bind changes what one channel holds, and nothing else. -/
theorem bind (h : w.Sound) {c : Channel} {l : List Artifact} (hc : c ∈ w.channels)
    (hl : ∀ a ∈ l, a ∈ w.artifacts) (hs : w.store.bind c l = .ok s) :
    Sound { w with store := s } := by
  rw [Store.eq_setChannel_of_bind hs]
  refine ⟨h.channel_lt, h.artifact_lt, fun d hd => ?_, fun d a ha => ?_, h.output_mem,
    fun k hk e he => ?_⟩
  · rw [Store.channel_setChannel, if_neg (Store.id_ne_of_fresh (h.channel_lt c hc) hd)]
    exact h.fresh d hd
  · rw [Store.channel_setChannel] at ha
    split at ha
    · exact hl a ha
    · exact h.held d a ha
  · rw [Store.producer_setChannel_held]
    exact h.claimed k hk e he

/-- A build that fails has at most made channels. So a session goes on as if nothing had been
built. -/
theorem buildFails (h : w.Sound) {d : ComponentDraft} {e : ContractError}
    (hb : d.build w.store = (.error e, s)) : Sound { w with store := s } :=
  h.moreChannels (ComponentDraft.moreChannels_of_build h.fresh hb)

/-- A component that was built has claimed its outputs, and none of them had a producer before: so
the outputs of the components before it are left alone. -/
theorem build (h : w.Sound) {d : ComponentDraft} {k : Component}
    (hgiven : ∀ c ∈ d.outputs.values, c ∈ w.channels) (hb : d.build w.store = (.ok k, s)) :
    Sound { w with
      store := s
      channels := k.outputs.values ++ w.channels
      components := k :: w.components } := by
  obtain ⟨parameters, haccepted, hclaimed, rfl⟩ := ComponentDraft.accepted_of_build hb
  have hfilled : Sound { w with store := (d.filled w.store).2 } :=
    h.moreChannels (ComponentDraft.moreChannels_fillOutputs h.fresh _ _)
  have hlt : ∀ c ∈ (d.filled w.store).1.values,
      c.id.number < (d.filled w.store).2.nextChannel := by
    intro c hc
    rcases ComponentDraft.mem_fillOutputs h.fresh hc with hc | ⟨-, hc⟩
    · exact hfilled.channel_lt c (hgiven c hc)
    · exact hc
  refine ⟨fun c hc => ?_, fun a ha => ?_, fun c hc => ?_, fun c a ha => ?_, fun k' hk' c hc => ?_,
    fun k' hk' e he => ?_⟩
  · rw [hclaimed.nextChannel]
    rcases List.mem_append.mp hc with hc | hc
    · exact hlt c hc
    · exact hfilled.channel_lt c hc
  · rw [hclaimed.nextArtifact]
    exact hfilled.artifact_lt a ha
  · rw [hclaimed.nextChannel] at hc
    have hout : c.id ∉ (d.filled w.store).1.entries.map fun e => e.2.id := by
      intro hm
      obtain ⟨e, he, hid⟩ := List.mem_map.mp hm
      exact Store.id_ne_of_fresh (hlt e.2 (List.mem_map.mpr ⟨e, he, rfl⟩)) hc hid.symm
    rw [hclaimed.others c hout]
    exact hfilled.fresh c hc
  · rw [hclaimed.held c] at ha
    exact hfilled.held c a ha
  · rcases List.mem_cons.mp hk' with rfl | hk'
    · exact List.mem_append_left _ hc
    · exact List.mem_append_right _ (h.output_mem k' hk' c hc)
  · rcases List.mem_cons.mp hk' with rfl | hk'
    · exact hclaimed.producer e he
    · have hold := hfilled.claimed k' hk' e he
      have hout : e.2.id ∉ (d.filled w.store).1.entries.map fun e => e.2.id := by
        intro hm
        obtain ⟨f, hf, hid⟩ := List.mem_map.mp hm
        rw [← Store.channel_of_id hid, haccepted.unclaimed f hf] at hold
        cases hold
      rw [hclaimed.others e.2 hout]
      exact hold

/-- One call keeps what holds in every session. -/
theorem step {w' : Session} (h : w.Sound) (hs : Step w w') : w'.Sound := by
  cases hs with
  | newChannel type => exact h.newChannel type
  | newArtifact type staging state => exact h.newArtifact type staging state
  | change ha op => exact h.grows (Store.grows_change w.store _ op)
  | bind hc hl hb => exact h.bind hc hl hb
  | build hread hgiven hb => exact h.build hgiven hb
  | buildFails hread hgiven hb => exact h.buildFails hb
  | run host r p runId machine => exact h.grows (r.grows_run host p runId w.store machine)
  | note e => exact h.grows (Store.grows_note w.store e)
  | scope scope => exact h.grows (Store.grows_of_eq rfl rfl rfl rfl)

/-- A channel is the output of one component only, and of one field of it only. Producers are
claimed and never taken away, so both components would be the producer. -/
theorem output_unique (h : w.Sound) {k k' : Component} (hk : k ∈ w.components)
    (hk' : k' ∈ w.components) {e e' : String × Channel} (he : e ∈ k.outputs.entries)
    (he' : e' ∈ k'.outputs.entries) (hid : e.2.id = e'.2.id) :
    k.name = k'.name ∧ e.1 = e'.1 := by
  have hsame := h.claimed k hk e he
  rw [Store.channel_of_id hid, h.claimed k' hk' e' he'] at hsame
  injection hsame with hsame
  injection hsame with hname hfield
  exact ⟨hname.symm, hfield.symm⟩

theorem unshared (h : w.Sound) {k : Component} (hk : k ∈ w.components) :
    (k.outputs.entries.map fun e => e.2.id).Nodup := by
  refine List.pairwise_map.mpr (k.outputs.sorted.imp_of_mem fun he hf hlt hid => ?_)
  rw [(h.output_unique hk hk he hf hid).2] at hlt
  exact KeyOrder.irrefl _ hlt

end Sound

/-- What holds in every session holds in this one. -/
theorem Reachable.sound {w : Session} (h : w.Reachable) : w.Sound := by
  induction h with
  | refl => exact .start
  | tail _ hs ih => exact ih.step hs

end Session

end TypedPipeline
