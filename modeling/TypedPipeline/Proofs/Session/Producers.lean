import TypedPipeline.Proofs.Pipeline.Assembly

/-!
# Who produces a channel

There is one place where a channel gets a producer: the end of a build, when all checks have passed.
So what is said of producers here rests on two things, what one build does to channels and that no
other call does anything to producers. From there it is carried along all calls.

Two components may have one name, and then their outputs cannot be told apart by what is noted as
producer. That no two components share an output is therefore said of the components themselves, of
each against all that were built before it.

## Implementation notes

`Session.Owned` is the invariant, and it is kept beside `Session.Sound`, which says that an output
of a component has it as its producer. Taken together they are an equivalence. The two directions
are separate because they have different reasons. That outputs have their producers is kept since a
producer is never replaced. That producers have their outputs is kept since only a build makes them,
and the component of the build is remembered.

`Session.Owned.apart` compares each component with those built before it, not all with all. That is
what a step can add, and for a relation that does not depend on the order it is the same.

## Main definitions

* `Component.WritesAt` — a channel is that of an output of a component
* `Component.Claims` — what a build that succeeds does to channels
* `Session.Owned` — producers and outputs are the same thing

## Main results

* `ComponentDraft.channel_of_build_error`, `ComponentDraft.claims_of_build` — one build
* `Session.Step.producers`, `Session.Owned.step` — one call
* `Session.producers_of_reachable` — all calls
-/

namespace TypedPipeline

/-! ### One build

`Component.Claims` is what a caller sees of a build that succeeds: the channels of the outputs got
their producers, and nothing else has changed. It says nothing of channels that were made on the
way, because a channel that was just made and one that never was look alike. -/

/-- The channel is that of an output of the component. Channels are told apart by their numbers, so
the type with which the channel is spoken of does not matter. -/
def Component.WritesAt (k : Component) (field : String) (c : Channel) : Prop :=
  ∃ d, k.outputs.find? field = some d ∧ d.id = c.id

/-- What a build that succeeds does to channels. -/
structure Component.Claims (k : Component) (s s' : Store) : Prop where
  /-- The channels of outputs had no producer. -/
  unclaimed : ∀ field c, k.WritesAt field c → (s.channel c).producer = none
  /-- They have the component and the output as their producer. -/
  producer : ∀ field c, k.WritesAt field c → (s'.channel c).producer = some ⟨k.name, field⟩
  /-- No channel changes in what it holds. -/
  held : ∀ c, (s'.channel c).held = (s.channel c).held
  /-- Other channels do not change. -/
  others : ∀ c, (∀ field, ¬ k.WritesAt field c) → s'.channel c = s.channel c

theorem Component.writesAt_iff {k : Component} {field : String} {c : Channel} :
    k.WritesAt field c ↔ ∃ e ∈ k.outputs.entries, e.1 = field ∧ e.2.id = c.id := by
  constructor
  · rintro ⟨d, hd, hid⟩
    exact ⟨(field, d), SortedMap.find?_eq_some_iff.mp hd, rfl, hid⟩
  · rintro ⟨e, he, rfl, hid⟩
    exact ⟨e.2, SortedMap.find?_eq_some_iff.mpr he, hid⟩

namespace ComponentDraft

variable {d : ComponentDraft} {s s' : Store}

/-- Once it has been checked that no output channel has a producer and that no two outputs share
one, all claims succeed. The other checks are not needed for this: a build with a wrong type could
not fail in a claim either. -/
theorem claimAll_of_checks {name : String} {l : List (String × Channel)}
    (hproduced : produced? s l = none) (hshared : shared? name [] l = none) :
    ∃ s', claimAll name l s = (.ok (), s') := by
  obtain ⟨s', hs', -⟩ := claimAll_apply name (produced?_eq_none_iff.mp hproduced)
    (shared?_eq_none_iff.mp hshared).1
  exact ⟨s', hs'⟩

/-- A build that fails changes no channel. It may have made some, but these look like channels that
were never made. -/
theorem channel_of_build_error (hs : s.FreshChannels) {e : ContractError}
    (h : d.build s = (.error e, s')) (c : Channel) : s'.channel c = s.channel c :=
  (moreChannels_of_build hs h).channel c

/-- A build that succeeds claims the outputs of its component, and nothing else. The name that is
entered is the one that the component gets. -/
theorem claims_of_build (hs : s.FreshChannels) {k : Component} (h : d.build s = (.ok k, s')) :
    k.name = d.nameOf ∧ k.Claims s s' := by
  obtain ⟨parameters, haccepted, hclaimed, rfl⟩ := accepted_of_build h
  have hfilled : s.MoreChannels (d.filled s).2 := moreChannels_fillOutputs hs _ _
  refine ⟨rfl, fun field c hc => ?_, fun field c hc => ?_, fun c => ?_, fun c hc => ?_⟩
  · obtain ⟨e, he, -, hid⟩ := Component.writesAt_iff.mp hc
    have hnone := haccepted.unclaimed e he
    rwa [Store.channel_of_id hid, hfilled.channel c] at hnone
  · obtain ⟨e, he, rfl, hid⟩ := Component.writesAt_iff.mp hc
    rw [← Store.channel_of_id hid]
    exact hclaimed.producer e he
  · rw [hclaimed.held c, hfilled.channel c]
  · rw [hclaimed.others c, hfilled.channel c]
    intro hm
    obtain ⟨e, he, hid⟩ := List.mem_map.mp hm
    exact hc e.1 (Component.writesAt_iff.mpr ⟨e, he, rfl, hid⟩)

end ComponentDraft

/-! ### One call

All steps but one leave producers alone, so one distinction is made for all of them, and what
follows treats two cases. -/

namespace Session

variable {w w' : Session}

/-- A call leaves producers alone, or it is a build that succeeds. -/
theorem Step.producers (hw : w.Sound) (h : Step w w') :
    (w'.components = w.components ∧
        ∀ c, (w'.store.channel c).producer = (w.store.channel c).producer) ∨
      ∃ k : Component, w'.components = k :: w.components ∧ k.Claims w.store w'.store := by
  have hgrows : ∀ {s : Store}, w.store.Grows s →
      ∀ c, (s.channel c).producer = (w.store.channel c).producer := by
    intro s hs c
    rw [Store.channel_congr hs.channels]
  cases h with
  | newChannel type =>
    exact .inl ⟨rfl, fun c => by rw [Store.channel_newChannel_of_fresh hw.fresh]⟩
  | newArtifact type staging state =>
    exact .inl ⟨rfl, hgrows (Store.grows_newArtifact w.store type staging state)⟩
  | change ha op => exact .inl ⟨rfl, hgrows (Store.grows_change w.store _ op)⟩
  | bind hc hl hb =>
    refine .inl ⟨rfl, fun c => ?_⟩
    rw [Store.eq_setChannel_of_bind hb]
    exact Store.producer_setChannel_held w.store _ _ c
  | build hread hgiven hb => exact .inr ⟨_, rfl, (ComponentDraft.claims_of_build hw.fresh hb).2⟩
  | buildFails hread hgiven hb =>
    exact .inl ⟨rfl, fun c => by rw [ComponentDraft.channel_of_build_error hw.fresh hb]⟩
  | run host r p runId machine =>
    exact .inl ⟨rfl, hgrows (r.grows_run host p runId w.store machine)⟩
  | note e => exact .inl ⟨rfl, hgrows (Store.grows_note w.store e)⟩
  | scope scope => exact .inl ⟨rfl, fun _ => rfl⟩

/-- A channel that has a producer keeps it. There is no call by which a producer is taken away or
replaced. -/
theorem Step.producer (hw : w.Sound) (h : Step w w') {c : Channel} {p : Producer}
    (hp : (w.store.channel c).producer = some p) : (w'.store.channel c).producer = some p := by
  rcases h.producers hw with ⟨-, hsame⟩ | ⟨k, -, hclaims⟩
  · rw [hsame, hp]
  · rw [hclaims.others c, hp]
    intro field hc
    rw [hclaims.unclaimed field c hc] at hp
    cases hp

/-- What components have as outputs is what channels have as producers. Together with
`Session.Sound.producer_of_writesAt` the first part is an equivalence. -/
structure Owned (w : Session) : Prop where
  /-- A producer is an output of a component that was built. -/
  owner : ∀ c p, (w.store.channel c).producer = some p →
    ∃ k ∈ w.components, k.name = p.component ∧ k.WritesAt p.output c
  /-- No channel is an output of two components. -/
  apart : w.components.Pairwise fun k k' =>
    ∀ field field' c, k.WritesAt field c → ¬ k'.WritesAt field' c

/-- An output of a component has it as its producer. It was claimed when the component was built,
and producers stay. -/
theorem Sound.producer_of_writesAt (hw : w.Sound) {k : Component} (hk : k ∈ w.components)
    {field : String} {c : Channel} (hc : k.WritesAt field c) :
    (w.store.channel c).producer = some ⟨k.name, field⟩ := by
  obtain ⟨e, he, rfl, hid⟩ := Component.writesAt_iff.mp hc
  rw [← Store.channel_of_id hid]
  exact hw.claimed k hk e he

namespace Owned

theorem start : Owned {} where
  owner c p hp := by simp [Store.channel] at hp
  apart := .nil

/-- One call keeps it. If the call is a build that succeeds, a channel of which the new component
writes had no producer, so none of the components before writes it. -/
theorem step (h : w.Owned) (hw : w.Sound) (hs : Step w w') : w'.Owned := by
  rcases hs.producers hw with ⟨hcomponents, hsame⟩ | ⟨k, hcomponents, hclaims⟩
  · refine ⟨fun c p hp => ?_, by rw [hcomponents]; exact h.apart⟩
    rw [hsame] at hp
    rw [hcomponents]
    exact h.owner c p hp
  refine ⟨fun c p hp => ?_, ?_⟩
  · rw [hcomponents]
    by_cases hc : ∃ field, k.WritesAt field c
    · obtain ⟨field, hc⟩ := hc
      cases (hclaims.producer field c hc).symm.trans hp
      exact ⟨k, List.mem_cons_self, rfl, hc⟩
    · rw [hclaims.others c fun field hfield => hc ⟨field, hfield⟩] at hp
      obtain ⟨k', hk', howner⟩ := h.owner c p hp
      exact ⟨k', List.mem_cons_of_mem _ hk', howner⟩
  · rw [hcomponents, List.pairwise_cons]
    refine ⟨fun k' hk' field field' c hc hc' => ?_, h.apart⟩
    have hnone := hclaims.unclaimed field c hc
    rw [hw.producer_of_writesAt hk' hc'] at hnone
    cases hnone

end Owned

/-! ### All calls -/

/-- Producers are outputs in every session. The induction is on the calls by which the session was
reached. -/
theorem Reachable.owned (h : w.Reachable) : w.Owned := by
  induction h with
  | refl => exact .start
  | tail hw hs ih => exact ih.step (Reachable.sound hw) hs

/-- A producer stays through any number of calls, of whatever kind they are. -/
theorem Reachable.producer_of_later (hw : w.Reachable) (h : Relation.ReflTransGen Step w w')
    {c : Channel} {p : Producer} (hp : (w.store.channel c).producer = some p) :
    (w'.store.channel c).producer = some p := by
  induction h with
  | refl => exact hp
  | tail hmid hs ih => exact hs.producer (Reachable.sound (hw.trans hmid)) ih

/-- A build that fails changes no channel, and one that succeeds gives the output channels of its
component their producers and changes nothing else; its claims never fail once the checks before
them have passed. Whatever is built and called, no channel is an output of two components or of two
fields of one, the producers of channels are the outputs of components, and a producer stays. -/
theorem producers_of_reachable (hw : w.Reachable) :
    (∀ (d : ComponentDraft) (e : ContractError) (s : Store), d.build w.store = (.error e, s) →
        ∀ c, s.channel c = w.store.channel c) ∧
      (∀ (d : ComponentDraft) (k : Component) (s : Store), d.build w.store = (.ok k, s) →
        k.name = d.nameOf ∧ k.Claims w.store s) ∧
      (∀ d : ComponentDraft,
        ComponentDraft.produced? (d.filled w.store).2 (d.filled w.store).1.entries = none →
        ComponentDraft.shared? d.nameOf [] (d.filled w.store).1.entries = none →
        ∃ s, ComponentDraft.claimAll d.nameOf (d.filled w.store).1.entries (d.filled w.store).2 =
          (.ok (), s)) ∧
      (w.components.Pairwise fun k k' =>
        ∀ field field' c, k.WritesAt field c → ¬ k'.WritesAt field' c) ∧
      (∀ k ∈ w.components, ∀ field field' c, k.WritesAt field c → k.WritesAt field' c →
        field = field') ∧
      (∀ c p, (w.store.channel c).producer = some p ↔
        ∃ k ∈ w.components, k.name = p.component ∧ k.WritesAt p.output c) ∧
      ∀ w', Relation.ReflTransGen Step w w' → ∀ c p, (w.store.channel c).producer = some p →
        (w'.store.channel c).producer = some p := by
  have hsound := hw.sound
  refine ⟨fun d e s h => ComponentDraft.channel_of_build_error hsound.fresh h,
    fun d k s h => ComponentDraft.claims_of_build hsound.fresh h,
    fun d => ComponentDraft.claimAll_of_checks, hw.owned.apart,
    fun k hk field field' c hc hc' => ?_, fun c p => ⟨hw.owned.owner c p, ?_⟩,
    fun w' h c p hp => hw.producer_of_later h hp⟩
  · have hsame := hsound.producer_of_writesAt hk hc
    rw [hsound.producer_of_writesAt hk hc'] at hsame
    cases hsame
    rfl
  · rintro ⟨k, hk, hname, hc⟩
    rw [hsound.producer_of_writesAt hk hc, hname]

end Session

/-! ### A rival for an output

The rival wants the output of a component that was built before. Its build fails with the name of
the owner, though its own channels and parameters are in order. -/

namespace Relay

/-- A component that is to write the output of another one. -/
def rival : ComponentDraft := { draft "rival" 1 1 with outputs := .ofList [("out", channel 2)] }

end Relay

namespace Session

/-- A component whose output has a producer cannot be built, one with an output of its own can, and
after both attempts the producer is the same. -/
theorem producers_of_reachable_relay :
    Relay.session.Reachable ∧
      (∃ s, Relay.rival.build Relay.session.store =
          (.error (.channelAlreadyProduced ⟨2⟩ ⟨"first", "out"⟩), s) ∧
        ∀ c, s.channel c = Relay.session.store.channel c) ∧
      (∃ k s, (Relay.draft "third" 1 2).build Relay.session.store = (.ok k, s) ∧
        k.name = "third" ∧ k.Claims Relay.session.store s) ∧
      (Relay.session.store.channel (Relay.channel 2)).producer = some ⟨"first", "out"⟩ := by
  obtain ⟨hfails, hbuilds, -, -, -, howner, -⟩ := producers_of_reachable Relay.reachable
  refine ⟨Relay.reachable, ⟨_, rfl, hfails Relay.rival _ _ rfl⟩,
    ⟨_, _, rfl, hbuilds (Relay.draft "third" 1 2) _ _ rfl⟩, (howner _ _).mpr ?_⟩
  exact ⟨Relay.component "first" 1 1 2, by simp [Relay.session], rfl, Relay.channel 2, rfl, rfl⟩

end Session

end TypedPipeline
