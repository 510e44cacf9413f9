import Mathlib.Data.List.Nodup
import TypedPipeline.Component
import TypedPipeline.Proofs.Decision

/-!
# Building a component

A build makes new channels, checks, and claims the output channels. The claims come after all
checks, and the checks are exactly what the claims need: so a build that fails claims nothing, and a
claim never fails.

## Implementation notes

A build goes through its store twice, once to make the channels that were not given and once to
claim them. For the first pass there is one lemma, `ComponentDraft.holds_fillOutputs`: whatever is
kept by a new channel is kept by the pass. That no channel changes and that the store only grows are
both read off from it, each with its own predicate.

The second pass can fail in the definition, since a claim of a channel that has a producer does.
`ComponentDraft.claimAll_apply` is the reason why it never does in a build. Its two hypotheses are
what `produced?` and `shared?` have found when they find nothing, and both are needed: if a channel
stood behind two outputs, the claim for the second one would meet the claim for the first one.

`ComponentDraft.Accepted` holds what all checks have found. Whoever needs to know something of a
component that was built takes it from there, with `ComponentDraft.accepted_of_build`, and does not
open the build again.

## Main definitions

* `Store.MoreChannels` — a store in which only more numbers of channels have been given out

## Main results

* `ComponentDraft.holds_fillOutputs`, `ComponentDraft.moreChannels_fillOutputs` — what making the
  new channels does
* `ComponentDraft.claimAll_apply` — the claims of channels without producer succeed
* `ComponentDraft.build_cases` — all that a build can do
* `ComponentDraft.moreChannels_of_build`, `ComponentDraft.accepted_of_build` — a build that fails,
  and one that succeeds
* `ComponentDraft.build_decides` — when it succeeds
-/

namespace TypedPipeline

namespace SortedMap

variable {κ α : Type} [KeyOrder κ] {m : SortedMap κ α} {a : α}

theorem mem_values : a ∈ m.values ↔ ∃ key, (key, a) ∈ m.entries := by
  simp [values]

theorem mem_values_iff_find? [DecidableEq κ] : a ∈ m.values ↔ ∃ key, m.find? key = some a := by
  simp [mem_values, find?_eq_some_iff]

/-- A value that is there after an insertion is the inserted one, or was there before. -/
theorem mem_values_insert [DecidableEq κ] {key : κ} {b : α} (h : a ∈ (m.insert key b).values) :
    a = b ∨ a ∈ m.values := by
  obtain ⟨k, hk⟩ := mem_values.mp h
  rcases mem_insertEntry hk with he | he
  · exact Or.inl (congrArg Prod.snd he)
  · exact Or.inr (mem_values.mpr ⟨k, he⟩)

end SortedMap

/-! ### New channels

Numbers of channels are given out in rising order, so a number that was never given out belongs to
no channel. This is `Store.FreshChannels`, and all of this section needs it: without it a new
channel might be put where there is one already. -/

/-- A store that differs only in that more numbers of channels have been given out. A channel that
was made and never claimed holds nothing and has no producer, so nobody can tell it from a channel
that was not made. -/
structure Store.MoreChannels (s s' : Store) : Prop where
  artifacts : s'.artifacts = s.artifacts
  nextArtifact : s'.nextArtifact = s.nextArtifact
  nextChannel : s.nextChannel ≤ s'.nextChannel
  channel : ∀ c, s'.channel c = s.channel c

namespace Store.MoreChannels

variable {s s' s'' : Store}

theorem refl (s : Store) : MoreChannels s s := ⟨rfl, rfl, Nat.le_refl _, fun _ => rfl⟩

theorem trans (h : MoreChannels s s') (h' : MoreChannels s' s'') : MoreChannels s s'' where
  artifacts := h'.artifacts.trans h.artifacts
  nextArtifact := h'.nextArtifact.trans h.nextArtifact
  nextChannel := Nat.le_trans h.nextChannel h'.nextChannel
  channel c := (h'.channel c).trans (h.channel c)

/-- Numbers that were not given out later were not given out before. -/
theorem fresh (h : MoreChannels s s') (hs : s.FreshChannels) : s'.FreshChannels := by
  intro c hc
  rw [h.channel c]
  exact hs c (Nat.le_trans h.nextChannel hc)

end Store.MoreChannels

theorem Store.moreChannels_newChannel {s : Store} (h : s.FreshChannels) (type : ArtifactType) :
    Store.MoreChannels s (s.newChannel type).2 where
  artifacts := rfl
  nextArtifact := rfl
  nextChannel := Nat.le_succ _
  channel := Store.channel_newChannel_of_fresh h type

namespace ComponentDraft

/-- All that happens to the store is that channels are made: what holds of it at first, and is kept
by every new channel, holds at the end. -/
theorem holds_fillOutputs {P : Store → Prop} (hnew : ∀ s type, P s → P (s.newChannel type).2)
    {s : Store} (hs : P s) (outputs : TextMap Channel) (declared : List (String × ArtifactType)) :
    P (fillOutputs s outputs declared).2 := by
  induction declared generalizing s outputs with
  | nil => exact hs
  | cons f rest ih =>
    obtain ⟨name, type⟩ := f
    simp only [fillOutputs]
    split
    · exact ih hs outputs
    · exact ih (hnew s type hs) _

theorem moreChannels_fillOutputs {s : Store} (h : s.FreshChannels) (outputs : TextMap Channel)
    (declared : List (String × ArtifactType)) :
    s.MoreChannels (fillOutputs s outputs declared).2 :=
  -- Freshness need not be carried along: it follows from what is carried.
  holds_fillOutputs
    (fun _ type ht => ht.trans (Store.moreChannels_newChannel (ht.fresh h) type))
    (.refl s) outputs declared

/-- Every output channel was given, or has a number that was given out for it. So a channel that was
there before is an output only if it was given as one. -/
theorem mem_fillOutputs {s : Store} (h : s.FreshChannels) {outputs : TextMap Channel}
    {declared : List (String × ArtifactType)} {c : Channel}
    (hc : c ∈ (fillOutputs s outputs declared).1.values) :
    c ∈ outputs.values ∨ s.nextChannel ≤ c.id.number ∧
      c.id.number < (fillOutputs s outputs declared).2.nextChannel := by
  induction declared generalizing s outputs with
  | nil => exact Or.inl hc
  | cons f rest ih =>
    obtain ⟨name, type⟩ := f
    simp only [fillOutputs] at hc ⊢
    split at hc
    · rename_i hgiven
      simp only [hgiven, if_true]
      exact ih h hc
    · rename_i hgiven
      simp only [hgiven, if_false, Bool.false_eq_true]
      have hnew := Store.moreChannels_newChannel h type
      rcases ih (hnew.fresh h) hc with hc | ⟨hlater, hc⟩
      · rcases SortedMap.mem_values_insert hc with rfl | hc
        · have hle := (moreChannels_fillOutputs (hnew.fresh h)
            (outputs.insert name (s.newChannel type).1) rest).nextChannel
          have hnumber : (s.newChannel type).1.id.number < (s.newChannel type).2.nextChannel :=
            Nat.lt_succ_self s.nextChannel
          exact Or.inr ⟨Nat.le_refl _, Nat.lt_of_lt_of_le hnumber hle⟩
        · exact Or.inl hc
      · exact Or.inr ⟨Nat.le_trans hnew.nextChannel hlater, hc⟩

/-- No channel is made if every output has been given one. This is how the components of recipes are
built, since their channels have been made beforehand. -/
theorem fillOutputs_of_forall {outputs : TextMap Channel} {declared : List (String × ArtifactType)}
    (h : ∀ f ∈ declared, ∃ c, outputs.find? f.1 = some c) (s : Store) :
    fillOutputs s outputs declared = (outputs, s) := by
  induction declared with
  | nil => rfl
  | cons f rest ih =>
    rw [List.forall_mem_cons] at h
    obtain ⟨⟨c, hc⟩, hrest⟩ := h
    rw [fillOutputs, SortedMap.contains, hc]
    exact ih hrest

/-! ### Checks and claims

The two checks look at a list of fields with their channels. Channels are compared by their numbers,
as everywhere, so two outputs share a channel even if it was given to them with different types. -/

/-- The first check finds nothing exactly if no channel of the list has a producer. -/
theorem produced?_eq_none_iff {s : Store} {l : List (String × Channel)} :
    produced? s l = none ↔ ∀ e ∈ l, (s.channel e.2).producer = none := by
  induction l with
  | nil => simp [produced?]
  | cons e rest ih =>
    rw [List.forall_mem_cons, ← ih, produced?]
    cases (s.channel e.2).producer <;> simp

/-- The second check finds nothing exactly if all channels of the list differ, and none of them has
been `seen` before. -/
theorem shared?_eq_none_iff {component : String} {seen : List ChannelId}
    {l : List (String × Channel)} :
    shared? component seen l = none ↔
      (l.map fun e => e.2.id).Nodup ∧ ∀ e ∈ l, e.2.id ∉ seen := by
  induction l generalizing seen with
  | nil => simp [shared?]
  | cons e rest ih =>
    rw [shared?]
    by_cases he : e.2.id ∈ seen
    · simp [he]
    · rw [if_neg (by simpa using he), ih, List.map_cons, List.nodup_cons, List.forall_mem_cons,
        List.mem_map]
      constructor
      · rintro ⟨hnodup, hall⟩
        refine ⟨⟨fun ⟨a, ha, hid⟩ => hall a ha ?_, hnodup⟩, he, fun a ha hm => hall a ha ?_⟩
        · exact hid ▸ List.mem_cons_self
        · exact List.mem_cons_of_mem _ hm
      · rintro ⟨⟨hne, hnodup⟩, -, hall⟩
        refine ⟨hnodup, fun a ha hm => ?_⟩
        rcases List.mem_cons.mp hm with hid | hm
        · exact hne ⟨a, ha, hid⟩
        · exact hall a ha hm

/-- A store in which the channels of a list have got their producers. The last two fields are the
frame: a claim changes the producer of one channel, and nothing else. -/
structure Claimed (component : String) (l : List (String × Channel)) (s s' : Store) : Prop where
  artifacts : s'.artifacts = s.artifacts
  nextArtifact : s'.nextArtifact = s.nextArtifact
  nextChannel : s'.nextChannel = s.nextChannel
  /-- Each channel of the list comes from its output. -/
  producer : ∀ e ∈ l, (s'.channel e.2).producer = some ⟨component, e.1⟩
  /-- No channel changes in what it holds. -/
  held : ∀ c, (s'.channel c).held = (s.channel c).held
  /-- Other channels do not change. -/
  others : ∀ c : Channel, c.id ∉ l.map (fun e => e.2.id) → s'.channel c = s.channel c

/-- Channels without producer, no two of them the same, can all be claimed. The induction is on the
list: a claim leaves alone the channels behind it, which are other ones, so these have no producer
when their turn comes. -/
theorem claimAll_apply (component : String) {l : List (String × Channel)} {s : Store}
    (hnone : ∀ e ∈ l, (s.channel e.2).producer = none) (hnodup : (l.map fun e => e.2.id).Nodup) :
    ∃ s', claimAll component l s = (.ok (), s') ∧ Claimed component l s s' := by
  induction l generalizing s with
  | nil => exact ⟨s, rfl, rfl, rfl, rfl, by simp, fun _ => rfl, fun _ _ => rfl⟩
  | cons e rest ih =>
    obtain ⟨output, c⟩ := e
    rw [List.forall_mem_cons] at hnone
    rw [List.map_cons, List.nodup_cons] at hnodup
    let s₁ := s.setChannel c { s.channel c with producer := some ⟨component, output⟩ }
    have hclaim : s.claim c ⟨component, output⟩ = .ok s₁ := by
      simp only [Store.claim, hnone.1]
      rfl
    have hstep : claimAll component ((output, c) :: rest) s = claimAll component rest s₁ := by
      simp only [claimAll, StoreM.bind_apply, StoreM.update, hclaim]
    have hne : ∀ e ∈ rest, e.2.id ≠ c.id := by
      intro e he h
      exact hnodup.1 (List.mem_map.mpr ⟨e, he, h⟩)
    have hnone₁ : ∀ e ∈ rest, (s₁.channel e.2).producer = none := by
      intro e he
      rw [Store.channel_setChannel, if_neg (hne e he)]
      exact hnone.2 e he
    obtain ⟨s', hs', h⟩ := ih hnone₁ hnodup.2
    refine ⟨s', hstep.trans hs', h.artifacts, h.nextArtifact, h.nextChannel, fun e he => ?_,
      fun d => ?_, fun d hd => ?_⟩
    · rcases List.mem_cons.mp he with rfl | he
      · rw [h.others c hnodup.1, Store.channel_setChannel, if_pos rfl]
      · exact h.producer e he
    · rw [h.held d, Store.channel_setChannel]
      split
      · rename_i hd
        rw [Store.channel_of_id hd]
      · rfl
    · rw [List.map_cons, List.mem_cons, not_or] at hd
      rw [h.others d hd.2, Store.channel_setChannel, if_neg hd.1]

/-! ### Whole builds

From here on the checks are taken together. A build has four kinds of failure, and all of them come
before the first claim. -/

/-- The name that a component gets. Without a name of its own it has that of its kind. -/
def nameOf (d : ComponentDraft) : String := d.name.getD d.spec.kind

/-- The outputs that a component gets, and the store once they are there. -/
def filled (d : ComponentDraft) (s : Store) : TextMap Channel × Store :=
  fillOutputs s d.outputs d.spec.outputs

/-- What the checks of a build have found when it succeeds. The last two are said of the store in
which the new channels have been made, because the checks run there. -/
structure Accepted (d : ComponentDraft) (s : Store) (parameters : Parameters) : Prop where
  named : isComponentName d.nameOf = true
  valid : d.spec.validate (some d.nameOf) d.inputs (d.filled s).1 d.parameters = .ok parameters
  unclaimed : ∀ e ∈ (d.filled s).1.entries, ((d.filled s).2.channel e.2).producer = none
  unshared : ((d.filled s).1.entries.map fun e => e.2.id).Nodup

/-- A build that is accepted by all checks succeeds. Only the claims are left then, and none of them
fails. -/
theorem build_of_accepted {d : ComponentDraft} {s : Store} {parameters : Parameters}
    (h : d.Accepted s parameters) :
    ∃ s', Claimed d.nameOf (d.filled s).1.entries (d.filled s).2 s' ∧
      d.build s = (.ok ⟨d.nameOf, d.spec, d.executor, d.inputs, (d.filled s).1, parameters⟩,
        s') := by
  have hn : d.name.getD d.spec.kind = d.nameOf := rfl
  have hf : fillOutputs s d.outputs d.spec.outputs = d.filled s := rfl
  have hproduced := produced?_eq_none_iff.mpr h.unclaimed
  have hshared : shared? d.nameOf [] (d.filled s).1.entries = none :=
    shared?_eq_none_iff.mpr ⟨h.unshared, fun _ _ => List.not_mem_nil⟩
  obtain ⟨s', hs', hclaimed⟩ := claimAll_apply d.nameOf h.unclaimed h.unshared
  refine ⟨s', hclaimed, ?_⟩
  unfold build
  simp only [hn, h.named, Bool.not_true, Bool.false_eq_true, if_false, StoreM.bind_apply,
    StoreM.run'_apply, StoreM.ask_apply, StoreM.get_apply, hf, h.valid, hproduced, hshared, hs',
    StoreM.pure_apply]

/-- A build fails before it has claimed anything, or is accepted by all checks and succeeds. A
failure leaves the store as it was if the name was refused, and with the new channels in it if one
of the other checks failed. -/
theorem build_cases (d : ComponentDraft) (s : Store) :
    (∃ e, d.build s = (.error e, s) ∨ d.build s = (.error e, (d.filled s).2)) ∨
      ∃ parameters s', d.Accepted s parameters ∧
        Claimed d.nameOf (d.filled s).1.entries (d.filled s).2 s' ∧
        d.build s = (.ok ⟨d.nameOf, d.spec, d.executor, d.inputs, (d.filled s).1, parameters⟩,
          s') := by
  by_cases haccepted : ∃ parameters, d.Accepted s parameters
  · obtain ⟨parameters, h⟩ := haccepted
    obtain ⟨s', hclaimed, hs'⟩ := build_of_accepted h
    exact Or.inr ⟨parameters, s', h, hclaimed, hs'⟩
  left
  have hn : d.name.getD d.spec.kind = d.nameOf := rfl
  have hf : fillOutputs s d.outputs d.spec.outputs = d.filled s := rfl
  unfold build
  simp only [Bool.not_eq_true', hn]
  split
  · exact ⟨.invalidComponentName d.nameOf, Or.inl rfl⟩
  rename_i hname
  simp only [StoreM.bind_apply, StoreM.run'_apply, StoreM.ask_apply, StoreM.get_apply, hf]
  cases hvalid : d.spec.validate (some d.nameOf) d.inputs (d.filled s).1 d.parameters with
  | error e => exact ⟨e, Or.inr rfl⟩
  | ok parameters =>
    dsimp only
    cases hproduced : produced? (d.filled s).2 (d.filled s).1.entries with
    | some e => exact ⟨e, Or.inr rfl⟩
    | none =>
      dsimp only
      cases hshared : shared? d.nameOf [] (d.filled s).1.entries with
      | some e => exact ⟨e, Or.inr rfl⟩
      | none =>
        exact absurd ⟨parameters, by simpa using hname, hvalid,
          produced?_eq_none_iff.mp hproduced, (shared?_eq_none_iff.mp hshared).1⟩ haccepted

/-- A build that fails has at most made channels. Nobody has become a producer, so the outputs can
still be claimed by another build. -/
theorem moreChannels_of_build {d : ComponentDraft} {s s' : Store} (hs : s.FreshChannels)
    {e : ContractError} (h : d.build s = (.error e, s')) : s.MoreChannels s' := by
  rcases d.build_cases s with ⟨e', he | he⟩ | ⟨parameters, s'', -, -, hk⟩
  · cases h.symm.trans he
    exact .refl s
  · cases h.symm.trans he
    exact moreChannels_fillOutputs hs _ _
  · cases h.symm.trans hk

/-- A build that succeeds was accepted by all checks and has claimed the outputs. -/
theorem accepted_of_build {d : ComponentDraft} {s s' : Store} {k : Component}
    (h : d.build s = (.ok k, s')) :
    ∃ parameters, d.Accepted s parameters ∧
      Claimed d.nameOf (d.filled s).1.entries (d.filled s).2 s' ∧
      k = ⟨d.nameOf, d.spec, d.executor, d.inputs, (d.filled s).1, parameters⟩ := by
  rcases d.build_cases s with ⟨e, he | he⟩ | ⟨parameters, s'', haccepted, hclaimed, hk⟩
  · cases h.symm.trans he
  · cases h.symm.trans he
  · cases h.symm.trans hk
    exact ⟨parameters, haccepted, hclaimed, rfl⟩

/-- A build succeeds exactly if all checks accept it. This is the form that the builds of whole
recipes use: what was accepted is known from the conditions, and the store behind it from the
claims. -/
theorem build_decides (d : ComponentDraft) (s : Store) :
    StoreM.Decides d.build s (∃ parameters, d.Accepted s parameters) fun k s' =>
      Claimed d.nameOf (d.filled s).1.entries (d.filled s).2 s' ∧
        k.name = d.nameOf ∧ k.spec = d.spec ∧ k.inputs = d.inputs ∧
          k.outputs = (d.filled s).1 where
  succeeds := by
    rintro ⟨parameters, h⟩
    obtain ⟨s', -, hs'⟩ := build_of_accepted h
    exact ⟨_, s', hs'⟩
  sound k s' hk := by
    obtain ⟨parameters, h, hclaimed, rfl⟩ := accepted_of_build hk
    exact ⟨⟨parameters, h⟩, hclaimed, rfl, rfl, rfl, rfl⟩

end ComponentDraft

end TypedPipeline
