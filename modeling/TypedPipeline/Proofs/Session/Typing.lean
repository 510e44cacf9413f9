import TypedPipeline.Proofs.Session
import TypedPipeline.Proofs.Spec.Validation

/-!
# Types in sessions

A contract is compared with the channels of a component once, when the component is built, and what
is put into a channel is compared with the type of the channel each time. Neither comparison is made
again. What is read later has the declared type all the same, because a channel is known by its
number, the number belongs to one channel only, and the type of a channel never changes.

## What types are compared

Contracts compare the names of types, a bind compares types as a whole. A type has nothing but its
name, so this is the same, and `Spec.carries_of_checkChannels` is where the one becomes the other.

A channel comes with its type whenever it is mentioned. So two mentions of one number might have
different types, and `Session.Typed.channel_eq` says that among the channels that a caller has been
given they do not. A caller cannot make up channels: what a step takes has to be among those.

## Implementation notes

Every step gives a store, and most steps also add to one of the lists of what was given out. There
are three lemmas for this, one for each way in which types may come into a session: by a store in
which channels hold what they held, by new channels, and by a bind. A build is the second with a
component added, and `Session.Typed.step` only has to say which of them a step is.

## Main definitions

* `Spec.Carries`, `Component.Conforms` — channels of the declared types, and components that have
  them
* `Session.Typed` — the types of all that a caller has been given
* `Session.Keeps` — what a caller has is not taken away again

## Main results

* `ComponentDraft.conforms_of_build` — components conform to their contracts
* `Session.Typed.step`, `Session.Reachable.typed` — one call, and all calls from the beginning
* `Session.Step.keeps` — a call takes nothing away
-/

namespace TypedPipeline

/-! ### Components

What is said here needs no session. A build compares once, and the result is a property of the
component alone, which stays true for as long as there is the component. -/

/-- The channels are those of the declared names, and have the declared types. -/
structure Spec.Carries (declared : List (String × ArtifactType)) (supplied : TextMap Channel) :
    Prop where
  names : NamesAgree declared supplied
  types : ∀ f ∈ declared, ∀ c, supplied.find? f.1 = some c → c.type = f.2

theorem Spec.carries_of_checkChannels {component : Option String} {part : Part}
    {declared : List (String × ArtifactType)} {supplied : TextMap Channel}
    (h : checkChannels component part declared supplied = .ok ()) : Carries declared supplied := by
  obtain ⟨hnames, htypes⟩ := (checkChannels_ok_iff component part).mp h
  exact ⟨hnames, fun f hf c hc => (ArtifactType.eq_of_name (htypes f hf c hc)).symm⟩

/-- A component has what its contract declares. This is what executors may rely on, and what remains
when nothing is known of how the component was built. -/
structure Component.Conforms (k : Component) : Prop where
  inputs : Spec.Carries k.spec.inputs k.inputs
  outputs : Spec.Carries k.spec.outputs k.outputs
  parameters : k.spec.Typed k.parameters

namespace ComponentDraft

variable {d : ComponentDraft} {s s' : Store}

/-- A component that was built conforms to its contract, and reads the channels it was given. -/
theorem conforms_of_build {k : Component} (h : d.build s = (.ok k, s')) :
    k.Conforms ∧ k.inputs = d.inputs := by
  obtain ⟨parameters, haccepted, -, rfl⟩ := accepted_of_build h
  obtain ⟨hinputs, houtputs, hnames, hcoerce⟩ := Spec.validate_ok_iff.mp haccepted.valid
  have hagree := (Spec.namesAgree_iff (some d.nameOf) .parameter).mpr hnames
  exact ⟨⟨Spec.carries_of_checkChannels hinputs, Spec.carries_of_checkChannels houtputs,
    Spec.typed_of_coerceAll hagree hcoerce⟩, rfl⟩

/-- A build leaves artifacts alone, and whatever channels hold. It may only give numbers to channels
and enter producers. -/
theorem unchanged_of_build (hs : s.FreshChannels) {result : Except ContractError Component}
    (h : d.build s = (result, s')) :
    s'.artifacts = s.artifacts ∧ ∀ c, (s'.channel c).held = (s.channel c).held := by
  cases result with
  | error e =>
    have hmore := moreChannels_of_build hs h
    exact ⟨hmore.artifacts, fun c => by rw [hmore.channel c]⟩
  | ok k =>
    obtain ⟨parameters, -, hclaimed, -⟩ := accepted_of_build h
    have hfilled : s.MoreChannels (d.filled s).2 := moreChannels_fillOutputs hs _ _
    exact ⟨hclaimed.artifacts.trans hfilled.artifacts,
      fun c => by rw [hclaimed.held c, hfilled.channel c]⟩

/-- An output channel was given, or its number is new; and no two outputs have one channel. -/
theorem outputs_of_build (hs : s.FreshChannels) {k : Component} (h : d.build s = (.ok k, s')) :
    (∀ c ∈ k.outputs.values, c ∈ d.outputs.values ∨ s.nextChannel ≤ c.id.number) ∧
      ∀ c ∈ k.outputs.values, ∀ c' ∈ k.outputs.values, c.id = c'.id → c = c' := by
  obtain ⟨parameters, haccepted, -, rfl⟩ := accepted_of_build h
  constructor
  · intro c hc
    rcases mem_fillOutputs hs hc with hc | ⟨hc, -⟩
    · exact .inl hc
    · exact .inr hc
  · intro c hc c' hc' hid
    obtain ⟨e, he, rfl⟩ := List.mem_map.mp hc
    obtain ⟨e', he', rfl⟩ := List.mem_map.mp hc'
    rw [List.inj_on_of_nodup_map haccepted.unshared he he' hid]

end ComponentDraft

namespace Session

variable {w w' w'' : Session} {s : Store}

/-! ### Types

The invariant is about what was given out, not about all that is in the store. A number that was
never given out to a caller cannot be bound to or read from. -/

/-- What is known of types in every session. All parts are about what the caller has been given, as
nothing else can be used in a call. -/
structure Typed (w : Session) : Prop where
  /-- A number belongs to one channel. -/
  channel_eq : ∀ c ∈ w.channels, ∀ d ∈ w.channels, c.id = d.id → c = d
  /-- What a channel holds has the type of the channel. -/
  held : ∀ c, ∀ a ∈ (w.store.channel c).held, ∃ d ∈ w.channels, d.id = c.id ∧ a.type = d.type
  /-- The inputs of components are channels of the session. -/
  input_mem : ∀ k ∈ w.components, ∀ c ∈ k.inputs.values, c ∈ w.channels
  /-- Components have what their contracts declare. -/
  conforms : ∀ k ∈ w.components, k.Conforms

namespace Typed

theorem start : Typed {} where
  channel_eq := by simp
  held c := by simp [Store.channel]
  input_mem := by simp
  conforms := by simp

/-- A store in which channels hold what they held. Whatever else a call has done to the store, types
do not depend on it. -/
theorem of_held (h : w.Typed) (hs : ∀ c, (s.channel c).held = (w.store.channel c).held) :
    Typed { w with store := s } where
  channel_eq := h.channel_eq
  held c := by rw [hs c]; exact h.held c
  input_mem := h.input_mem
  conforms := h.conforms

/-- Where a store has grown, channels hold what they held. -/
theorem grows (h : w.Typed) (hs : w.store.Grows s) : Typed { w with store := s } :=
  h.of_held fun c => by rw [Store.channel_congr hs.channels]

/-- More channels, if no two of the new ones have one number and each of them was there before or
has a new number. This is how new channels, and outputs of a build, come into a session. -/
theorem moreChannels (h : w.Typed) (hw : w.Sound) {l : List Channel}
    (hl : ∀ c ∈ l, c ∈ w.channels ∨ w.store.nextChannel ≤ c.id.number)
    (hdistinct : ∀ c ∈ l, ∀ d ∈ l, c.id = d.id → c = d) :
    Typed { w with channels := l ++ w.channels } where
  channel_eq c hc d hd hid := by
    -- A channel with the number of one that was there has no new number, so it was there itself.
    have hold : ∀ c ∈ l, ∀ d ∈ w.channels, c.id = d.id → c = d := by
      intro c hc d hd hid
      rcases hl c hc with hc | hnew
      · exact h.channel_eq c hc d hd hid
      · have hlt := hw.channel_lt d hd
        rw [hid] at hnew
        omega
    rcases List.mem_append.mp hc with hc | hc <;> rcases List.mem_append.mp hd with hd | hd
    · exact hdistinct c hc d hd hid
    · exact hold c hc d hd hid
    · exact (hold d hd c hc hid.symm).symm
    · exact h.channel_eq c hc d hd hid
  held c a ha := by
    obtain ⟨d, hd, htype⟩ := h.held c a ha
    exact ⟨d, List.mem_append_right _ hd, htype⟩
  input_mem k hk c hc := List.mem_append_right _ (h.input_mem k hk c hc)
  conforms := h.conforms

/-- What is bound to a channel has been compared with its type. Had one artifact been of another
type, the bind would have been refused. -/
theorem bind (h : w.Typed) {c : Channel} {l : List Artifact} (hc : c ∈ w.channels)
    (hs : w.store.bind c l = .ok s) : Typed { w with store := s } := by
  have htypes : ∀ a ∈ l, a.type = c.type := by
    rw [Store.bind] at hs
    split at hs
    · cases hs
    · rename_i hfits
      exact Channel.misfit?_eq_none_iff.mp hfits
  refine ⟨h.channel_eq, fun d a ha => ?_, h.input_mem, h.conforms⟩
  rw [Store.eq_setChannel_of_bind hs, Store.channel_setChannel] at ha
  split at ha
  · rename_i hid
    exact ⟨c, hc, hid.symm, htypes a ha⟩
  · exact h.held d a ha

/-- A component that was built has been compared with its contract. -/
theorem build (h : w.Typed) (hw : w.Sound) {d : ComponentDraft} {k : Component}
    (hread : ∀ c ∈ d.inputs.values, c ∈ w.channels)
    (hgiven : ∀ c ∈ d.outputs.values, c ∈ w.channels) (hb : d.build w.store = (.ok k, s)) :
    Typed { w with
      store := s
      channels := k.outputs.values ++ w.channels
      components := k :: w.components } := by
  obtain ⟨hconforms, hinputs⟩ := ComponentDraft.conforms_of_build hb
  obtain ⟨hnew, hdistinct⟩ := ComponentDraft.outputs_of_build hw.fresh hb
  have hl : ∀ c ∈ k.outputs.values, c ∈ w.channels ∨ w.store.nextChannel ≤ c.id.number := by
    intro c hc
    rcases hnew c hc with hc | hc
    · exact .inl (hgiven c hc)
    · exact .inr hc
  have hheld := (ComponentDraft.unchanged_of_build hw.fresh hb).2
  have hmore := (h.moreChannels hw hl hdistinct).of_held hheld
  refine ⟨hmore.channel_eq, hmore.held, fun k' hk' c hc => ?_, fun k' hk' => ?_⟩
  · rcases List.mem_cons.mp hk' with rfl | hk'
    · rw [hinputs] at hc
      exact List.mem_append_right _ (hread c hc)
    · exact hmore.input_mem k' hk' c hc
  · rcases List.mem_cons.mp hk' with rfl | hk'
    · exact hconforms
    · exact hmore.conforms k' hk'

/-- One call keeps what is known of types. Each kind of call leads to one of the cases above. -/
theorem step (h : w.Typed) (hw : w.Sound) (hs : Step w w') : w'.Typed := by
  cases hs with
  | newChannel type =>
    have hmore := h.moreChannels hw (l := [(w.store.newChannel type).1])
      (fun c hc => .inr (by rw [List.mem_singleton.mp hc]; exact Nat.le_refl _))
      (fun c hc d hd _ => by rw [List.mem_singleton.mp hc, List.mem_singleton.mp hd])
    exact hmore.of_held fun c => by rw [Store.channel_newChannel_of_fresh hw.fresh]
  | newArtifact type staging state =>
    exact { h.grows (Store.grows_newArtifact w.store type staging state) with }
  | change ha op => exact h.grows (Store.grows_change w.store _ op)
  | bind hc hl hb => exact h.bind hc hb
  | build hread hgiven hb => exact h.build hw hread hgiven hb
  | buildFails hread hgiven hb => exact h.of_held (ComponentDraft.unchanged_of_build hw.fresh hb).2
  | run host r p runId machine => exact h.grows (r.grows_run host p runId w.store machine)
  | note e => exact h.grows (Store.grows_note w.store e)
  | scope scope => exact h.of_held fun _ => rfl

/-- What a component reads from one of its inputs has the declared type. The channel is found by its
number, and the number belongs to one channel only. -/
theorem input_type (h : w.Typed) {k : Component} (hk : k ∈ w.components) {f : String × ArtifactType}
    (hf : f ∈ k.spec.inputs) {c d : Channel} (hc : k.inputs.find? f.1 = some c)
    (hd : d ∈ w.channels) (hid : d.id = c.id) : d.type = f.2 := by
  have hmem := h.input_mem k hk c (SortedMap.mem_values_iff_find?.mpr ⟨f.1, hc⟩)
  rw [h.channel_eq d hd c hmem hid]
  exact (h.conforms k hk).inputs.types f hf c hc

end Typed

/-- What is known of types holds in every session. -/
theorem Reachable.typed (h : w.Reachable) : w.Typed := by
  induction h with
  | refl => exact .start
  | tail hw hs ih => exact ih.step (Reachable.sound hw) hs

/-! ### What stays

Steps only add. What a caller was given it may go on to use, and what had a location when it was
looked at has one later, so nothing that was checked before a step has to be checked again after it.
-/

/-- What a caller has been given in the first session it still has in the second one, and no
artifact has lost its location. -/
structure Keeps (w w' : Session) : Prop where
  channels : ∀ c ∈ w.channels, c ∈ w'.channels
  artifacts : ∀ a ∈ w.artifacts, a ∈ w'.artifacts
  components : ∀ k ∈ w.components, k ∈ w'.components
  populated : ∀ a ∈ w.artifacts, (w.store.artifact a).populated → (w'.store.artifact a).populated

namespace Keeps

theorem refl (w : Session) : Keeps w w :=
  ⟨fun _ h => h, fun _ h => h, fun _ h => h, fun _ _ h => h⟩

theorem trans (h : Keeps w w') (h' : Keeps w' w'') : Keeps w w'' where
  channels c hc := h'.channels c (h.channels c hc)
  artifacts a ha := h'.artifacts a (h.artifacts a ha)
  components k hk := h'.components k (h.components k hk)
  populated a ha hp := h'.populated a (h.artifacts a ha) (h.populated a ha hp)

end Keeps

/-- Where a store has grown, the numbers of artifacts of the session were given out before. -/
theorem Sound.populated_of_grows (hw : w.Sound) (hs : w.store.Grows s) :
    ∀ a ∈ w.artifacts, (w.store.artifact a).populated → (s.artifact a).populated :=
  fun a ha hp => hs.populated a (hw.artifact_lt a ha) hp

theorem Sound.keeps_of_grows (hw : w.Sound) (hs : w.store.Grows s) :
    w.Keeps { w with store := s } :=
  { Keeps.refl w with populated := hw.populated_of_grows hs }

/-- A call takes nothing away. Runs and workbenches carry their own facts along with it, for they go
on with sessions in which others may have made calls in between. -/
theorem Step.keeps (hw : w.Sound) (h : Step w w') : w.Keeps w' := by
  have hsame : ∀ {s : Store}, s.artifacts = w.store.artifacts →
      ∀ a ∈ w.artifacts, (w.store.artifact a).populated → (s.artifact a).populated := by
    intro s hs a _ hp
    rwa [Store.artifact_congr hs]
  cases h with
  | newChannel type =>
    exact { Keeps.refl w with
      channels := fun c hc => List.mem_cons_of_mem _ hc
      populated := hsame rfl }
  | newArtifact type staging state =>
    exact { Keeps.refl w with
      artifacts := fun a ha => List.mem_cons_of_mem _ ha
      populated := hw.populated_of_grows (Store.grows_newArtifact w.store type staging state) }
  | change ha op => exact hw.keeps_of_grows (Store.grows_change w.store _ op)
  | bind hc hl hb =>
    exact { Keeps.refl w with populated := hsame (by rw [Store.eq_setChannel_of_bind hb]; rfl) }
  | build hread hgiven hb =>
    exact { Keeps.refl w with
      channels := fun c hc => List.mem_append_right _ hc
      components := fun k hk => List.mem_cons_of_mem _ hk
      populated := hsame (ComponentDraft.unchanged_of_build hw.fresh hb).1 }
  | buildFails hread hgiven hb =>
    exact { Keeps.refl w with populated := hsame (ComponentDraft.unchanged_of_build hw.fresh hb).1 }
  | run host r p runId machine =>
    exact hw.keeps_of_grows (r.grows_run host p runId w.store machine)
  | note e => exact hw.keeps_of_grows (Store.grows_note w.store e)
  | scope scope => exact { Keeps.refl w with populated := hsame rfl }

end Session

end TypedPipeline
