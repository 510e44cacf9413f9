import TypedPipeline.Store

/-!
# What the operations of the store do to it

One lemma for each operation and each thing that can be asked of a store. Proofs about longer
programs go through these and never look into the maps of the store.

## Two ways to speak of a store

A store is described by what it answers: `artifact`, `channel`, and the two next numbers. Maps with
the same answers make no difference to anything, so lemmas are equations between answers, and a
proof about a long program is a chain of them.

Where a program is not known, as an executor is not, there is no equation. `Store.Grows` is what
remains: channels stay, numbers are only given out, and locations do not disappear. It is reflexive
and transitive and holds of every single step, so it holds of every program by induction.

## Implementation notes

The monad of steps is opened here once. With `bind_apply` and the four simp lemmas beside it, a step
is a function of the store, and no proof unfolds a transformer.

## Main definitions

* `Store.FreshChannels` — numbers of channels that were not given out have no state
* `Store.Grows` — a store to which artifacts were added and whose artifacts were changed

## Main results

* `StoreM.bind_apply` — steps one after the other
* `Store.change_of_ok`, `Store.change_of_error` — what a change that is accepted or refused leaves
* `Store.grows_newArtifact`, `Store.grows_change`, `Store.grows_note`
-/

namespace TypedPipeline

/-! ### Steps -/

namespace StoreM

variable {ε α β : Type}

@[simp] theorem pure_apply (a : α) (s : Store) : (pure a : StoreM ε α) s = (.ok a, s) := rfl

@[simp] theorem get_apply (s : Store) : (get : StoreM ε Store) s = (.ok s, s) := rfl

@[simp] theorem ask_apply (f : Store → Except ε α) (s : Store) : ask f s = (f s, s) := rfl

@[simp] theorem run'_apply (f : Store → α × Store) (s : Store) :
    (run' f : StoreM ε α) s = (.ok (f s).1, (f s).2) := rfl

/-- A failure of the first step is the failure of both. -/
theorem bind_apply (x : StoreM ε α) (f : α → StoreM ε β) (s : Store) :
    (x >>= f) s =
      match x s with
      | (.ok a, s') => f a s'
      | (.error e, s') => (.error e, s') := by
  simp only [bind, ExceptT.bind, ExceptT.mk, StateT.bind, ExceptT.bindCont]
  rcases x s with ⟨_ | _, _⟩ <;> rfl

end StoreM

/-! ### Lists of splits -/

/-- A list that is accepted is written as one text. -/
theorem ArtifactState.eq_of_apply_setSplitNames {names : List String}
    {state state' : ArtifactState} (h : state.apply (.setSplitNames names) = .ok state') :
    ∃ text, SplitNames.encode? names = some text ∧ state' = { state with
      properties := state.properties.insert SplitNames.property (.string text) } := by
  obtain ⟨hnone, hvalid⟩ := (apply_isOk_iff (.setSplitNames names) state).mp ⟨state', h⟩
  have hencode : SplitNames.encode? names =
      some (String.ofList (Text.joinWith ',' (names.map String.toList))) := by
    rw [SplitNames.encode?, hvalid]
    rfl
  refine ⟨_, hencode, ?_⟩
  simp only [apply, setSplitNames, hvalid, hencode, Option.getD_some, setProperty, populated, hnone,
    Option.isSome_none, Bool.false_eq_true, if_false, Except.ok.injEq] at h
  rw [hnone, h]

namespace Store

/-! ### Channels

Nothing is known of a channel before it is made. So making a channel does not change what any
channel answers, although it writes to the map. -/

/-- Of a channel whose number has not been given out, nothing is known. -/
def FreshChannels (s : Store) : Prop :=
  ∀ c : Channel, s.nextChannel ≤ c.id.number → s.channel c = {}

theorem channel_newChannel (s : Store) (type : ArtifactType) (c : Channel) :
    (s.newChannel type).2.channel c = if c.id = ⟨s.nextChannel⟩ then {} else s.channel c :=
  channel_setChannel _ _ c _

/-- A channel whose number has been given out is not one whose number has not been. -/
theorem id_ne_of_fresh {c d : Channel} {next : Nat} (hc : c.id.number < next)
    (hd : next ≤ d.id.number) : d.id ≠ c.id := by
  intro h
  rw [h] at hd
  omega

/-- A new channel is one of which nothing was known, so no channel changes. -/
theorem channel_newChannel_of_fresh {s : Store} (h : s.FreshChannels) (type : ArtifactType)
    (c : Channel) : (s.newChannel type).2.channel c = s.channel c := by
  rw [channel_newChannel]
  split
  · rename_i hc
    exact (h c (Nat.le_of_eq (congrArg ChannelId.number hc).symm)).symm
  · rfl

/-! ### Artifacts -/

theorem artifact_newArtifact (s : Store) (type : ArtifactType) (staging : Option String)
    (state : ArtifactState) (a : Artifact) :
    (s.newArtifact type staging state).2.artifact a =
      if a.id = ⟨s.nextArtifact⟩ then state else s.artifact a :=
  artifact_setArtifact _ _ a _

theorem artifact_congr {s s' : Store} (h : s'.artifacts = s.artifacts) (a : Artifact) :
    s'.artifact a = s.artifact a := by
  rw [artifact, artifact, h]

theorem channel_congr {s s' : Store} (h : s'.channels = s.channels) (c : Channel) :
    s'.channel c = s.channel c := by
  rw [channel, channel, h]

theorem channel_of_id {s : Store} {c d : Channel} (h : c.id = d.id) :
    s.channel c = s.channel d := by
  rw [channel, channel, h]

/-- A bind changes what one channel holds. Its producer stays, and so does all else in the store. -/
theorem eq_setChannel_of_bind {s s' : Store} {c : Channel} {l : List Artifact}
    (h : s.bind c l = .ok s') : s' = s.setChannel c { s.channel c with held := l } := by
  unfold bind at h
  split at h
  · cases h
  · cases h
    rfl

/-- Where what a channel holds is changed, producers stay. -/
theorem producer_setChannel_held (s : Store) (c : Channel) (l : List Artifact) (d : Channel) :
    ((s.setChannel c { s.channel c with held := l }).channel d).producer =
      (s.channel d).producer := by
  rw [channel_setChannel]
  split
  · rename_i hd
    rw [channel_of_id hd]
  · rfl

/-! ### Changes of artifacts

A change has two outcomes. It is accepted and one artifact has a new state, or it is refused and the
store is the same. -/

theorem artifacts_noteAll (s : Store) (es : List Event) :
    (s.noteAll es).artifacts = s.artifacts := by
  induction es generalizing s with
  | nil => rfl
  | cons e es ih => exact ih (s.note e)

/-- An accepted change is a change of one artifact. -/
theorem change_of_ok {s : Store} {a : Artifact} {op : ArtifactOp} {state : ArtifactState}
    (h : (s.artifact a).apply op = .ok state) :
    (s.change a op).1 = none ∧
      ∀ b, (s.change a op).2.artifact b = if b.id = a.id then state else s.artifact b := by
  have hchange : s.change a op =
      (none, (s.setArtifact a state).noteAll (changeEvents a (s.artifact a) op)) := by
    simp only [change, h]
  refine ⟨congrArg Prod.fst hchange, fun b => ?_⟩
  rw [hchange, artifact_congr (artifacts_noteAll _ _), artifact_setArtifact]

/-- A refused change is none. -/
theorem change_of_error {s : Store} {a : Artifact} {op : ArtifactOp} {r : Refusal}
    (h : (s.artifact a).apply op = .error r) : s.change a op = (some r, s) := by
  simp only [change, h]

/-- Nothing is reported exactly if the change is accepted. Then the artifact has the new state, and
otherwise the old one. -/
theorem change_eq_none_iff {s : Store} {a : Artifact} {op : ArtifactOp} :
    (s.change a op).1 = none ↔ ∃ state, (s.artifact a).apply op = .ok state := by
  cases h : (s.artifact a).apply op with
  | ok state => simp [(change_of_ok h).1]
  | error r => simp [change_of_error h]

/-- A change of which nothing is reported is applied to the artifact. -/
theorem apply_of_change {s : Store} {a : Artifact} {op : ArtifactOp}
    (h : (s.change a op).1 = none) :
    (s.artifact a).apply op = .ok ((s.change a op).2.artifact a) := by
  obtain ⟨state, happly⟩ := change_eq_none_iff.mp h
  rw [(change_of_ok happly).2, if_pos rfl, happly]

theorem change_setUri {s : Store} {a : Artifact} (h : (s.artifact a).uri = none) (uri : String) :
    (s.change a (.setUri uri)).1 = none :=
  change_eq_none_iff.mpr ((ArtifactState.apply_isOk_iff _ _).mpr h)

/-- Before there is a location, split names can be written exactly if all are valid. -/
theorem change_setSplitNames_iff {s : Store} {a : Artifact} (h : (s.artifact a).uri = none)
    (names : List String) :
    (s.change a (.setSplitNames names)).1 = none ↔
      ∀ name ∈ names, SplitNames.isName name = true := by
  rw [change_eq_none_iff, ArtifactState.apply_isOk_iff]
  simp [h, SplitNames.invalid?]

/-- Split names are no location. -/
theorem uri_change_setSplitNames {s : Store} {a : Artifact} (h : (s.artifact a).uri = none)
    (names : List String) : ((s.change a (.setSplitNames names)).2.artifact a).uri = none := by
  cases hnames : (s.artifact a).apply (.setSplitNames names) with
  | error r => rw [change_of_error hnames, h]
  | ok state =>
    obtain ⟨text, -, hstate⟩ := ArtifactState.eq_of_apply_setSplitNames hnames
    rw [(change_of_ok hnames).2, if_pos rfl, hstate]
    exact h

/-! ### Stores that only grow -/

/-- What a program that is not handed any channel does to a store: no channel changes, new artifacts
may be added, and no artifact loses its location. States of artifacts may change in other ways. -/
structure Grows (s s' : Store) : Prop where
  /-- No channel changes. -/
  channels : s'.channels = s.channels
  /-- No channel is added. -/
  nextChannel : s'.nextChannel = s.nextChannel
  /-- Artifacts may be added. -/
  nextArtifact : s.nextArtifact ≤ s'.nextArtifact
  /-- A location that is there stays there. -/
  populated : ∀ a : Artifact, a.id.number < s.nextArtifact → (s.artifact a).populated →
    (s'.artifact a).populated

namespace Grows

variable {s s' s'' : Store}

theorem refl (s : Store) : Grows s s := ⟨rfl, rfl, Nat.le_refl _, fun _ _ h => h⟩

theorem trans (h : Grows s s') (h' : Grows s' s'') : Grows s s'' where
  channels := h'.channels.trans h.channels
  nextChannel := h'.nextChannel.trans h.nextChannel
  nextArtifact := Nat.le_trans h.nextArtifact h'.nextArtifact
  populated a ha hp := h'.populated a (Nat.lt_of_lt_of_le ha h.nextArtifact) (h.populated a ha hp)

end Grows

/-- A store with other notes, or with another run going on. -/
theorem grows_of_eq {s s' : Store} (ha : s'.artifacts = s.artifacts) (hc : s'.channels = s.channels)
    (hna : s'.nextArtifact = s.nextArtifact) (hnc : s'.nextChannel = s.nextChannel) :
    Grows s s' where
  channels := hc
  nextChannel := hnc
  nextArtifact := Nat.le_of_eq hna.symm
  populated a _ hp := by rwa [artifact_congr ha]

theorem grows_note (s : Store) (e : Event) : Grows s (s.note e) := grows_of_eq rfl rfl rfl rfl

theorem grows_noteAll (s : Store) (es : List Event) : Grows s (s.noteAll es) := by
  induction es generalizing s with
  | nil => exact .refl s
  | cons e es ih => exact (grows_note s e).trans (ih (s.note e))

theorem grows_newArtifact (s : Store) (type : ArtifactType) (staging : Option String)
    (state : ArtifactState) : Grows s (s.newArtifact type staging state).2 where
  channels := rfl
  nextChannel := rfl
  nextArtifact := Nat.le_succ _
  populated a ha hp := by
    have hne : a.id ≠ ⟨s.nextArtifact⟩ := by
      intro e
      rw [e] at ha
      exact Nat.lt_irrefl _ ha
    rwa [artifact_newArtifact, if_neg hne]

/-- A change that is accepted never takes a location away. It may replace one, so only that there is
a location is kept. -/
theorem grows_setArtifact {s : Store} {a : Artifact} {state : ArtifactState} {op : ArtifactOp}
    (h : (s.artifact a).apply op = .ok state) : Grows s (s.setArtifact a state) where
  channels := rfl
  nextChannel := rfl
  nextArtifact := Nat.le_refl _
  populated b _ hp := by
    rw [artifact_setArtifact]
    split
    · rename_i hb
      have hab : s.artifact b = s.artifact a := by
        rw [artifact, artifact, hb]
      rw [hab] at hp
      exact (ArtifactState.properties_of_apply hp h).2
    · exact hp

theorem grows_change (s : Store) (a : Artifact) (op : ArtifactOp) : Grows s (s.change a op).2 := by
  cases h : (s.artifact a).apply op with
  | ok state =>
    simp only [change, h]
    exact (grows_setArtifact h).trans (grows_noteAll _ _)
  | error r =>
    rw [change_of_error h]
    exact .refl s

end Store

end TypedPipeline
