import TypedPipeline.Proofs.Artifact.History
import TypedPipeline.Proofs.Artifact.Splits
import TypedPipeline.Proofs.Recipe.Acceptance

/-!
# What the inputs of a recipe begin with

The channel of a declared input with a location is filled when it is made, with one artifact that
has this location and the splits of the input. Much is done to the store afterwards: other inputs
get their channels, outputs are claimed, and the pipeline is assembled. None of it reaches back to
that artifact or to what the channel holds, since all that is made later has later numbers. In the
end the channel therefore finds the splits of the input, and no others.

## Implementation notes

`Store.Extends` is weaker than what is known of channels that were allotted. It says nothing of
producers, and it asks only that what was there before still holds what it held. That is enough for
an artifact that nobody else knows of, and it is kept by every step of a build. The lemmas about
steps have the form of `Leaves`: if a step succeeds, something is true of the store behind it.

A new thing may be changed as one likes. So `Store.Extends.change` and `Store.Extends.bind` compare
with a store from the time before the thing was made, and what was done to it since does not count.

`Recipe.Input.Stocks` is put together while the channel of an input is made, and is carried through
the rest of the build with `Recipe.Input.Stocks.extend`.

## Main definitions

* `Store.Extends` — a store to which artifacts and channels were added
* `Recipe.Input.Stocks` — what a channel holds for an input

## Main results

* `Store.Extends.change`, `Store.Extends.bind` — what is done to something new
* `Recipe.extends_of_build` — what a build does once all channels are there
* `Recipe.exists_stocked_of_build` — the channels of the inputs of a pipeline
* `channels_resolve_splits` — the splits that channels find
-/

namespace TypedPipeline

open StoreM (Leaves)

/-! ### Stores to which something was added

Numbers are given out in rising order. So whatever was there has a number below the next one, and
all that a step makes has a number from there on. -/

/-- A store to which artifacts and channels were added. Artifacts that were there have not changed,
and channels that were there hold what they held. -/
structure Store.Extends (s s' : Store) : Prop where
  nextArtifact : s.nextArtifact ≤ s'.nextArtifact
  nextChannel : s.nextChannel ≤ s'.nextChannel
  artifact : ∀ a : Artifact, a.id.number < s.nextArtifact → s'.artifact a = s.artifact a
  held : ∀ c : Channel, c.id.number < s.nextChannel → (s'.channel c).held = (s.channel c).held

namespace Store.Extends

variable {s s' s'' : Store}

theorem refl (s : Store) : Extends s s :=
  ⟨Nat.le_refl _, Nat.le_refl _, fun _ _ => rfl, fun _ _ => rfl⟩

theorem trans (h : Extends s s') (h' : Extends s' s'') : Extends s s'' where
  nextArtifact := Nat.le_trans h.nextArtifact h'.nextArtifact
  nextChannel := Nat.le_trans h.nextChannel h'.nextChannel
  artifact a ha :=
    (h'.artifact a (Nat.lt_of_lt_of_le ha h.nextArtifact)).trans (h.artifact a ha)
  held c hc := (h'.held c (Nat.lt_of_lt_of_le hc h.nextChannel)).trans (h.held c hc)

theorem newArtifact (s : Store) (type : ArtifactType) (staging : Option String)
    (state : ArtifactState) : Extends s (s.newArtifact type staging state).2 where
  nextArtifact := Nat.le_succ _
  nextChannel := Nat.le_refl _
  artifact a ha := (spares_newArtifact (fun _ => True) s type staging state).artifact a ha trivial
  held _ _ := rfl

theorem newChannel (s : Store) (type : ArtifactType) : Extends s (s.newChannel type).2 where
  nextArtifact := Nat.le_refl _
  nextChannel := Nat.le_succ _
  artifact _ _ := rfl
  held c hc := by
    rw [channel_newChannel, if_neg]
    intro hid
    rw [hid] at hc
    exact Nat.lt_irrefl _ hc

theorem noteAll (s : Store) (es : List Event) : Extends s (s.noteAll es) where
  nextArtifact := (grows_noteAll s es).nextArtifact
  nextChannel := Nat.le_of_eq (grows_noteAll s es).nextChannel.symm
  artifact a _ := artifact_congr (artifacts_noteAll s es) a
  held c _ := by rw [channel_congr (grows_noteAll s es).channels]

/-- An artifact that is new may be changed. -/
theorem change (h : Extends s s') {a : Artifact} (ha : s.nextArtifact ≤ a.id.number)
    (op : ArtifactOp) : Extends s (s'.change a op).2 where
  nextArtifact := Nat.le_trans h.nextArtifact (grows_change s' a op).nextArtifact
  nextChannel := by
    rw [(grows_change s' a op).nextChannel]
    exact h.nextChannel
  artifact b hb := by
    have hne : b.id ≠ a.id := by
      intro hid
      rw [hid] at hb
      exact Nat.not_lt_of_le ha hb
    rw [artifact_change, if_neg hne, h.artifact b hb]
  held c hc := by rw [channel_congr (grows_change s' a op).channels, h.held c hc]

/-- A channel that is new may be filled. -/
theorem bind (h : Extends s s') {c : Channel} (hc : s.nextChannel ≤ c.id.number)
    {l : List Artifact} (hbind : s'.bind c l = .ok s'') : Extends s s'' := by
  obtain rfl := eq_setChannel_of_bind hbind
  refine ⟨h.nextArtifact, h.nextChannel, h.artifact, fun d hd => ?_⟩
  rw [channel_setChannel, if_neg (id_ne_of_fresh hd hc).symm, h.held d hd]

end Store.Extends

theorem ComponentDraft.extends_fillOutputs (s : Store) (outputs : TextMap Channel)
    (declared : List (String × ArtifactType)) :
    s.Extends (fillOutputs s outputs declared).2 :=
  holds_fillOutputs (fun t type ht => ht.trans (.newChannel t type)) (.refl s) outputs declared

/-- A build makes channels and enters producers. Neither changes what a channel holds. -/
theorem ComponentDraft.build_extends (d : ComponentDraft) (s : Store) :
    Leaves d.build s fun _ s' => s.Extends s' := by
  intro k s' hk
  obtain ⟨-, -, hclaimed, -⟩ := accepted_of_build hk
  exact (extends_fillOutputs s d.outputs d.spec.outputs).trans {
    nextArtifact := Nat.le_of_eq hclaimed.nextArtifact.symm
    nextChannel := Nat.le_of_eq hclaimed.nextChannel.symm
    artifact := fun a _ => Store.artifact_congr hclaimed.artifacts a
    held := fun c _ => hclaimed.held c }

namespace Recipe

variable {r : Recipe} {registry : Registry} {types : TypeRegistry} {input : Input} {c : Channel}
  {s s' : Store}

/-! ### Stocked channels

An input without a location has a channel that holds nothing. The splits of such an input are not
looked at. -/

/-- The artifact has the location and the splits of a declared input. Its number has been given out,
so no other artifact will get it. -/
structure Input.Describes (input : Input) (uri : String) (a : Artifact) (s : Store) : Prop where
  made : a.id.number < s.nextArtifact
  uri : (s.artifact a).uri = some uri
  splits : (s.artifact a).Lists input.splits

/-- The channel holds what a declared input begins with: one artifact if there is a location, and
nothing otherwise. -/
structure Input.Stocks (input : Input) (c : Channel) (s : Store) : Prop where
  made : c.id.number < s.nextChannel
  empty : input.uri = none → (s.channel c).held = []
  full : ∀ uri, input.uri = some uri → ∃ a, (s.channel c).held = [a] ∧ input.Describes uri a s

theorem Input.Describes.extend {uri : String} {a : Artifact} (h : input.Describes uri a s)
    (hs : s.Extends s') : input.Describes uri a s' where
  made := Nat.lt_of_lt_of_le h.made hs.nextArtifact
  uri := by rw [hs.artifact a h.made, h.uri]
  splits := by
    rw [hs.artifact a h.made]
    exact h.splits

/-- What a channel began with, it holds as long as only something else is added. -/
theorem Input.Stocks.extend (h : input.Stocks c s) (hs : s.Extends s') : input.Stocks c s' where
  made := Nat.lt_of_lt_of_le h.made hs.nextChannel
  empty huri := by rw [hs.held c h.made, h.empty huri]
  full uri huri := by
    obtain ⟨a, hheld, ha⟩ := h.full uri huri
    exact ⟨a, by rw [hs.held c h.made, hheld], ha.extend hs⟩

/-- A location is written behind the list of splits. -/
theorem Input.Describes.of_setUri {uri : String} {a : Artifact}
    (hmade : a.id.number < s.nextArtifact) (hsplits : (s.artifact a).Lists input.splits)
    (happly : (s.artifact a).apply (.setUri uri) =
      .ok ((s.change a (.setUri uri)).2.artifact a)) :
    input.Describes uri a (s.change a (.setUri uri)).2 where
  made := Nat.lt_of_lt_of_le hmade (Store.grows_change s a _).nextArtifact
  uri := congrArg ArtifactState.uri (ArtifactState.writes_of_apply happly)
  splits := hsplits.kept id happly

/-- The artifact of an input is new and is described by the input, if its splits were not
refused. -/
theorem inputArtifact_leaves (input : Input) (type : ArtifactType) (uri : String) (s : Store) :
    Leaves (inputArtifact input type uri) s fun a s' =>
      s.Extends s' ∧ input.Describes uri a s' := by
  let a := (s.newArtifact type).1
  let s₁ := (s.newArtifact type).2
  have hnew : s.Extends s₁ := .newArtifact s type none {}
  have hmade : a.id.number < s₁.nextArtifact := Nat.lt_succ_self _
  -- the location is written last, with or without a list before it
  have hlocate : ∀ k : Option Refusal → StoreM Fault Artifact, k none = pure a →
      (∀ r s, ∃ e s', k (some r) s = (.error e, s')) → ∀ s₂ : Store, s.Extends s₂ →
        a.id.number < s₂.nextArtifact → (s₂.artifact a).Lists input.splits →
          Leaves (StoreM.run' (fun s => s.change a (.setUri uri)) >>= k) s₂ fun a s' =>
            s.Extends s' ∧ input.Describes uri a s' := by
    intro k hk hfail s₂ h₂ hmade hsplits
    refine .change hfail fun happly => ?_
    rw [hk]
    exact .pure ⟨h₂.change (Nat.le_refl _) _, .of_setUri hmade hsplits happly⟩
  refine .bind_ok (StoreM.run'_apply _ _) ?_
  by_cases hempty : input.splits.isEmpty
  · simp only [hempty]
    refine hlocate _ rfl (fun r s => ⟨_, _, rfl⟩) s₁ hnew hmade ?_
    rw [Store.artifact_newArtifact_self, List.isEmpty_iff.mp hempty]
    exact .unset rfl
  · simp only [hempty]
    refine .change (fun r s => ⟨_, _, rfl⟩) fun happly => ?_
    exact hlocate _ rfl (fun r s => ⟨_, _, rfl⟩) _ (hnew.change (Nat.le_refl _) _)
      (Nat.lt_of_lt_of_le hmade (Store.grows_change s₁ a _).nextArtifact) (.given happly)

/-- A new channel into which the artifacts of an input were put. It holds one artifact or none, as
the input has a location or not. -/
theorem stocks_of_bind {type : ArtifactType} {l : List Artifact}
    (hbind : (s.newChannel type).2.bind (s.newChannel type).1 l = .ok s')
    (hempty : input.uri = none → l = [])
    (hfull : ∀ uri, input.uri = some uri → ∃ a, l = [a] ∧ input.Describes uri a s) :
    s.Extends s' ∧ input.Stocks (s.newChannel type).1 s' := by
  have hadded : s.Extends s' := (Store.Extends.newChannel s type).bind (Nat.le_refl _) hbind
  obtain rfl := Store.eq_setChannel_of_bind hbind
  refine ⟨hadded, Nat.lt_succ_self _, fun huri => ?_, fun uri huri => ?_⟩
  · rw [Store.channel_setChannel, if_pos rfl, hempty huri]
  · obtain ⟨a, rfl, ha⟩ := hfull uri huri
    refine ⟨a, ?_, ha.extend hadded⟩
    rw [Store.channel_setChannel, if_pos rfl]

/-- The channel of an input is new and holds what the input begins with. -/
theorem inputChannel_leaves (types : TypeRegistry) (input : Input) (s : Store) :
    Leaves (inputChannel types input) s fun c s' => s.Extends s' ∧ input.Stocks c s' := by
  unfold inputChannel
  cases types.lookup? input.typeName with
  | none => exact .of_error rfl
  | some type =>
    -- what is done once the artifacts are there
    have hrest : ∀ (l : List Artifact) (s₁ : Store), s.Extends s₁ →
        (input.uri = none → l = []) →
        (∀ uri, input.uri = some uri → ∃ a, l = [a] ∧ input.Describes uri a s₁) →
          Leaves (do
            let c ← StoreM.run' fun s => s.newChannel type
            StoreM.update fun s => (s.bind c l).mapError fun e => .of (.contract e)
            pure c : StoreM Fault Channel) s₁ fun c s' => s.Extends s' ∧ input.Stocks c s' := by
      intro l s₁ h₁ hempty hfull
      refine .bind_ok (StoreM.run'_apply _ _) (Leaves.update.bind fun _ s₂ hs₂ => .pure ?_)
      cases hbind : (s₁.newChannel type).2.bind (s₁.newChannel type).1 l with
      | error e => rw [hbind] at hs₂; cases hs₂
      | ok s₃ =>
        rw [hbind] at hs₂
        cases hs₂
        exact (stocks_of_bind hbind hempty hfull).imp_left h₁.trans
    dsimp only
    cases huri : input.uri with
    | none =>
      exact .bind_ok (StoreM.pure_apply [] s) (hrest [] s (.refl s) (fun _ => rfl) (by simp [huri]))
    | some uri =>
      refine (inputArtifact_leaves input type uri s).bind ?_
      rintro a t ⟨ht, ha⟩
      refine .bind_ok (StoreM.pure_apply [a] t) (hrest [a] t ht (by simp [huri]) ?_)
      intro uri' huri'
      cases huri.symm.trans huri'
      exact ⟨a, rfl, ha⟩

/-- Every input gets a channel of its own, and the channels that were made before are carried
along. -/
theorem inputChannels_leaves (types : TypeRegistry) (made : TextMap Channel) (inputs : List Input)
    (s : Store) :
    Leaves (inputChannels types made inputs) s fun m s' => s.Extends s' ∧
      (∀ name c, made.find? name = some c → m.find? name = some c) ∧
        ∀ input ∈ inputs, ∃ c, m.find? input.name = some c ∧ input.Stocks c s' := by
  induction inputs generalizing made s with
  | nil => exact .pure ⟨.refl s, fun _ _ h => h, by simp⟩
  | cons input rest ih =>
    refine (inputChannel_leaves types input s).bind ?_
    rintro c s₁ ⟨hs₁, hstocks⟩
    cases hfound : made.find? input.name with
    | some d =>
      have hcontains : made.contains input.name = true := by rw [SortedMap.contains, hfound]; rfl
      simp only [hcontains]
      exact .of_error rfl
    | none =>
      have hcontains : made.contains input.name = false := by rw [SortedMap.contains, hfound]; rfl
      simp only [hcontains]
      refine (ih (made.insert input.name c) s₁).imp ?_
      rintro m s₂ ⟨hs₂, hcarried, hinputs⟩
      refine ⟨hs₁.trans hs₂, fun name d hd => hcarried name d ?_, ?_⟩
      · rw [SortedMap.find?_insert, if_neg, hd]
        rintro rfl
        cases hfound.symm.trans hd
      · rw [List.forall_mem_cons]
        refine ⟨⟨c, hcarried _ _ ?_, hstocks.extend hs₂⟩, hinputs⟩
        rw [SortedMap.find?_insert, if_pos rfl]

/-! ### The steps behind

For each of the steps it is enough to know that it adds something. Which channels it makes, and who
has claimed them, plays no part here. -/

theorem extends_outputChannels (s : Store) (declared : List (String × ArtifactType)) :
    s.Extends (outputChannels s declared).2 := by
  induction declared generalizing s with
  | nil => exact .refl s
  | cons f rest ih => exact (Store.Extends.newChannel s f.2).trans (ih _)

theorem place_extends (registry : Registry) (entries : List Entry) (s : Store) :
    Leaves (place registry entries) s fun _ s' => s.Extends s' := by
  induction entries generalizing s with
  | nil => exact .pure (.refl s)
  | cons entry rest ih =>
    refine Leaves.ask.bind fun kind s₁ hs₁ => .bind_ok (StoreM.run'_apply _ _) ?_
    obtain ⟨-, rfl⟩ := hs₁
    refine (ih _).bind fun others s₂ hs₂ => .pure ?_
    exact (extends_outputChannels s₁ kind.spec.outputs).trans hs₂

theorem within_leaves {ε α : Type} {x : StoreM ε α} {D : α → Store → Prop} (h : Leaves x s D)
    (context : String) (cause : ε → Cause) : Leaves (within context cause x) s D :=
  fun a s' ha => h a s' (within_ok_iff.mp ha)

theorem construct_extends (channels : Channels) (q : Placed) (s : Store) :
    Leaves (construct channels q) s fun _ s' => s.Extends s' := by
  refine Leaves.ask.bind fun inputs s₁ hs₁ => ?_
  obtain ⟨-, rfl⟩ := hs₁
  exact within_leaves (ComponentDraft.build_extends _ s₁) _ _

theorem constructAll_extends (channels : Channels) (placed : List Placed) (s : Store) :
    Leaves (placed.mapM (construct channels)) s fun _ s' => s.Extends s' := by
  induction placed generalizing s with
  | nil => exact .pure (.refl s)
  | cons q rest ih =>
    rw [List.mapM_cons]
    exact (construct_extends channels q s).bind fun k s₁ hs₁ =>
      (ih s₁).bind fun ks s₂ hs₂ => .pure (hs₁.trans hs₂)

theorem assembleNoted_extends (name : String) (cs : Array Component) (inputs : List Channel)
    (config : PipelineConfig) (s : Store) :
    Leaves (Pipeline.assembleNoted name cs inputs config) s fun _ s' => s.Extends s' := by
  refine Leaves.ask.bind fun p s₁ hs₁ => ?_
  obtain ⟨-, rfl⟩ := hs₁
  intro q s' hq
  cases hq
  exact .noteAll _ _

theorem layOut_leaves (r : Recipe) (registry : Registry) (s : Store) :
    Leaves (r.layOut registry) s fun l s' => ∀ input ∈ r.inputs, ∃ c,
      l.1.inputs.find? input.name = some c ∧ input.Stocks c s' := by
  refine (inputChannels_leaves registry.types .empty r.inputs s).bind ?_
  rintro m s₁ ⟨-, -, hinputs⟩
  refine (place_extends registry r.entries s₁).bind fun placed s₂ hs₂ => .pure ?_
  intro input hinput
  obtain ⟨c, hc, hstocks⟩ := hinputs input hinput
  exact ⟨c, hc, hstocks.extend hs₂⟩

/-- What a build does once all channels are there. -/
theorem extends_of_build {rootGiven : Option String} {p : Pipeline} {l : Channels × List Placed}
    {s₀ : Store} (h : r.build registry rootGiven s = (.ok p, s'))
    (hlay : r.layOut registry s = (.ok l, s₀)) : s₀.Extends s' := by
  have hrest : Leaves (r.build registry rootGiven) s fun _ s' => s₀.Extends s' := by
    refine Leaves.ask.bind fun _ s₁ hs₁ => ?_
    obtain ⟨-, rfl⟩ := hs₁
    refine Leaves.bind (D := fun _ t => t = s₀) (fun l' t ht => ?_) fun l' t ht => ?_
    · cases ht.symm.trans hlay
      rfl
    · subst ht
      exact (constructAll_extends l'.1 l'.2 t).bind fun ks s₁ hs₁ =>
        (within_leaves (assembleNoted_extends _ _ _ _ s₁) _ _).imp fun _ _ hs₂ => hs₁.trans hs₂
  exact hrest p s' h

/-- In a pipeline that was built, the channel of every declared input holds what the input begins
with. -/
theorem exists_stocked_of_build {rootGiven : Option String} {p : Pipeline}
    (h : r.build registry rootGiven s = (.ok p, s')) :
    ∃ channels placed s₀, r.layOut registry s = (.ok (channels, placed), s₀) ∧
      ∀ input ∈ r.inputs, ∃ c ∈ p.inputs, channels.inputs.find? input.name = some c ∧
        input.Stocks c s' := by
  obtain ⟨channels, placed, s₀, hlay, hbuilt⟩ := layOut_of_build h
  refine ⟨channels, placed, s₀, hlay, fun input hinput => ?_⟩
  obtain ⟨c, hc, hstocks⟩ := layOut_leaves r registry s _ _ hlay input hinput
  have hvalue := SortedMap.mem_values_iff_find?.mpr ⟨input.name, hc⟩
  exact ⟨c, by rwa [hbuilt.inputs], hc, hstocks.extend (extends_of_build h hlay)⟩

end Recipe

/-! ### Splits

The rule for a channel with any number of artifacts is known already, and what is added here is its
use for the inputs of a recipe. There is one artifact at most, so a split is found or it is not, and
no two artifacts can list it. -/

/-- A channel finds a split exactly if one of the artifacts that it holds lists it, no other one
does, and that one has a location. The answer is this location without the slashes at its end, and
behind one slash the name of the split. Otherwise the channel says how many artifacts list the split
if that is not one, and else that the one has no location. So, in a pipeline that was built, the
channel of a declared input with a location finds the splits of the input and no others. -/
theorem channels_resolve_splits :
    (∀ (s : Store) (c : Channel) (names : Artifact → List String),
      (∀ a ∈ (s.channel c).held, (s.artifact a).Lists (names a)) → ∀ split : String,
        (∀ location, s.splitUri? c split = .ok location ↔
          ∃ a uri base, ListsAlone names (s.channel c).held split a ∧
            (s.artifact a).uri = some uri ∧ Store.IsBase uri base ∧
              location = base ++ "/" ++ split) ∧
          (∀ n ≠ 1, (s.channel c).held.countP (fun a => split ∈ names a) = n →
            s.splitUri? c split = .error (.of (.artifact (.splitNotFound split n)))) ∧
            ∀ a, ListsAlone names (s.channel c).held split a → (s.artifact a).uri = none →
              s.splitUri? c split = .error (.of (.artifact (.unpopulated a.id)))) ∧
      ∀ (r : Recipe) (registry : Registry) (rootGiven : Option String) (s s' : Store)
          (p : Pipeline),
        r.build registry rootGiven s = (.ok p, s') →
          ∃ channels placed s₀, r.layOut registry s = (.ok (channels, placed), s₀) ∧
            ∀ input ∈ r.inputs, ∀ uri, input.uri = some uri →
              ∃ c ∈ p.inputs, channels.inputs.find? input.name = some c ∧ ∀ split,
                (∀ location, s'.splitUri? c split = .ok location ↔ split ∈ input.splits ∧
                  ∃ base, Store.IsBase uri base ∧ location = base ++ "/" ++ split) ∧
                (split ∉ input.splits →
                  s'.splitUri? c split = .error (.of (.artifact (.splitNotFound split 0)))) := by
  refine ⟨fun s c names h split => ⟨fun location => Store.splitUri?_ok_iff h, ?_, ?_⟩, ?_⟩
  · rintro n hn rfl
    exact Store.splitUri?_of_countP_ne_one h hn
  · intro a ha huri
    rw [Store.splitUri?_of_listsAlone h ha, huri, Option.elim]
  · intro r registry rootGiven s s' p hbuild
    obtain ⟨channels, placed, s₀, hlay, hinputs⟩ := Recipe.exists_stocked_of_build hbuild
    refine ⟨channels, placed, s₀, hlay, fun input hinput uri huri => ?_⟩
    obtain ⟨c, hc, hfind, hstocks⟩ := hinputs input hinput
    obtain ⟨a, hheld, ha⟩ := hstocks.full uri huri
    -- the channel holds one artifact, which lists the splits of the input
    have hlists : ∀ b ∈ (s'.channel c).held, (s'.artifact b).Lists input.splits := by
      rw [hheld, List.forall_mem_singleton]
      exact ha.splits
    have halone : ∀ b split, ListsAlone (fun _ => input.splits) (s'.channel c).held split b ↔
        b = a ∧ split ∈ input.splits := by
      intro b split
      rw [hheld, listsAlone_iff]
      by_cases hsplit : split ∈ input.splits <;> simp [hsplit, eq_comm]
    refine ⟨c, hc, hfind, fun split => ⟨fun location => ?_, fun hsplit => ?_⟩⟩
    · rw [Store.splitUri?_ok_iff hlists]
      simp only [halone]
      constructor
      · rintro ⟨b, uri', base, ⟨rfl, hsplit⟩, huri', hbase, rfl⟩
        cases ha.uri.symm.trans huri'
        exact ⟨hsplit, base, hbase, rfl⟩
      · rintro ⟨hsplit, base, hbase, rfl⟩
        exact ⟨a, uri, base, ⟨rfl, hsplit⟩, ha.uri, hbase, rfl⟩
    · have hcount : (s'.channel c).held.countP (fun _ => split ∈ input.splits) = 0 := by
        simp [hsplit]
      rw [← hcount]
      exact Store.splitUri?_of_countP_ne_one hlists (by rw [hcount]; exact Nat.zero_ne_one)

namespace Shelf

open Relay (table)

/-- A table that is there, and one that is yet to be written. -/
def whole : Artifact := ⟨⟨1⟩, table, none⟩

def rest : Artifact := ⟨⟨2⟩, table, none⟩

/-- The splits that they are given. One name is given twice, one to both of them, and one name is
the beginning of another. -/
def names (a : Artifact) : List String :=
  if a = whole then ["train", "eval", "train"] else ["eval", "tr"]

def calls : List ArtifactCall :=
  [.make (.placeholder table), .make (.placeholder table),
    .change whole (.setSplitNames (names whole)), .change rest (.setSplitNames (names rest)),
    .change whole (.setUri "mem:whole//")]

def channel : Channel := ⟨⟨1⟩, table⟩

/-- The store with both tables in one channel. -/
def store : Store := (({} : Store).calls calls).setChannel channel ⟨none, [whole, rest]⟩

theorem lists : ∀ a ∈ (store.channel channel).held, (store.artifact a).Lists (names a) := by
  have hheld : (store.channel channel).held = [whole, rest] := rfl
  rw [hheld, List.forall_mem_cons, List.forall_mem_singleton]
  have hwhole : ({} : ArtifactState).apply (.setSplitNames (names whole)) =
      .ok ⟨none, .ofList [("split_names", .string "train,eval,train")]⟩ := by decide
  have hlocated : ArtifactState.apply (.setUri "mem:whole//")
      ⟨none, .ofList [("split_names", .string "train,eval,train")]⟩ =
        .ok (store.artifact whole) := by decide
  have hrest : ({} : ArtifactState).apply (.setSplitNames (names rest)) =
      .ok (store.artifact rest) := by decide
  exact ⟨(ArtifactState.Lists.given hwhole).kept id hlocated, .given hrest⟩

end Shelf

/-- Of two tables with splits, one without a location, the channel finds only the split that the
other one alone lists. The channel of a declared input finds the one split of the input. -/
theorem channels_resolve_splits_shelf :
    Shelf.store.splitUri? Shelf.channel "train" = .ok "mem:whole/train" ∧
      Shelf.store.splitUri? Shelf.channel "eval" =
        .error (.of (.artifact (.splitNotFound "eval" 2))) ∧
      Shelf.store.splitUri? Shelf.channel "tr" = .error (.of (.artifact (.unpopulated ⟨2⟩))) ∧
      Shelf.store.splitUri? Shelf.channel "" = .error (.of (.artifact (.splitNotFound "" 0))) ∧
      ∃ p s', Relay.recipe.build Relay.registry none {} = (.ok p, s') ∧ ∃ c ∈ p.inputs,
        s'.splitUri? c "train" = .ok "mem:raw/train" ∧
          s'.splitUri? c "tr" = .error (.of (.artifact (.splitNotFound "tr" 0))) := by
  have hanswers := channels_resolve_splits.1 Shelf.store Shelf.channel Shelf.names Shelf.lists
  obtain ⟨p, s', hbuild⟩ :=
    (Recipe.build_decides Relay.recipe Relay.registry none {}).succeeds Relay.acceptable_recipe
  have hbase : Store.IsBase "mem:whole//" "mem:whole" := ⟨by decide, 2, by decide⟩
  have hwhole : ListsAlone Shelf.names [Shelf.whole, Shelf.rest] "train" Shelf.whole :=
    ⟨[], [Shelf.rest], rfl, by decide, by decide⟩
  have hrest : ListsAlone Shelf.names [Shelf.whole, Shelf.rest] "tr" Shelf.rest :=
    ⟨[Shelf.whole], [], rfl, by decide, by decide⟩
  refine ⟨?_, ?_, ?_, ?_, p, s', hbuild, ?_⟩
  · exact ((hanswers "train").1 _).mpr ⟨_, _, _, hwhole, by decide, hbase, by decide⟩
  · exact (hanswers "eval").2.1 2 (by decide) (by decide)
  · exact (hanswers "tr").2.2 _ hrest (by decide)
  · exact (hanswers "").2.1 0 (by decide) (by decide)
  · obtain ⟨_, _, _, -, hinputs⟩ :=
      channels_resolve_splits.2 Relay.recipe Relay.registry none {} s' p hbuild
    obtain ⟨c, hc, -, hsplits⟩ := hinputs _ (.head _) "mem:raw" rfl
    have hbase : Store.IsBase "mem:raw" "mem:raw" := ⟨by decide, 0, rfl⟩
    exact ⟨c, hc, ((hsplits "train").1 _).mpr ⟨by decide, _, hbase, by decide⟩,
      (hsplits "tr").2 (by decide)⟩

end TypedPipeline
