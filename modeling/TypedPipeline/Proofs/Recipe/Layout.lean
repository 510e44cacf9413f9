import Mathlib.Data.List.Perm.Basic
import TypedPipeline.Proofs.Component.Build
import TypedPipeline.Proofs.Decision
import TypedPipeline.Proofs.Spec
import TypedPipeline.Recipe.Build

/-!
# The channels of a recipe

All channels of a recipe are made before any component is built. Each has a number of its own and no
producer, and they are found under the names that the recipe and the contracts of its kinds give
them.

No assumption is made about the store in which a recipe is built. What it knows about numbers that
it has not given out is overwritten when they are.

## Implementation notes

`Store.Allots` lists the channels that were made between two states, and it is made to be joined: if
one step allots `cs` and the next one `ds`, both together allot `cs ++ ds`. The numbers of the
second list are beyond those of the first, so no number comes twice. Recipes keep their channels in
sorted maps, which do not remember in which order they were made; so the list may be permuted.

A name of an input that is used twice is found once the second channel has been made. The lemma
about all inputs therefore carries along the channels that are there already, and its condition asks
of each name that it is not among them.

## Main definitions

* `Store.Allots` — channels that were made between two states of the store
* `Recipe.Placed.Declared` — the output channels are those of the contract
* `Recipe.LaidOut` — the channels of a recipe, and its entries with their kinds

## Main results

* `Recipe.inputChannels_decides`, `Recipe.place_decides` — the channels of inputs and of entries
* `Recipe.layOut_decides` — all channels of a recipe
-/

namespace TypedPipeline

open StoreM (Decides)

/-! ### New channels

Whatever a store holds under a number that it has not given out is lost when the number is given
out, because the new entry is put over it. So no hypothesis about such numbers is needed. -/

/-- Channels that were made between two states of the store. Nobody has claimed them, and nobody has
claimed any other channel in between. -/
structure Store.Allots (s : Store) (cs : List Channel) (s' : Store) : Prop where
  nextChannel : s.nextChannel ≤ s'.nextChannel
  /-- The numbers were given out in between. -/
  bounds : ∀ c ∈ cs, s.nextChannel ≤ c.id.number ∧ c.id.number < s'.nextChannel
  /-- No number was given out twice. -/
  nodup : (cs.map Channel.id).Nodup
  unclaimed : ∀ c ∈ cs, (s'.channel c).producer = none
  others : ∀ c : Channel, c.id.number < s.nextChannel →
    (s'.channel c).producer = (s.channel c).producer

namespace Store.Allots

variable {s s' s'' : Store} {cs ds : List Channel}

/-- No channel is made by a step that gives no number out and claims nothing. -/
theorem nil (hn : s'.nextChannel = s.nextChannel)
    (hp : ∀ c, (s'.channel c).producer = (s.channel c).producer) : s.Allots [] s' where
  nextChannel := Nat.le_of_eq hn.symm
  bounds := by simp
  nodup := by simp
  unclaimed := by simp
  others c _ := hp c

theorem newChannel (s : Store) (type : ArtifactType) :
    s.Allots [(s.newChannel type).1] (s.newChannel type).2 where
  nextChannel := Nat.le_succ _
  bounds := by simp [Store.newChannel, Store.setChannel]
  nodup := by simp
  unclaimed := by simp [Store.newChannel]
  others c hc := by
    rw [Store.channel_newChannel, if_neg]
    intro hid
    rw [hid] at hc
    exact Nat.lt_irrefl _ hc

/-- The channels of two steps have different numbers, since later numbers are greater. -/
theorem append (h : s.Allots cs s') (h' : s'.Allots ds s'') : s.Allots (cs ++ ds) s'' where
  nextChannel := Nat.le_trans h.nextChannel h'.nextChannel
  bounds c hc := by
    have hle := h.nextChannel
    have hle' := h'.nextChannel
    rcases List.mem_append.mp hc with hc | hc
    · have := h.bounds c hc
      omega
    · have := h'.bounds c hc
      omega
  nodup := by
    rw [List.map_append, List.nodup_append]
    refine ⟨h.nodup, h'.nodup, fun a ha b hb hab => ?_⟩
    obtain ⟨c, hc, rfl⟩ := List.mem_map.mp ha
    obtain ⟨d, hd, rfl⟩ := List.mem_map.mp hb
    exact Store.id_ne_of_fresh (h.bounds c hc).2 (h'.bounds d hd).1 hab.symm
  unclaimed c hc := by
    rcases List.mem_append.mp hc with hc | hc
    · rw [h'.others c (h.bounds c hc).2]
      exact h.unclaimed c hc
    · exact h'.unclaimed c hc
  others c hc := by
    rw [h'.others c (Nat.lt_of_lt_of_le hc h.nextChannel), h.others c hc]

/-- The order in which channels were made does not matter afterwards. -/
theorem perm (h : s.Allots cs s') (hp : ds.Perm cs) : s.Allots ds s' where
  nextChannel := h.nextChannel
  bounds c hc := h.bounds c (hp.mem_iff.mp hc)
  nodup := (hp.map Channel.id).nodup_iff.mpr h.nodup
  unclaimed c hc := h.unclaimed c (hp.mem_iff.mp hc)
  others := h.others

end Store.Allots

/-- Artifacts of the type of a channel can be put into it. A bind makes no channel and claims
none. -/
theorem Store.exists_bind {c : Channel} {l : List Artifact} (h : ∀ a ∈ l, a.type = c.type)
    (s : Store) : ∃ s', s.bind c l = .ok s' ∧ s.Allots [] s' := by
  refine ⟨s.setChannel c { s.channel c with held := l }, ?_,
    .nil rfl (Store.producer_setChannel_held s c l)⟩
  rw [Store.bind, Channel.misfit?_eq_none_iff.mpr h]

namespace Recipe

variable {types : TypeRegistry} {registry : Registry} {s s₀ : Store}

/-! ### Declared inputs

The artifact of an input is made first, and is bound to the channel as soon as this is there. It has
the type of the channel, so the bind cannot fail. Splits can, if there is a location: they are
written on the artifact, which refuses names that cannot be joined. -/

/-- What is asked of a declared input: a registered type, and valid names of the splits of an
artifact that is there already. -/
structure Input.Acceptable (types : TypeRegistry) (input : Input) : Prop where
  registered : ∃ type, types.lookup? input.typeName = some type
  splits : input.uri ≠ none → ∀ split ∈ input.splits, SplitNames.isName split = true

/-- The channel that a map has for a declared input. -/
def Supplies (inputs : TextMap Channel) (name typeName : String) : Prop :=
  ∃ c, inputs.find? name = some c ∧ c.type.name = typeName

theorem supplies_insert {inputs : TextMap Channel} {key : String}
    (h : inputs.find? key = none) {c : Channel} {name typeName : String} :
    Supplies (inputs.insert key c) name typeName ↔
      Supplies inputs name typeName ∨ key = name ∧ c.type.name = typeName := by
  rw [Supplies, Supplies, SortedMap.find?_insert]
  by_cases hname : name = key
  · subst hname
    simp [h]
  · simp [hname, Ne.symm hname]

theorem inputArtifact_decides (input : Input) (type : ArtifactType) (uri : String) (s : Store) :
    Decides (inputArtifact input type uri) s
      (∀ split ∈ input.splits, SplitNames.isName split = true)
      fun a s' => a.type = type ∧ s.Grows s' := by
  let a := (s.newArtifact type).1
  let s₁ := (s.newArtifact type).2
  have hnew : s.Grows s₁ := Store.grows_newArtifact s type none {}
  have hblank : (s₁.artifact a).uri = none := by
    simp [s₁, a, Store.newArtifact]
  -- the location is written with or without split names, and never refused
  have hlocate : ∀ k : Option Refusal → StoreM Fault Artifact, k none = pure a → ∀ s₂ : Store,
      s.Grows s₂ → (s₂.artifact a).uri = none →
        Decides (StoreM.run' (fun s => s.change a (.setUri uri)) >>= k) s₂ True
          fun a s' => a.type = type ∧ s.Grows s' := by
    intro k hk s₂ h₂ huri
    refine Decides.bind_ok (StoreM.run'_apply _ _) ?_
    rw [Store.change_setUri huri, hk]
    exact .pure ⟨rfl, h₂.trans (Store.grows_change s₂ a _)⟩
  refine Decides.bind_ok (StoreM.run'_apply _ _) ?_
  by_cases hempty : input.splits.isEmpty
  · simp only [hempty]
    refine (hlocate _ rfl s₁ hnew hblank).congr ?_
    rw [List.isEmpty_iff] at hempty
    simp [hempty]
  · simp only [hempty]
    refine Decides.bind_ok (StoreM.run'_apply _ _) ?_
    have hnone := Store.change_setSplitNames_iff hblank input.splits
    have huri := Store.uri_change_setSplitNames hblank input.splits
    cases hr : (s₁.change a (.setSplitNames input.splits)).1 with
    | some r =>
      rw [hr] at hnone
      exact (Decides.of_error rfl).congr (by simpa using hnone)
    | none =>
      refine (hlocate _ rfl _ (hnew.trans (Store.grows_change s₁ a _)) huri).congr ?_
      simpa [hr] using hnone

/-- The artifact that an input begins with, if it has a location, has the type of the channel. -/
theorem inputChannel_decides (types : TypeRegistry) (input : Input) (s : Store) :
    Decides (inputChannel types input) s (input.Acceptable types)
      fun c s' => c.type.name = input.typeName ∧ s.Allots [c] s' := by
  unfold inputChannel
  cases htype : types.lookup? input.typeName with
  | none =>
    refine (Decides.of_error rfl).congr ⟨False.elim, fun h => ?_⟩
    obtain ⟨type, h⟩ := h.registered
    cases htype.symm.trans h
  | some type =>
    -- what is done once the artifacts are there
    have hrest : ∀ (l : List Artifact) (s₁ : Store), (∀ a ∈ l, a.type = type) → s.Grows s₁ →
        Decides (do
          let c ← StoreM.run' fun s => s.newChannel type
          StoreM.update fun s => (s.bind c l).mapError fun e => .of (.contract e)
          pure c : StoreM Fault Channel) s₁ True
          fun c s' => c.type.name = input.typeName ∧ s.Allots [c] s' := by
      intro l s₁ hl hgrows
      have hbefore : s.Allots [] s₁ := .nil hgrows.nextChannel fun c => by
        rw [Store.channel_congr hgrows.channels]
      obtain ⟨s₂, hbind, hafter⟩ := Store.exists_bind hl (c := (s₁.newChannel type).1)
        (s₁.newChannel type).2
      have hupdate : StoreM.update (fun s => (s.bind (s₁.newChannel type).1 l).mapError fun e =>
          Fault.of (.contract e)) (s₁.newChannel type).2 = (.ok (), s₂) := by
        rw [StoreM.update, hbind]
        rfl
      exact Decides.bind_ok (StoreM.run'_apply _ _) (Decides.bind_ok hupdate
        (.pure ⟨TypeRegistry.lookup?_name htype,
          (hbefore.append (.newChannel s₁ type)).append hafter⟩))
    dsimp only
    cases huri : input.uri with
    | none =>
      refine (Decides.bind_ok (StoreM.pure_apply [] s) (hrest [] s (by simp) (.refl s))).congr ?_
      exact ⟨fun _ => ⟨⟨type, htype⟩, fun h => absurd huri h⟩, fun _ => trivial⟩
    | some uri =>
      refine ((inputArtifact_decides input type uri s).andThen fun a s₁ _ h =>
        Decides.bind_ok (StoreM.pure_apply [a] s₁) (hrest [a] s₁ (by simpa using h.1) h.2)).congr ?_
      exact ⟨fun h => ⟨⟨type, htype⟩, fun _ => h⟩, fun h => h.splits (by simp [huri])⟩

/-- The channels that were made before are carried along, since a name that one of them has cannot
be given again. -/
theorem inputChannels_decides {made : TextMap Channel} {inputs : List Input}
    (h : s₀.Allots made.values s) :
    Decides (inputChannels types made inputs) s
      ((∀ input ∈ inputs, input.Acceptable types) ∧ (inputs.map Input.name).Nodup ∧
        ∀ input ∈ inputs, made.find? input.name = none)
      fun m s' => s₀.Allots m.values s' ∧ ∀ name typeName, Supplies m name typeName ↔
        Supplies made name typeName ∨
          ∃ input ∈ inputs, input.name = name ∧ input.typeName = typeName := by
  induction inputs generalizing made s with
  | nil => exact (Decides.pure ⟨h, by simp⟩).congr (by simp)
  | cons input rest ih =>
    refine ((inputChannel_decides types input s).bind (Q := (∀ i ∈ rest, i.Acceptable types) ∧
      ((input :: rest).map Input.name).Nodup ∧ ∀ i ∈ input :: rest, made.find? i.name = none)
      fun c s' _ hc => ?_).congr (by simp only [List.forall_mem_cons, and_assoc])
    cases hfound : made.find? input.name with
    | some d =>
      have hcontains : made.contains input.name = true := by rw [SortedMap.contains, hfound]; rfl
      simp only [hcontains]
      refine (Decides.of_error rfl).congr ⟨False.elim, fun hall => ?_⟩
      rw [hall.2.2 input List.mem_cons_self] at hfound
      cases hfound
    | none =>
      have hcontains : made.contains input.name = false := by rw [SortedMap.contains, hfound]; rfl
      simp only [hcontains]
      have hmade : s₀.Allots (made.insert input.name c).values s' :=
        (h.append hc.2).perm ((SortedMap.values_insert_perm hfound c).trans
          (List.perm_append_singleton c made.values).symm)
      refine ((ih hmade).congr (and_congr_right fun _ => ?_)).imp fun m s'' hP hm =>
        ⟨hm.1, fun name typeName => ?_⟩
      · simp only [SortedMap.find?_insert, List.map_cons, List.nodup_cons, List.mem_map,
          List.forall_mem_cons, hfound, true_and]
        grind
      · rw [hm.2, supplies_insert hfound, hc.1]
        simp [or_assoc]

/-! ### Outputs of entries

The names of outputs are those of a contract, in which no name occurs twice. So each output gets one
channel. -/

theorem outputChannels_spec {declared : List (String × ArtifactType)}
    (h : (declared.map Prod.fst).Nodup) (s : Store) :
    s.Allots (outputChannels s declared).1.values (outputChannels s declared).2 ∧
      ∀ name type, (∃ c, (outputChannels s declared).1.find? name = some c ∧ c.type = type) ↔
        (name, type) ∈ declared := by
  induction declared generalizing s with
  | nil => exact ⟨.nil rfl fun _ => rfl, by simp [outputChannels]⟩
  | cons f rest ih =>
    obtain ⟨name, type⟩ := f
    rw [List.map_cons, List.nodup_cons] at h
    obtain ⟨hallots, hfind⟩ := ih h.2 (s.newChannel type).2
    have hnone : (outputChannels (s.newChannel type).2 rest).1.find? name = none := by
      rw [Option.eq_none_iff_forall_ne_some]
      intro c hc
      exact h.1 (List.mem_map.mpr ⟨_, (hfind name c.type).mp ⟨c, hc, rfl⟩, rfl⟩)
    refine ⟨((Store.Allots.newChannel s type).append hallots).perm
      (SortedMap.values_insert_perm hnone _), fun name' type' => ?_⟩
    rw [List.mem_cons, ← hfind, outputChannels]
    dsimp only
    rw [SortedMap.find?_insert]
    by_cases hname : name' = name
    · have htype : (s.newChannel type).1.type = type := rfl
      subst hname
      simp [hnone, htype, eq_comm]
    · simp [hname]

/-- The channels of a placed entry are those that the contract of its kind declares. -/
structure Placed.Declared (registry : Registry) (p : Placed) : Prop where
  kind : registry.kinds.find? p.entry.kind = some p.kind
  outputs : ∀ name type, (∃ c, p.outputs.find? name = some c ∧ c.type = type) ↔
    (name, type) ∈ p.kind.spec.outputs

/-- The channels of all placed entries. -/
def outputsOf (placed : List Placed) : List Channel := placed.flatMap fun p => p.outputs.values

/-- Entries are placed exactly if all their kinds are known. Then each has channels for the outputs
that its kind declares. -/
theorem place_decides (registry : Registry) (entries : List Entry) (s : Store) :
    Decides (place registry entries) s
      (∀ e ∈ entries, ∃ kind, registry.kinds.find? e.kind = some kind)
      fun placed s' => placed.map Placed.entry = entries ∧ (∀ p ∈ placed, p.Declared registry) ∧
        s.Allots (outputsOf placed) s' := by
  induction entries generalizing s with
  | nil => exact (Decides.pure ⟨rfl, by simp, .nil rfl fun _ => rfl⟩).congr (by simp)
  | cons entry rest ih =>
    have hkind : ∀ kind, (registry.kind entry.kind).mapError
        (·.within s!"Component '{entry.name}'") = .ok kind ↔
          registry.kinds.find? entry.kind = some kind := by
      intro kind
      rw [Registry.kind]
      cases registry.kinds.find? entry.kind <;> simp [Except.mapError]
    refine ((Decides.ask.congr (exists_congr hkind)).bind
      (Q := ∀ e ∈ rest, ∃ kind, registry.kinds.find? e.kind = some kind)
      fun kind s' _ hk => Decides.bind_ok (StoreM.run'_apply _ _) ?_).congr
      (by rw [List.forall_mem_cons])
    obtain ⟨hfound, rfl⟩ := hk
    obtain ⟨hallots, houtputs⟩ := outputChannels_spec kind.spec.nodup_outputs s'
    refine (ih (outputChannels s' kind.spec.outputs).2).andThen fun placed s₂ _ hp => .pure ?_
    obtain ⟨hentries, hdeclared, hrest⟩ := hp
    refine ⟨by rw [List.map_cons, hentries], ?_, hallots.append hrest⟩
    rw [List.forall_mem_cons]
    exact ⟨⟨(hkind kind).mp hfound, houtputs⟩, hdeclared⟩

/-! ### All channels

All channels are told apart here once and for all, those of inputs from those of outputs as well. -/

/-- All channels of a recipe, and its entries with their kinds. This is what is known of the store
when one has forgotten by which steps it was reached. -/
structure LaidOut (r : Recipe) (registry : Registry) (channels : Channels) (placed : List Placed)
    (s : Store) : Prop where
  /-- The channels of inputs are those that the recipe declares. -/
  inputs : ∀ name typeName, Supplies channels.inputs name typeName ↔
    ∃ input ∈ r.inputs, input.name = name ∧ input.typeName = typeName
  outputs : channels.outputs = placed.map fun p => (p.entry.name, p.outputs)
  entries : placed.map Placed.entry = r.entries
  declared : ∀ p ∈ placed, p.Declared registry
  /-- No two channels are the same. -/
  nodup : ((channels.inputs.values ++ outputsOf placed).map Channel.id).Nodup
  /-- No output has been claimed. -/
  unclaimed : ∀ c ∈ outputsOf placed, (s.channel c).producer = none
  /-- No input has a producer. -/
  unproduced : ∀ c ∈ channels.inputs.values, (s.channel c).producer = none

/-- What is asked of inputs and kinds before any component is built. -/
def Grounded (r : Recipe) (registry : Registry) : Prop :=
  ((∀ input ∈ r.inputs, input.Acceptable registry.types) ∧ (r.inputs.map Input.name).Nodup) ∧
    ∀ e ∈ r.entries, ∃ kind, registry.kinds.find? e.kind = some kind

/-- All channels of a recipe can be made exactly if its inputs are acceptable and differ in their
names, and the kinds of its entries are known. -/
theorem layOut_decides (r : Recipe) (registry : Registry) (s : Store) :
    Decides (r.layOut registry) s (r.Grounded registry)
      fun l s' => r.LaidOut registry l.1 l.2 s' := by
  unfold layOut
  have hnone : s.Allots (SortedMap.values (.empty : TextMap Channel)) s := .nil rfl fun _ => rfl
  have hinputs : Decides (inputChannels registry.types .empty r.inputs) s
      ((∀ input ∈ r.inputs, input.Acceptable registry.types) ∧
        (r.inputs.map Input.name).Nodup) _ :=
    (inputChannels_decides hnone).congr (by simp)
  refine hinputs.bind fun inputs s₁ _ hi => (place_decides registry r.entries s₁).andThen
    fun placed s₂ _ hp => .pure ?_
  have hallots := hi.1.append hp.2.2
  exact {
    inputs := by simpa [Supplies] using hi.2
    outputs := rfl
    entries := hp.1
    declared := hp.2.1
    nodup := hallots.nodup
    unclaimed := fun c hc => hallots.unclaimed c (List.mem_append_right _ hc)
    unproduced := fun c hc => hallots.unclaimed c (List.mem_append_left _ hc) }

end Recipe

end TypedPipeline
