import TypedPipeline.Proofs.Workbench.Conformance

/-!
# What channels and bindings hold

There are two places where artifacts are kept for a channel: the channel itself, and the bindings of
a run. Artifacts come into them in many ways, as a channel is made, by a bind, by seeding or with
the outputs of a request, but all of them lead through one comparison of types. So whatever is kept
for a channel has its type, on every workbench. A bind that is refused has done nothing, one that is
not changes one entry, and what is done with bindings and requests never reaches the channels.

## Implementation notes

A channel and an entry of bindings are different things, but what is said of a bind to them is the
same. `Channel.Attempted` says it of any place that shows something for every channel, and each of
the two binds is shown to be such an attempt. The place is a parameter, so that nothing had to be
said twice.

A bind in bindings gives new bindings and leaves the old ones alone, as they are a value. To compare
it with a bind to a channel, `Bindings.attempt` does it on the spot: a refusal then has to leave the
bindings that were there, which is worth saying only of something that could have changed.

## Main definitions

* `Bindings.attempt` — a bind that changes the bindings on the spot
* `Channel.Attempted` — what a bind did to the place where artifacts are kept
* `Workbench.Orderly` — everything that is kept for a channel has its type

## Main results

* `Channel.attempted_of_misfit` — the one argument for both places
* `Workbench.Step.held` — the only step that changes what channels hold
* `Workbench.orderly_of_reachable` — every workbench
-/

namespace TypedPipeline

/-- A bind on the spot: if it is refused, the bindings stay. -/
def Bindings.attempt (b : Bindings) (c : Channel) (l : List Artifact) :
    Except ContractError Unit × Bindings :=
  match b.bind c l with
  | .ok b' => (.ok (), b')
  | .error e => (.error e, b)

namespace Channel

variable {c : Channel} {l : List Artifact} {σ α : Type}

/-! ### One bind

The check stops at the first artifact of a wrong type. If there is none, one entry is replaced, and
what was there before is gone. A bind does not add to what is held. -/

/-- The first artifact that does not fit is reported, wherever it stands. Those behind it are not
looked at. -/
theorem misfit?_eq_some {e : ContractError} (h : c.misfit? l = some e) :
    ∃ first a rest, l = first ++ a :: rest ∧ (∀ b ∈ first, b.type = c.type) ∧ a.type ≠ c.type ∧
      e = .typeMismatch (.channel c.id) c.type.name a.type.name := by
  obtain ⟨a, ha, rfl⟩ := Option.map_eq_some_iff.mp h
  obtain ⟨hbad, first, rest, rfl, hfirst⟩ := List.find?_eq_some_iff_append.mp ha
  exact ⟨first, a, rest, rfl, by simpa using hfirst, by simpa using hbad, rfl⟩

/-- What an attempt to bind the artifacts `l` to `c` has done to a place that `shows` something for
every channel, and has to show `value` for `c` afterwards. -/
structure Attempted (c : Channel) (l : List Artifact) (shows : σ → Channel → α) (value : α)
    (before : σ) (result : Except ContractError Unit × σ) : Prop where
  /-- Artifacts of the right type are taken, and no others. -/
  ok_iff : result.1 = .ok () ↔ ∀ a ∈ l, a.type = c.type
  bound : result.1 = .ok () → shows result.2 c = value
  /-- For the other channels nothing changes in any case. -/
  others : ∀ d : Channel, d.id ≠ c.id → shows result.2 d = shows before d
  /-- A refusal leaves all as it was, and reports the first artifact of another type. -/
  refused : ∀ e, result.1 = .error e → result.2 = before ∧
    ∃ first a rest, l = first ++ a :: rest ∧ (∀ b ∈ first, b.type = c.type) ∧ a.type ≠ c.type ∧
      e = .typeMismatch (.channel c.id) c.type.name a.type.name

/-- Whoever asks for a misfit and then changes one entry has bound as it should be. Both binds have
this form. -/
theorem attempted_of_misfit {shows : σ → Channel → α} {value : α} {before : σ} (after : σ)
    {result : Except ContractError Unit × σ}
    (hresult : result = match c.misfit? l with
      | some e => (.error e, before)
      | none => (.ok (), after))
    (hafter : ∀ d, shows after d = if d.id = c.id then value else shows before d) :
    c.Attempted l shows value before result := by
  subst hresult
  cases hmisfit : c.misfit? l with
  | none =>
    have hfits := misfit?_eq_none_iff.mp hmisfit
    refine ⟨iff_of_true rfl hfits, fun _ => ?_, fun d hd => ?_, fun e he => nomatch he⟩
    · show shows after c = value
      rw [hafter c, if_pos rfl]
    · show shows after d = shows before d
      rw [hafter d, if_neg hd]
  | some e =>
    have hmisfits : ¬ ∀ a ∈ l, a.type = c.type := by
      intro hfits
      rw [misfit?_eq_none_iff.mpr hfits] at hmisfit
      cases hmisfit
    refine ⟨iff_of_false nofun hmisfits, nofun, fun d _ => rfl, fun e' he => ?_⟩
    cases he
    exact ⟨rfl, misfit?_eq_some hmisfit⟩

/-- There is an only artifact exactly if there is one artifact. The other answers say how many there
are. -/
theorem single?_ok_iff {a : Artifact} : c.single? l = .ok a ↔ l = [a] := by
  match l with
  | [] => simp [single?]
  | [b] => simp [single?]
  | b :: b' :: rest => simp [single?]

end Channel

/-- A bind to a channel, in the store. -/
theorem Store.attempted_bind (s : Store) (c : Channel) (l : List Artifact) :
    c.Attempted l Store.channel { s.channel c with held := l } s
      ((StoreM.update fun s => s.bind c l : StoreM ContractError Unit) s) := by
  refine Channel.attempted_of_misfit (s.setChannel c { s.channel c with held := l }) ?_
    (s.channel_setChannel c · _)
  show StoreM.update _ s = _
  unfold StoreM.update bind
  cases c.misfit? l <;> rfl

/-- A bind to a channel, in the bindings of a run. -/
theorem Bindings.attempted_bind (b : Bindings) (c : Channel) (l : List Artifact) :
    c.Attempted l Bindings.find? (some l) b (b.attempt c l) := by
  refine Channel.attempted_of_misfit ⟨b.bound.insert c.id l⟩ ?_ fun d => ?_
  · rw [attempt, bind]
    cases c.misfit? l <;> rfl
  · exact SortedMap.find?_insert ..

/-! ### All steps

The invariant of types is known already. What is new here is which step may change what a channel
holds, and that is said of single steps, since a run of many steps may have many binds in it. -/

theorem Store.Grows.held {s s' : Store} (h : s.Grows s') (c : Channel) :
    (s'.channel c).held = (s.channel c).held := by
  rw [Store.channel_congr h.channels]

/-- A call changes what channels hold only if it is a bind to one of them. -/
theorem Session.Step.held {w w' : Session} (hw : w.Sound) (h : w.Step w') :
    (∀ c, (w'.store.channel c).held = (w.store.channel c).held) ∨
      ∃ c ∈ w.channels, ∃ l s, w.store.bind c l = .ok s ∧ w' = { w with store := s } := by
  cases h with
  | newChannel type =>
    left
    intro c
    rw [Store.channel_newChannel_of_fresh hw.fresh]
  | newArtifact type staging state =>
    exact .inl (Store.grows_newArtifact w.store type staging state).held
  | change ha op => exact .inl (Store.grows_change w.store _ op).held
  | bind hc hl hb => exact .inr ⟨_, hc, _, _, hb, rfl⟩
  | build hread hgiven hb => exact .inl (ComponentDraft.unchanged_of_build hw.fresh hb).2
  | buildFails hread hgiven hb => exact .inl (ComponentDraft.unchanged_of_build hw.fresh hb).2
  | run host r p runId machine => exact .inl (r.grows_run host p runId w.store machine).held
  | note e => exact .inl (Store.grows_note w.store e).held
  | scope scope => exact .inl fun _ => rfl

namespace Workbench

variable {w w' : Workbench}

/-- What is kept for a channel of the session has the type of the channel. -/
structure Orderly (w : Workbench) : Prop where
  /-- In the channels themselves. -/
  held : ∀ c ∈ w.session.channels, ∀ a ∈ (w.session.store.channel c).held, a.type = c.type
  /-- In all bindings. -/
  bound : ∀ b ∈ w.bindings, ∀ c ∈ w.session.channels, ∀ a ∈ b.artifacts c, a.type = c.type

/-- Each artifact was compared with some channel of the same number, and there is only one. -/
theorem Sound.orderly (hw : w.Sound) : w.Orderly where
  held c hc a ha := by
    obtain ⟨d, hd, hid, htype⟩ := hw.typed.held c a ha
    rw [htype, hw.typed.channel_eq d hd c hc hid]
  bound b hb c hc a ha := by
    obtain ⟨-, d, hd, hid, htype⟩ := hw.bindings b hb c a ha
    rw [htype, hw.typed.channel_eq d hd c hc hid]

/-- What is done with bindings and requests leaves alone what channels hold: of all steps, only a
bind to a channel changes it. That bind leaves alone all bindings and requests. So a run that was
seeded from a channel keeps what it was seeded with. -/
theorem Step.held (hw : w.Sound) (h : Step w w') :
    (∀ c, (w'.session.store.channel c).held = (w.session.store.channel c).held) ∨
      ∃ c ∈ w.session.channels, ∃ l s, w.session.store.bind c l = .ok s ∧
        w' = { w with session := { w.session with store := s } } := by
  cases h with
  | call hcall =>
    rcases hcall.held hw.session with hsame | ⟨c, hc, l, s, hb, rfl⟩
    · exact .inl hsame
    · exact .inr ⟨c, hc, l, s, hb, rfl⟩
  | prepare hk hb hprepare => exact .inl (Component.grows_of_prepare hprepare).held
  | prepareFails hk hb hprepare => exact .inl (Component.grows_of_prepare hprepare).held
  | invoke host hr executor machine =>
    exact .inl (Request.grows_invoke host _ executor _ machine).held
  | bindings | seed _ | bind _ _ _ _ | publish _ _ => exact .inl fun _ => rfl

/-- On every workbench, whatever a channel holds and whatever bindings have for it is of its type. A
bind to a channel or in bindings is refused if the type of some artifact is wrong, and has then
changed nothing; otherwise what was given is found there, in order, and nothing else has changed.
The only artifact is given exactly if there is one. To prepare a component or to invoke an executor
leaves all channels alone, and of all steps only a bind to a channel changes what channels hold. -/
theorem orderly_of_reachable (hw : w.Reachable) :
    w.Orderly ∧
    (∀ (c : Channel) l, c.Attempted l Store.channel { w.session.store.channel c with held := l }
      w.session.store
      ((StoreM.update fun s => s.bind c l : StoreM ContractError Unit) w.session.store)) ∧
    (∀ b ∈ w.bindings, ∀ (c : Channel) l, c.Attempted l Bindings.find? (some l) b (b.attempt c l)) ∧
    (∀ c a, w.session.store.single? c = .ok a ↔ (w.session.store.channel c).held = [a]) ∧
    (∀ b ∈ w.bindings, ∀ c a, b.single? c = .ok a ↔ b.artifacts c = [a]) ∧
    (∀ (k : Component) (b : Bindings) (runId root : String),
      (k.prepare runId root b w.session.store).2.channels = w.session.store.channels) ∧
    (∀ {W : Type} (host : Host (StateM W)) (r : Request) (executor : Executor) (machine : W),
      (r.invoke host executor w.session.store machine).1.2.channels = w.session.store.channels) ∧
    ∀ w', Step w w' →
      (∀ c, (w'.session.store.channel c).held = (w.session.store.channel c).held) ∨
        ∃ c ∈ w.session.channels, ∃ l s, w.session.store.bind c l = .ok s ∧
          w' = { w with session := { w.session with store := s } } := by
  have hsound := hw.sound
  refine ⟨hsound.orderly, fun c l => w.session.store.attempted_bind c l,
    fun b _ c l => b.attempted_bind c l, fun c a => Channel.single?_ok_iff,
    fun b _ c a => Channel.single?_ok_iff, fun k b runId root => ?_,
    fun host r executor machine => ?_, fun w' h => h.held hsound⟩
  · exact (Component.grows_of_prepare (Prod.mk.eta (p := k.prepare runId root b _)).symm).channels
  · exact (Request.grows_invoke host r executor _ machine).channels

end Workbench

/-- An artifact that is no table. -/
def Relay.image : Artifact := ⟨⟨4⟩, ⟨"Image", by decide⟩, none⟩

/-- A table followed by something else is refused, two tables are bound to the second channel only,
and the only artifact there before was the one that was published. -/
theorem Workbench.orderly_of_reachable_relay :
    Relay.hasty.Reachable ∧ Relay.hasty.Orderly ∧
      (∃ e, (StoreM.update fun s => s.bind (Relay.channel 1) [Relay.artifact 1, Relay.image] :
          StoreM ContractError Unit) Relay.hasty.session.store =
        (.error e, Relay.hasty.session.store)) ∧
      ∃ b ∈ Relay.hasty.bindings, b.single? (Relay.channel 2) = .ok Relay.made ∧
        (b.attempt (Relay.channel 2) [Relay.artifact 1, Relay.artifact 2]).1 = .ok () ∧
        (b.attempt (Relay.channel 2) [Relay.artifact 1, Relay.artifact 2]).2.find?
          (Relay.channel 2) = some [Relay.artifact 1, Relay.artifact 2] ∧
        (b.attempt (Relay.channel 2) [Relay.artifact 1, Relay.artifact 2]).2.find?
          (Relay.channel 1) = b.find? (Relay.channel 1) := by
  obtain ⟨horderly, hstore, hbindings, -, hsingle, -⟩ := orderly_of_reachable Relay.reachable_hasty
  refine ⟨Relay.reachable_hasty, horderly, ?_, (Relay.request.publish Relay.seeded).1,
    List.mem_cons_self, ?_⟩
  · have hrefused := hstore (Relay.channel 1) [Relay.artifact 1, Relay.image]
    generalize (StoreM.update _ : StoreM ContractError Unit) Relay.hasty.session.store = result
      at hrefused
    obtain ⟨e | done, s⟩ := result
    · exact ⟨e, congrArg (Prod.mk _) (hrefused.refused e rfl).1⟩
    · exact absurd (hrefused.ok_iff.mp rfl) (by decide)
  · have hbound := hbindings _ List.mem_cons_self (Relay.channel 2)
      [Relay.artifact 1, Relay.artifact 2]
    have hok := hbound.ok_iff.mpr (by decide)
    exact ⟨(hsingle _ List.mem_cons_self (Relay.channel 2) Relay.made).mpr rfl, hok,
      hbound.bound hok, hbound.others (Relay.channel 1) (by decide)⟩

end TypedPipeline
