import TypedPipeline.Proofs.Run.Handout
import TypedPipeline.Proofs.Run.Resolution
import TypedPipeline.Proofs.Session.Typing

/-!
# Workbenches

Not everyone leaves runs to a pipeline. A caller may seed bindings and bind artifacts in them by
hand, prepare components, invoke executors and publish outputs, each step when and as often as it
likes: outputs may be published before their executor is invoked, or after it has failed. A
workbench is what such a caller has, a session together with bindings and requests.

Whatever the caller does, what is bound to a channel has the type of the channel, since all binding
goes through one check.

## Implementation notes

Everything that was ever there stays on a workbench: bindings that were changed stand beside the old
ones, since a caller may have kept a copy, and requests can be used again. So the steps have hardly
any conditions, and what is proved holds for callers who do strange things in a strange order.

`Within` ties bindings and requests to a session: what is bound is an artifact of the session and
has the type of the channel, and a request publishes into channels of the session. Publishing is a
sequence of binds that may stop in the middle, and what single binds keep is kept by it
(`Request.publishAll_induction`).

`Keeps` says that a session has only got more. It is what the statements about requests need that
speak of later moments.

## Main definitions

* `Workbench`, `Workbench.Step`, `Workbench.Reachable` — what the caller has, and what it may do
* `Bindings.Within`, `Request.Within` — bindings and requests that speak of a session
* `Workbench.Sound` — what holds on every workbench

## Main results

* `Bindings.Within.seed`, `Bindings.Within.bind`, `Bindings.Within.publish` — how bindings come
  about
* `Workbench.Sound.step`, `Workbench.Reachable.sound` — one step, and all steps from the beginning
* `Workbench.keeps_of_steps` — nothing is taken away
-/

namespace TypedPipeline

/-- A session with bindings and requests. Bindings that were changed stand beside those that they
come from, as copies do. -/
structure Workbench where
  session : Session := {}
  bindings : List Bindings := []
  requests : List Request := []

namespace Workbench

/-- The workbench once a component was prepared. The artifacts for its outputs can be reached
through the request. -/
def prepared (w : Workbench) (r : Request) (s : Store) : Workbench where
  session := { w.session with
    store := s
    artifacts := r.outputs.values.flatten ++ w.session.artifacts }
  bindings := w.bindings
  requests := r :: w.requests

/-- What the caller may do. -/
inductive Step : Workbench → Workbench → Prop where
  | call (w : Workbench) {session : Session} (h : w.session.Step session) :
      Step w { w with session }
  | bindings (w : Workbench) : Step w { w with bindings := {} :: w.bindings }
  | seed (w : Workbench) {l : List Channel} (hl : ∀ c ∈ l, c ∈ w.session.channels) :
      Step w { w with bindings := w.session.store.seed l :: w.bindings }
  | bind (w : Workbench) {b b' : Bindings} {c : Channel} {l : List Artifact} (hb : b ∈ w.bindings)
      (hc : c ∈ w.session.channels) (hl : ∀ a ∈ l, a ∈ w.session.artifacts)
      (h : b.bind c l = .ok b') : Step w { w with bindings := b' :: w.bindings }
  | prepare (w : Workbench) {k : Component} {b : Bindings} {runId root : String} {r : Request}
      {s : Store} (hk : k ∈ w.session.components) (hb : b ∈ w.bindings)
      (h : k.prepare runId root b w.session.store = (.ok r, s)) : Step w (w.prepared r s)
  | prepareFails (w : Workbench) {k : Component} {b : Bindings} {runId root : String}
      {e : ExecutionError} {s : Store} (hk : k ∈ w.session.components) (hb : b ∈ w.bindings)
      (h : k.prepare runId root b w.session.store = (.error e, s)) :
      Step w { w with session := { w.session with store := s } }
  | invoke (w : Workbench) {W : Type} (host : Host (StateM W)) {r : Request} (hr : r ∈ w.requests)
      (executor : Executor) (machine : W) :
      Step w { w with session := { w.session with
        store := (r.invoke host executor w.session.store machine).1.2 } }
  | publish (w : Workbench) {r : Request} {b : Bindings} (hr : r ∈ w.requests)
      (hb : b ∈ w.bindings) : Step w { w with bindings := (r.publish b).1 :: w.bindings }

/-- Steps lead from the beginning to this workbench. -/
def Reachable (w : Workbench) : Prop := Relation.ReflTransGen Step {} w

/-- All that calls lead to can be had on a workbench. No bindings and no requests are needed for
it. -/
theorem reachable_of_session {w : Session} (h : w.Reachable) : Reachable { session := w } := by
  have hcall : ∀ w w' : Session, w.Step w' →
      Step { session := w } { session := w' } := fun w _ hs => .call { session := w } hs
  exact h.lift (fun session => ({ session } : Workbench)) hcall

end Workbench

/-! ### Bindings of a session

All binding goes through one check, so an invariant that the check gives is kept by whatever is
built upon it. -/

/-- What is bound are artifacts of the session, to channels of the session that have their types.
Nothing is said of locations. -/
def Bindings.Within (b : Bindings) (w : Session) : Prop :=
  ∀ c, ∀ a ∈ b.artifacts c, a ∈ w.artifacts ∧ ∃ d ∈ w.channels, d.id = c.id ∧ a.type = d.type

/-- A bind succeeds if the artifacts fit, and changes what is bound to one channel. -/
theorem Bindings.bind_ok_iff {b b' : Bindings} {c : Channel} {l : List Artifact} :
    b.bind c l = .ok b' ↔ (∀ a ∈ l, a.type = c.type) ∧ b' = ⟨b.bound.insert c.id l⟩ := by
  rw [bind, ← Channel.misfit?_eq_none_iff]
  cases c.misfit? l <;> simp [eq_comm]

/-- What single binds keep is kept when outputs are published, even if that fails on the way. -/
theorem Request.publishAll_induction {P : Bindings → Prop} {outputs : TextMap (List Artifact)}
    {l : List (String × Channel)} {b : Bindings} (hb : P b)
    (hbind : ∀ e ∈ l, ∀ b b', P b → b.bind e.2 ((outputs.find? e.1).getD []) = .ok b' → P b') :
    P (publishAll outputs b l).1 := by
  induction l generalizing b with
  | nil => exact hb
  | cons e rest ih =>
    rw [List.forall_mem_cons] at hbind
    rw [publishAll]
    cases h : b.bind e.2 ((outputs.find? e.1).getD []) with
    | error error => exact hb
    | ok b' => exact ih (hbind.1 b b' hb h) hbind.2

/-- The outputs of the request are artifacts of the session, and are published into its channels. -/
structure Request.Within (r : Request) (w : Session) : Prop where
  outputs : ∀ e ∈ r.outputs.entries, ∀ a ∈ e.2, a ∈ w.artifacts
  targets : ∀ c ∈ r.targets.values, c ∈ w.channels

theorem Request.Within.mono {r : Request} {w w' : Session} (h : r.Within w) (hw : w.Keeps w') :
    r.Within w' where
  outputs e he a ha := hw.artifacts a (h.outputs e he a ha)
  targets c hc := hw.channels c (h.targets c hc)

namespace Bindings.Within

variable {b b' : Bindings} {w w' : Session}

theorem mono (h : b.Within w) (hw : w.Keeps w') : b.Within w' := by
  intro c a ha
  obtain ⟨hmem, d, hd, htype⟩ := h c a ha
  exact ⟨hw.artifacts a hmem, d, hw.channels d hd, htype⟩

theorem empty (w : Session) : Within {} w := by
  intro c a ha
  cases ha

/-- What channels hold are artifacts of their types. -/
theorem seed (hw : w.Sound) (ht : w.Typed) (channels : List Channel) :
    (w.store.seed channels).Within w := by
  intro c a ha
  rw [artifacts, Store.find?_seed] at ha
  split at ha
  · exact ⟨hw.held c a ha, ht.held c a ha⟩
  · cases ha

theorem bind (h : b.Within w) {c : Channel} {l : List Artifact} (hc : c ∈ w.channels)
    (hl : ∀ a ∈ l, a ∈ w.artifacts) (hb : b.bind c l = .ok b') : b'.Within w := by
  obtain ⟨htypes, rfl⟩ := bind_ok_iff.mp hb
  intro d a ha
  rw [artifacts, find?, SortedMap.find?_insert] at ha
  split at ha
  · rename_i hid
    exact ⟨hl a ha, c, hc, hid.symm, htypes a ha⟩
  · exact h d a ha

theorem publish (h : b.Within w) {r : Request} (hr : r.Within w) : (r.publish b).1.Within w := by
  refine Request.publishAll_induction (P := fun b => b.Within w) h fun e he b b' hb hbind => ?_
  refine hb.bind (hr.targets e.2 (SortedMap.mem_values.mpr ⟨e.1, he⟩)) (fun a ha => ?_) hbind
  cases hfield : r.outputs.find? e.1 with
  | none =>
    rw [hfield] at ha
    cases ha
  | some l =>
    rw [hfield] at ha
    exact hr.outputs (e.1, l) (SortedMap.find?_eq_some_iff.mp hfield) a ha

end Bindings.Within

/-! ### Preparing and invoking -/

theorem Component.grows_of_prepare {k : Component} {runId root : String} {b : Bindings}
    {s s' : Store} {result : Except ExecutionError Request}
    (h : k.prepare runId root b s = (result, s')) : s.Grows s' := by
  rcases k.prepare_cases runId root b s with ⟨e, he⟩ | ⟨r, s'', hr, hprepared⟩
  · cases h.symm.trans he
    exact .refl s
  · cases h.symm.trans hr
    exact hprepared.grows

theorem Request.grows_invoke {W : Type} (host : Host (StateM W)) (r : Request) (executor : Executor)
    (s : Store) (machine : W) : s.Grows (r.invoke host executor s machine).1.2 := by
  obtain ⟨result, s', machine', hinvoke, hgrows, -⟩ := r.invoke_spec host executor s machine
  rw [hinvoke]
  exact hgrows

namespace Workbench

variable {w w' : Workbench}

/-! ### What holds on every workbench -/

/-- What holds on every workbench. -/
structure Sound (w : Workbench) : Prop where
  session : w.session.Sound
  typed : w.session.Typed
  bindings : ∀ b ∈ w.bindings, b.Within w.session
  requests : ∀ r ∈ w.requests, r.Within w.session

namespace Sound

theorem start : Sound {} where
  session := .start
  typed := .start
  bindings := by simp
  requests := by simp

/-- Bindings and requests stay where nothing is taken from the session. -/
theorem withSession (h : w.Sound) {session : Session} (hs : session.Sound) (ht : session.Typed)
    (hkeeps : w.session.Keeps session) : Sound { w with session } where
  session := hs
  typed := ht
  bindings b hb := (h.bindings b hb).mono hkeeps
  requests r hr := (h.requests r hr).mono hkeeps

theorem grows (h : w.Sound) {s : Store} (hs : w.session.store.Grows s) :
    Sound { w with session := { w.session with store := s } } :=
  h.withSession (h.session.grows hs) (h.typed.grows hs) (h.session.keeps_of_grows hs)

theorem withBindings (h : w.Sound) {b : Bindings} (hb : b.Within w.session) :
    Sound { w with bindings := b :: w.bindings } :=
  { h with bindings := List.forall_mem_cons.mpr ⟨hb, h.bindings⟩ }

theorem known (h : w.Sound) {b : Bindings} (hb : b ∈ w.bindings) :
    ∀ c, ∀ a ∈ b.artifacts c, a.id.number < w.session.store.nextArtifact :=
  fun c a ha => h.session.artifact_lt a (h.bindings b hb c a ha).1

/-- What a request hands out, and where its outputs go. Both are known from the component and the
bindings. -/
theorem handsOut (h : w.Sound) {k : Component} {b : Bindings} (hb : b ∈ w.bindings)
    {runId root : String} {r : Request} {s : Store}
    (hprepare : k.prepare runId root b w.session.store = (.ok r, s)) :
    k.HandsOut runId root b w.session.store s r :=
  Component.handsOut_of_prepare (h.known hb) hprepare

theorem keeps_prepared (h : w.Sound) {r : Request} {s : Store} (hs : w.session.store.Grows s) :
    w.session.Keeps (w.prepared r s).session :=
  { Session.Keeps.refl w.session with
    artifacts := fun _ ha => List.mem_append_right _ ha
    populated := h.session.populated_of_grows hs }

theorem prepared (h : w.Sound) {k : Component} {b : Bindings} (hk : k ∈ w.session.components)
    (hb : b ∈ w.bindings) {runId root : String} {r : Request} {s : Store}
    (hprepare : k.prepare runId root b w.session.store = (.ok r, s)) :
    Sound (w.prepared r s) := by
  have hgrows := Component.grows_of_prepare hprepare
  have hout := h.handsOut hb hprepare
  have hmade : ∀ a ∈ r.outputs.values.flatten, a.id.number < s.nextArtifact := by
    intro a ha
    obtain ⟨l, hl, ha⟩ := List.mem_flatten.mp ha
    obtain ⟨field, hfield⟩ := SortedMap.mem_values.mp hl
    exact (hout.new (field, l) hfield a ha).2
  -- The artifacts of the outputs are added first: the request speaks of them.
  have hkept := h.withSession ((h.session.grows hgrows).moreArtifacts hmade)
    { h.typed.grows hgrows with } (h.keeps_prepared (r := r) hgrows)
  refine { hkept with requests := List.forall_mem_cons.mpr ⟨⟨?_, ?_⟩, hkept.requests⟩ }
  · intro e he a ha
    have hl : e.2 ∈ r.outputs.values := SortedMap.mem_values.mpr ⟨e.1, he⟩
    exact List.mem_append_left _ (List.mem_flatten.mpr ⟨e.2, hl, ha⟩)
  · intro c hc
    rw [hout.targets] at hc
    exact h.session.output_mem k hk c hc

/-- One step keeps what holds on every workbench. -/
theorem step (h : w.Sound) (hs : Step w w') : w'.Sound := by
  cases hs with
  | call hcall =>
    exact h.withSession (h.session.step hcall) (h.typed.step h.session hcall)
      (hcall.keeps h.session)
  | bindings => exact h.withBindings (.empty w.session)
  | seed hl => exact h.withBindings (.seed h.session h.typed _)
  | bind hb hc hl hbind => exact h.withBindings ((h.bindings _ hb).bind hc hl hbind)
  | prepare hk hb hprepare => exact h.prepared hk hb hprepare
  | prepareFails hk hb hprepare => exact h.grows (Component.grows_of_prepare hprepare)
  | invoke host hr executor machine =>
    exact h.grows (Request.grows_invoke host _ executor _ machine)
  | publish hr hb => exact h.withBindings ((h.bindings _ hb).publish (h.requests _ hr))

end Sound

/-- What holds on every workbench holds on this one. -/
theorem Reachable.sound (h : w.Reachable) : w.Sound := by
  induction h with
  | refl => exact .start
  | tail _ hs ih => exact ih.step hs

/-! ### What stays

Nothing is taken from a caller by any step, so what was found once can be counted on later. -/

/-- A step takes nothing away. -/
theorem Step.keeps (hw : w.Sound) (h : Step w w') : w.session.Keeps w'.session := by
  cases h with
  | call hcall => exact hcall.keeps hw.session
  | prepare hk hb hprepare => exact hw.keeps_prepared (Component.grows_of_prepare hprepare)
  | prepareFails hk hb hprepare =>
    exact hw.session.keeps_of_grows (Component.grows_of_prepare hprepare)
  | invoke host hr executor machine =>
    exact hw.session.keeps_of_grows (Request.grows_invoke host _ executor _ machine)
  | bindings | seed _ | bind _ _ _ _ | publish _ _ => exact .refl w.session

/-- Steps take nothing away, however many there are. -/
theorem keeps_of_steps (hw : w.Sound) (h : Relation.ReflTransGen Step w w') :
    w'.Sound ∧ w.session.Keeps w'.session := by
  induction h with
  | refl => exact ⟨hw, .refl w.session⟩
  | tail _ hs ih => exact ⟨ih.1.step hs, ih.2.trans (hs.keeps ih.1)⟩

end Workbench

end TypedPipeline
