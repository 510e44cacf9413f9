import TypedPipeline.Proofs.Run.Contents

/-!
# Runs side by side

Several runs of one pipeline share the store: the channels, what these hold, and the numbers that
are given out next. Each run has bindings of its own. Here any number of runs go on at the same
time, and whoever schedules them picks, again and again, a run and a component of it, which is then
taken one step further: it is prepared, or its executor is invoked, or its outputs are published.
The local runner takes these three steps of one component after the other; schedulers need not.

What keeps runs apart is that new artifacts have new numbers, and that an executor changes nothing
but the outputs of its own request. All that a run has bound or handed out was there when the runs
began, or is an output of the run itself whose executor has ended.

## Implementation notes

A step is one of three, and what a scheduler does between them is not restricted. It may prepare a
component before those that feed it are done; then the component reads what is bound at that time,
or is refused. It may also never come back to a component. All this is part of a schedule, and what
is shown here holds for every one.

`Runs.Sound` is the invariant. An artifact may be in the hands of a run if it was there at the
beginning or was left by an executor of this run; this is `Runs.Sees`. Outputs whose executors are
still to be invoked are in nobody's hands, and they are the only artifacts that a step can change.
That these two sets are disjoint is the whole argument: `Runs.Sound.not_awaits`.

A step of a component does not know of the other runs. It is described by `Task.Step`, which has the
artifacts in the hands of its run as a parameter, and `Runs.Sound.put` puts any such step into its
place among the others. So a new kind of step would need one new case of `Component.Advances` and
nothing else.

## Main definitions

* `Task`, `Component.advance` — how far a component has come in a run, and one step of it
* `Runs`, `Runs.advance`, `Runs.follow` — runs side by side, one step, and a schedule
* `Runs.Sound` — what holds at every moment

## Main results

* `Component.execute_eq_advance` — the local runner takes these steps
* `Component.advance_cases` — what one step can do
* `Runs.Sound.advance` — one step keeps what holds at every moment
-/

namespace TypedPipeline

/-! ### Tasks

A task is where a component stands in one run. From its request one can tell which artifacts were
made for it, and from the kind of task which of these may still change. -/

/-- How far a component has come in a run. The type of requests is a parameter, so that there are
tasks with requests by sight as well. -/
inductive Task (ρ : Type) where
  | idle
  | refused (error : ExecutionError)
  | prepared (request : ρ)
  | invoked (request : ρ) (result : Except ExecutionError Unit)
  | published (request : ρ) (result : Except ContractError Unit)

namespace Task

/-- The request of a component that was prepared. -/
def request? {ρ : Type} : Task ρ → Option ρ
  | idle | refused _ => none
  | prepared r | invoked r _ | published r _ => some r

/-- The request of a component whose executor has ended. -/
def ended? {ρ : Type} : Task ρ → Option ρ
  | idle | refused _ | prepared _ => none
  | invoked r _ | published r _ => some r

/-- The request of a component whose executor has not been invoked yet. -/
def pending? {ρ : Type} : Task ρ → Option ρ
  | prepared r => some r
  | _ => none

theorem request?_of_ended? {ρ : Type} {t : Task ρ} {r : ρ} (h : t.ended? = some r) :
    t.request? = some r := by
  cases t <;> simp_all [ended?, request?]

theorem request?_of_pending? {ρ : Type} {t : Task ρ} {r : ρ} (h : t.pending? = some r) :
    t.request? = some r := by
  cases t <;> simp_all [pending?, request?]

theorem pending?_of_ended? {ρ : Type} {t : Task ρ} {r : ρ} (h : t.ended? = some r) :
    t.pending? = none := by
  cases t <;> simp_all [ended?, pending?]

/-- The artifact was made for an output of the component. -/
def Makes (t : Task Request) (a : Artifact) : Prop := ∃ r, t.request? = some r ∧ r.Makes a

/-- The artifact was made for an output of the component, and the executor has ended. -/
def Leaves (t : Task Request) (a : Artifact) : Prop := ∃ r, t.ended? = some r ∧ r.Makes a

/-- The artifact was made for an output of the component, and the executor has not been invoked
yet. -/
def Awaits (t : Task Request) (a : Artifact) : Prop := ∃ r, t.pending? = some r ∧ r.Makes a

theorem Leaves.makes {t : Task Request} {a : Artifact} (h : t.Leaves a) : t.Makes a := by
  obtain ⟨r, hr, ha⟩ := h
  exact ⟨r, request?_of_ended? hr, ha⟩

theorem Awaits.makes {t : Task Request} {a : Artifact} (h : t.Awaits a) : t.Makes a := by
  obtain ⟨r, hr, ha⟩ := h
  exact ⟨r, request?_of_pending? hr, ha⟩

theorem Leaves.not_awaits {t : Task Request} {a : Artifact} (h : t.Leaves a) : ¬ t.Awaits a := by
  rintro ⟨r, hr, -⟩
  obtain ⟨r', hr', -⟩ := h
  rw [pending?_of_ended? hr'] at hr
  cases hr

end Task

/-- The artifact is bound to a channel. -/
def Bindings.Holds (b : Bindings) (a : Artifact) : Prop := ∃ e ∈ b.bound.entries, a ∈ e.2

theorem Bindings.holds_of_mem_artifacts {b : Bindings} {d : Channel} {a : Artifact}
    (h : a ∈ b.artifacts d) : b.Holds a := by
  rw [artifacts, find?] at h
  cases hd : b.bound.find? d.id with
  | none => simp [hd] at h
  | some l => exact ⟨(d.id, l), SortedMap.find?_eq_some_iff.mp hd, by simpa [hd] using h⟩

/-- What a component needs in a run to be taken further: the outputs that its executor is still to
make have not been handed to anyone else. It is said of one task, so a component can be taken
further without looking at other runs. -/
structure Task.Guarded (t : Task Request) (b : Bindings) (s : Store) : Prop where
  bound : ∀ a, b.Holds a → a.id.number < s.nextArtifact ∧ ¬ t.Awaits a
  read : ∀ r, t.request? = some r →
    ∀ e ∈ r.inputs.entries, ∀ a ∈ e.2, a.id.number < s.nextArtifact ∧ ¬ t.Awaits a
  made : ∀ a, t.Makes a → a.id.number < s.nextArtifact
  ready : ∀ r, t.pending? = some r → r.handed.Ready s

theorem Task.Guarded.known {t : Task Request} {b : Bindings} {s : Store} (h : t.Guarded b s) :
    b.Known s := fun _ a ha => (h.bound a (Bindings.holds_of_mem_artifacts ha)).1

/-! ### One step of a component

The step is defined as a program, as the runner is, so that it can be compared with what the runner
does. The cases in which it can end are listed afterwards. -/

/-- Takes a component one step further in a run. A component that is done or has failed stays as it
is. -/
def Component.advance {m : Type → Type} [Monad m] (host : Host m) (c : Component)
    (runId root : String) (b : Bindings) :
    Task Request → StateT Store m (Task Request × Bindings)
  | .idle => do
    match ← modifyGet (c.prepare runId root b).run.run with
    | .error e => pure (.refused e, b)
    | .ok r => pure (.prepared r, b)
  | .prepared r => do
    let result ← r.invoke host c.executor
    pure (.invoked r result, b)
  | .invoked r (.ok ()) =>
    let (b, result) := r.publish b
    pure (.published r result, b)
  | t => pure (t, b)

/-- What came of a component that is done or has failed. -/
def Task.outcome? (c : Component) (s : Store) :
    Task Request → Option (Except Fault (TextMap (List ArtifactRecord)))
  | .refused e => some (.error ⟨[s!"Failed to resolve inputs for '{c.name}'"], .execution e⟩)
  | .invoked _ (.error e) => some (.error ⟨[s!"Component '{c.name}' failed"], .execution e⟩)
  | .published _ (.error e) =>
    some (.error ⟨[s!"Failed to publish outputs of '{c.name}'"], .execution (.contract e)⟩)
  | .published r (.ok ()) => some (.ok (r.outputRecords s))
  | _ => none

variable {W : Type} (host : Host (StateM W))

namespace Component

variable {c : Component} {runId root : String} {b : Bindings} {s : Store} {w : W}

theorem advance_idle :
    c.advance host runId root b .idle s w =
      match c.prepare runId root b s with
      | (.error e, s') => (((.refused e, b), s'), w)
      | (.ok r, s') => (((.prepared r, b), s'), w) := by
  rw [advance, machine_bind_apply, machine_modifyGet_apply]
  have hrun : (c.prepare runId root b).run.run s = c.prepare runId root b s := rfl
  rw [hrun]
  rcases c.prepare runId root b s with ⟨e | r, s'⟩ <;> rfl

theorem advance_prepared {r : Request} :
    c.advance host runId root b (.prepared r) s w =
      (((.invoked r (r.invoke host c.executor s w).1.1, b), (r.invoke host c.executor s w).1.2),
        (r.invoke host c.executor s w).2) := rfl

theorem advance_invoked {r : Request} :
    c.advance host runId root b (.invoked r (.ok ())) s w =
      (((.published r (r.publish b).2, (r.publish b).1), s), w) := rfl

/-- The local runner takes three steps, one after the other. -/
theorem execute_eq_advance (c : Component) (runId root : String) (b : Bindings) :
    (do
      let (outcome, b) ← c.execute host runId root b
      pure (some outcome, b)) = (do
      let (t, b) ← c.advance host runId root b .idle
      let (t, b) ← c.advance host runId root b t
      let (t, b) ← c.advance host runId root b t
      let s ← get
      pure (t.outcome? c s, b)) := by
  funext s w
  simp only [machine_bind_apply]
  rw [advance_idle]
  rcases c.prepare_cases runId root b s with ⟨e, hprepare⟩ | ⟨r, s₁, hprepare, -⟩
  · rw [execute_of_refused host hprepare, hprepare]
    rfl
  · rw [execute_of_prepared host hprepare, hprepare, perform, machine_bind_apply]
    dsimp only
    rw [advance_prepared]
    rcases r.invoke host c.executor s₁ w with ⟨⟨e | done, s₂⟩, w₂⟩
    · rfl
    · dsimp only
      rw [advance_invoked]
      rcases r.publish b with ⟨b', e | done'⟩ <;> rfl

/-- What one step can come to: the task, the bindings and the store after it. A task that is
refused, published or has failed rests. -/
inductive Advances (c : Component) (runId root : String) (b : Bindings) (s : Store) :
    Task Request → Task Request → Bindings → Store → Prop where
  | refused (e : ExecutionError) : Advances c runId root b s .idle (.refused e) b s
  | prepared {r : Request} {s' : Store} (h : c.HandsOut runId root b s s' r) :
      Advances c runId root b s .idle (.prepared r) b s'
  | invoked (r : Request) (result : Except ExecutionError Unit) (s' : Store) :
      Advances c runId root b s (.prepared r) (.invoked r result) b s'
  | published (r : Request) (result : Except ContractError Unit) :
      Advances c runId root b s (.invoked r (.ok ())) (.published r result) (r.publish b).1 s
  | rests {t : Task Request} (h : t.pending? = none) : Advances c runId root b s t t b s

/-- One step comes to one of these, and changes no artifacts but the outputs of a request that is
invoked, if the executor replaces no location. This is where the definition of a step is opened for
the last time. -/
theorem advance_cases (c : Component) (runId root : String) (w : W) {t : Task Request}
    (ht : t.Guarded b s) (hwrites : c.executor.WritesOnce) :
    ∃ t' b' s' w', c.advance host runId root b t s w = (((t', b'), s'), w') ∧
      c.Advances runId root b s t t' b' s' ∧ s.Spares (fun a => ¬ t.Awaits a) s' := by
  cases t with
  | idle =>
    rw [advance_idle]
    rcases c.prepare_cases runId root b s with ⟨e, hprepare⟩ | ⟨r, s₁, hprepare, -⟩
    · rw [hprepare]
      exact ⟨_, _, _, _, rfl, .refused e, .refl s⟩
    · have hout := handsOut_of_prepare ht.known hprepare
      rw [hprepare]
      exact ⟨_, _, _, _, rfl, .prepared hout, hout.spares.mono fun _ _ => trivial⟩
  | refused e => exact ⟨_, _, _, _, rfl, .rests rfl, .refl s⟩
  | prepared r =>
    refine ⟨_, _, _, _, advance_prepared host, .invoked r _ _, ?_⟩
    have hspares := Request.spares_run host (ht.ready r rfl)
      (hwrites r.handed.offer r.parameters) w
    rw [Request.invoke_apply]
    exact hspares.mono fun a ha hmakes => ha ⟨r, rfl, hmakes⟩
  | invoked r result =>
    cases result with
    | error e => exact ⟨_, _, _, _, rfl, .rests rfl, .refl s⟩
    | ok done => exact ⟨_, _, _, _, rfl, .published r _, .refl s⟩
  | published r result => exact ⟨_, _, _, _, rfl, .rests rfl, .refl s⟩

end Component

/-- All that is bound after publishing was bound before or is an output. -/
theorem Request.holds_publish {r : Request} {b : Bindings} {a : Artifact}
    (h : (r.publish b).1.Holds a) : b.Holds a ∨ ∃ e ∈ r.outputs.entries, a ∈ e.2 := by
  suffices hgen : ∀ (l : List (String × Channel)) (b : Bindings),
      (publishAll r.outputs b l).1.Holds a → b.Holds a ∨ ∃ e ∈ r.outputs.entries, a ∈ e.2 from
    hgen _ b h
  intro l
  induction l with
  | nil => exact fun _ => .inl
  | cons e rest ih =>
    intro b h
    rw [publishAll, Bindings.bind] at h
    cases hmisfit : e.2.misfit? ((r.outputs.find? e.1).getD []) with
    | some error =>
      rw [hmisfit] at h
      exact .inl h
    | none =>
      rw [hmisfit] at h
      rcases ih _ h with ⟨f, hf, ha⟩ | hout
      · rcases SortedMap.mem_insertEntry hf with rfl | hf
        · cases hfield : r.outputs.find? e.1 with
          | none => simp [hfield] at ha
          | some l =>
            have hentry := SortedMap.find?_eq_some_iff.mp hfield
            exact .inr ⟨(e.1, l), hentry, by simpa [hfield] using ha⟩
        · exact .inl ⟨f, hf, ha⟩
      · exact .inr hout

/-- What has to be known of one step of a component for others: `sees` says what is in the hands of
its run, and `t`, `b` and `s'` what it has come to. -/
structure Task.Step (sees : Artifact → Prop) (s s' : Store) (before t : Task Request)
    (b : Bindings) : Prop where
  spares : s.Spares (fun a => ¬ before.Awaits a) s'
  makes : ∀ a, t.Makes a → before.Makes a ∨
    s.nextArtifact ≤ a.id.number ∧ a.id.number < s'.nextArtifact
  leaves : ∀ a, before.Leaves a → t.Leaves a
  bound : ∀ a, b.Holds a → sees a ∨ t.Leaves a
  read : ∀ r, t.request? = some r → ∀ e ∈ r.inputs.entries, ∀ a ∈ e.2, sees a
  ready : ∀ r, t.pending? = some r → r.handed.Ready s'

/-- A step brings nothing into the hands of a run but what an executor has left. -/
theorem Component.Advances.step {c : Component} {runId root : String} {b b' : Bindings}
    {s s' : Store} {before t : Task Request} {sees : Artifact → Prop}
    (h : c.Advances runId root b s before t b' s')
    (hspares : s.Spares (fun a => ¬ before.Awaits a) s') (hbound : ∀ a, b.Holds a → sees a)
    (hread : ∀ r, before.request? = some r → ∀ e ∈ r.inputs.entries, ∀ a ∈ e.2, sees a) :
    before.Step sees s s' t b' := by
  cases h with
  | refused e =>
    exact ⟨hspares, fun a ⟨r, hr, _⟩ => (nomatch hr), fun a ⟨r, hr, _⟩ => (nomatch hr),
      fun a ha => .inl (hbound a ha), fun r hr => (nomatch hr), fun r hr => nomatch hr⟩
  | prepared hout =>
    refine ⟨hspares, fun a ha => .inr ?_, fun a ⟨r, hr, _⟩ => (nomatch hr),
      fun a ha => .inl (hbound a ha), fun r hr e he a ha => ?_, fun r hr => ?_⟩
    · obtain ⟨r, hr, e, he, a', ha', hid⟩ := ha
      cases hr
      rw [← hid]
      exact hout.new e he a' ha'
    · cases hr
      rw [hout.inputs] at he
      obtain ⟨f, -, rfl⟩ := List.mem_map.mp he
      exact hbound a (Bindings.holds_of_mem_artifacts ha)
    · cases hr
      exact hout.ready
  | invoked r result =>
    exact ⟨hspares, fun a ha => .inl ha, fun a ⟨r, hr, _⟩ => (nomatch hr),
      fun a ha => .inl (hbound a ha), hread, fun r hr => nomatch hr⟩
  | published r result =>
    refine ⟨hspares, fun a ha => .inl ha, fun a ha => ha, fun a ha => ?_, hread,
      fun r hr => nomatch hr⟩
    rcases Request.holds_publish ha with ha | ⟨e, he, ha⟩
    · exact .inl (hbound a ha)
    · exact .inr ⟨r, rfl, e, he, a, ha, rfl⟩
  | rests hpending =>
    refine ⟨hspares, fun a ha => .inl ha, fun a ha => ha, fun a ha => .inl (hbound a ha), hread,
      fun r hr => ?_⟩
    rw [hpending] at hr
    cases hr

/-- What a request hands out can still be handed out when its artifacts have not changed. -/
theorem Work.Handed.Ready.congr {h : Handed} {s s' : Store} (hr : h.Ready s)
    (hinputs : ∀ e ∈ h.inputs.entries, ∀ a ∈ e.2, s'.artifact a = s.artifact a)
    (houtputs : ∀ e ∈ h.outputs.entries, ∀ a ∈ e.2, s'.artifact a = s.artifact a) :
    h.Ready s' where
  populated e he a ha := by
    rw [hinputs e he a ha]
    exact hr.populated e he a ha
  blank e he := by
    obtain ⟨a, ha, hblank⟩ := hr.blank e he
    exact ⟨a, ha, (houtputs e he a (ha ▸ List.mem_singleton_self a)).trans hblank⟩
  distinct := hr.distinct

/-! ### Runs

Runs are told apart by an arbitrary type, so there may be any number of them. They may have
different ids and roots, or the same ones. -/

/-- Runs of a pipeline with `n` components: what each has bound, and how far it has come with each
component. -/
structure Runs (ι : Type) (n : Nat) where
  bindings : ι → Bindings
  tasks : ι → Fin n → Task Request

namespace Runs

variable {ι : Type} {n : Nat}

/-- Runs that begin with what the declared inputs of a pipeline hold. -/
def start (ι : Type) (p : Pipeline) (s : Store) : Runs ι p.components.size where
  bindings _ := s.seed p.inputs
  tasks _ _ := .idle

section

variable [DecidableEq ι]

/-- One run has come to `t` with one of its components, and has bound `b`. -/
def put (R : Runs ι n) (i : ι) (v : Fin n) (t : Task Request) (b : Bindings) : Runs ι n where
  bindings := Function.update R.bindings i b
  tasks := Function.update R.tasks i (Function.update (R.tasks i) v t)

theorem tasks_put (R : Runs ι n) (i j : ι) (v u : Fin n) (t : Task Request) (b : Bindings) :
    (R.put i v t b).tasks j u = if j = i ∧ u = v then t else R.tasks j u := by
  by_cases hj : j = i
  · subst hj
    by_cases hu : u = v
    · subst hu
      simp [put]
    · simp [put, hu]
  · simp [put, hj]

theorem bindings_put (R : Runs ι n) (i j : ι) (v : Fin n) (t : Task Request) (b : Bindings) :
    (R.put i v t b).bindings j = if j = i then b else R.bindings j := by
  by_cases hj : j = i
  · subst hj
    simp [put]
  · simp [put, hj]

variable {m : Type → Type} [Monad m] (host : Host m) (p : Pipeline) (runId root : ι → String)

/-- Takes one component one step further in one run. -/
def advance (R : Runs ι p.components.size) (i : ι) (v : Fin p.components.size) :
    StateT Store m (Runs ι p.components.size) := do
  let (t, b) ← (p.componentAt v).advance host (runId i) (root i) (R.bindings i) (R.tasks i v)
  pure (R.put i v t b)

/-- Takes the steps of a schedule. -/
def follow : List (ι × Fin p.components.size) → Runs ι p.components.size →
    StateT Store m (Runs ι p.components.size)
  | [], R => pure R
  | (i, v) :: rest, R => do
    let R ← R.advance host p runId root i v
    follow rest R

end

/-! ### What holds at every moment

The induction is on the schedule, and all that has to be shown is that one step keeps the invariant.
-/

/-- What a run may have in its hands, besides outputs that its executors are still to make: what was
there at the beginning, when `first` was the next number, and outputs of its own. -/
def Sees (R : Runs ι n) (first : Nat) (i : ι) (a : Artifact) : Prop :=
  a.id.number < first ∨ ∃ v, (R.tasks i v).Leaves a

/-- What holds at every moment. The first three parts are about what was made, the next two about
what is in the hands of runs, and the last one is what a task needs to go on. -/
structure Sound (R : Runs ι n) (first : Nat) (s : Store) : Prop where
  first_le : first ≤ s.nextArtifact
  /-- Outputs are new. -/
  made : ∀ i v a, (R.tasks i v).Makes a → first ≤ a.id.number ∧ a.id.number < s.nextArtifact
  /-- No artifact is an output of two components. -/
  apart : ∀ i v j u a, (R.tasks i v).Makes a → (R.tasks j u).Makes a → i = j ∧ v = u
  bound : ∀ i a, (R.bindings i).Holds a → R.Sees first i a
  read : ∀ i v r, (R.tasks i v).request? = some r →
    ∀ e ∈ r.inputs.entries, ∀ a ∈ e.2, R.Sees first i a
  ready : ∀ i v r, (R.tasks i v).pending? = some r → r.handed.Ready s

namespace Sound

variable {R : Runs ι n} {first : Nat} {s s' : Store} {i : ι} {v : Fin n} {a : Artifact}

theorem known (h : R.Sound first s) (ha : R.Sees first i a) : a.id.number < s.nextArtifact := by
  rcases ha with ha | ⟨v, ha⟩
  · exact Nat.lt_of_lt_of_le ha h.first_le
  · exact (h.made i v a ha.makes).2

/-- What a run has in its hands is not about to be changed. -/
theorem not_awaits (h : R.Sound first s) (ha : R.Sees first i a) (j : ι) (u : Fin n) :
    ¬ (R.tasks j u).Awaits a := by
  intro hawaits
  rcases ha with ha | ⟨v, ha⟩
  · have hnew := (h.made j u a hawaits.makes).1
    omega
  · obtain ⟨rfl, rfl⟩ := h.apart i v j u a ha.makes hawaits.makes
    exact ha.not_awaits hawaits

theorem guarded (h : R.Sound first s) (i : ι) (v : Fin n) :
    (R.tasks i v).Guarded (R.bindings i) s where
  bound a ha := ⟨h.known (h.bound i a ha), h.not_awaits (h.bound i a ha) i v⟩
  read r hr e he a ha :=
    ⟨h.known (h.read i v r hr e he a ha), h.not_awaits (h.read i v r hr e he a ha) i v⟩
  made a ha := (h.made i v a ha).2
  ready := h.ready i v

end Sound

theorem Sees.mono {R R' : Runs ι n} {first : Nat} {i : ι} {a : Artifact} (ha : R.Sees first i a)
    (h : ∀ v, (R.tasks i v).Leaves a → (R'.tasks i v).Leaves a) : R'.Sees first i a :=
  ha.imp_right fun ⟨v, hv⟩ => ⟨v, h v hv⟩

/-- When runs begin, they have in their hands what channels hold. No component has been prepared, so
nothing has been made. -/
theorem sound_start {session : Session} (hw : session.Sound) (p : Pipeline) :
    (start ι p session.store).Sound session.store.nextArtifact session.store where
  first_le := Nat.le_refl _
  made i v a := by
    rintro ⟨r, hr, -⟩
    cases hr
  apart i v j u a := by
    rintro ⟨r, hr, -⟩
    cases hr
  bound i a := by
    rintro ⟨e, he, ha⟩
    obtain ⟨d, -, rfl⟩ := List.mem_map.mp (SortedMap.mem_ofList he)
    exact .inl (hw.artifact_lt a (hw.held d a ha))
  read i v r hr := by cases hr
  ready i v r hr := by cases hr

/-- One step keeps what holds at every moment. Of the step only what `Task.Step` says is used. -/
theorem Sound.put [DecidableEq ι] {R : Runs ι n} {first : Nat} {s s' : Store} {i : ι} {v : Fin n}
    {t : Task Request} {b : Bindings} (h : R.Sound first s)
    (hstep : (R.tasks i v).Step (R.Sees first i) s s' t b) :
    (R.put i v t b).Sound first s' := by
  have hkept : ∀ j a, R.Sees first j a → (R.put i v t b).Sees first j a := by
    intro j a ha
    refine ha.mono fun u hu => ?_
    rw [tasks_put]
    split
    · rename_i hsame
      obtain ⟨rfl, rfl⟩ := hsame
      exact hstep.leaves a hu
    · exact hu
  have hnew : t.Leaves ≤ fun a => (R.put i v t b).Sees first i a := by
    intro a ha
    refine .inr ⟨v, ?_⟩
    rwa [tasks_put, if_pos ⟨rfl, rfl⟩]
  have hown : ∀ j u a, ((R.put i v t b).tasks j u).Makes a → (R.tasks j u).Makes a ∨
      (j = i ∧ u = v ∧ s.nextArtifact ≤ a.id.number ∧ a.id.number < s'.nextArtifact) := by
    intro j u a ha
    rw [tasks_put] at ha
    split at ha
    · rename_i hsame
      obtain ⟨rfl, rfl⟩ := hsame
      exact (hstep.makes a ha).imp_right fun hfresh => ⟨rfl, rfl, hfresh⟩
    · exact .inl ha
  refine ⟨Nat.le_trans h.first_le hstep.spares.nextArtifact, fun j u a ha => ?_,
    fun j u k x a hj hk => ?_, fun j a ha => ?_, fun j u r hr e he a ha => ?_,
    fun j u r hr => ?_⟩
  · rcases hown j u a ha with ha | ⟨-, -, hfresh⟩
    · obtain ⟨hfirst, hlt⟩ := h.made j u a ha
      exact ⟨hfirst, Nat.lt_of_lt_of_le hlt hstep.spares.nextArtifact⟩
    · exact ⟨Nat.le_trans h.first_le hfresh.1, hfresh.2⟩
  · rcases hown j u a hj with hold | ⟨hji, huv, hfresh, -⟩ <;>
      rcases hown k x a hk with hold' | ⟨hki, hxv, hfresh', -⟩
    · exact h.apart j u k x a hold hold'
    · have hlt := (h.made j u a hold).2
      omega
    · have hlt := (h.made k x a hold').2
      omega
    · exact ⟨hji.trans hki.symm, huv.trans hxv.symm⟩
  · rw [bindings_put] at ha
    split at ha
    · rename_i hj
      subst hj
      exact (hstep.bound a ha).elim (hkept j a) (hnew a)
    · exact hkept j a (h.bound j a ha)
  · rw [tasks_put] at hr
    split at hr
    · rename_i hsame
      obtain ⟨rfl, rfl⟩ := hsame
      exact hkept j a (hstep.read r hr e he a ha)
    · exact hkept j a (h.read j u r hr e he a ha)
  · rw [tasks_put] at hr
    split at hr
    · exact hstep.ready r hr
    · rename_i hother
      refine (h.ready j u r hr).congr (fun e he a ha => ?_) fun e he a ha => ?_
      · have hsees := h.read j u r (Task.request?_of_pending? hr) e he a ha
        exact hstep.spares.artifact a (h.known hsees) (h.not_awaits hsees i v)
      · have hmakes : (R.tasks j u).Makes a :=
          ⟨r, Task.request?_of_pending? hr, e, he, a, ha, rfl⟩
        refine hstep.spares.artifact a (h.made j u a hmakes).2 fun hawaits => hother ?_
        exact h.apart j u i v a hmakes hawaits.makes

section

variable [DecidableEq ι] {p : Pipeline} {runId root : ι → String} {R : Runs ι p.components.size}
  {first : Nat} {s : Store} {w : W}

theorem advance_apply (R : Runs ι p.components.size) (i : ι) (v : Fin p.components.size) (s : Store)
    (w : W) {t : Task Request} {b : Bindings} {s' : Store} {w' : W}
    (h : (p.componentAt v).advance host (runId i) (root i) (R.bindings i) (R.tasks i v) s w =
      (((t, b), s'), w')) :
    R.advance host p runId root i v s w = ((R.put i v t b, s'), w') := by
  rw [advance, machine_bind_apply, h]
  rfl

/-- After one step, what holds at every moment holds. -/
theorem Sound.advance (h : R.Sound first s) (runId root : ι → String) (w : W)
    (hwrites : ∀ k ∈ p.components, k.executor.WritesOnce) (i : ι) (v : Fin p.components.size) :
    ∃ t b s' w',
      (p.componentAt v).advance host (runId i) (root i) (R.bindings i) (R.tasks i v) s w =
        (((t, b), s'), w') ∧
      s.Spares (fun a => ¬ (R.tasks i v).Awaits a) s' ∧ (R.put i v t b).Sound first s' := by
  obtain ⟨t, b, s', w', hout, hadvances, hspares⟩ := Component.advance_cases host
    (p.componentAt v) (runId i) (root i) w (h.guarded i v) (hwrites _ (Wiring.componentAt_mem v))
  exact ⟨t, b, s', w', hout, hspares,
    h.put (hadvances.step hspares (h.bound i) (h.read i v))⟩

/-- After a schedule, what holds at every moment holds, and what was there at the beginning has not
changed. -/
theorem Sound.follow (h : R.Sound first s) (runId root : ι → String) (w : W)
    (hwrites : ∀ k ∈ p.components, k.executor.WritesOnce)
    (schedule : List (ι × Fin p.components.size)) :
    ∃ R' s' w', R.follow host p runId root schedule s w = ((R', s'), w') ∧ R'.Sound first s' ∧
      s.Spares (fun a => a.id.number < first) s' := by
  induction schedule generalizing R s w with
  | nil => exact ⟨R, s, w, rfl, h, .refl s⟩
  | cons step rest ih =>
    obtain ⟨i, v⟩ := step
    obtain ⟨t, b, s₁, w₁, hout, hspares, hsound⟩ := h.advance host runId root w hwrites i v
    obtain ⟨R', s', w', hrest, hsound', hspares'⟩ := ih hsound w₁
    refine ⟨R', s', w', ?_, hsound', .trans (hspares.mono fun a ha hawaits => ?_) hspares'⟩
    · rw [Runs.follow, machine_bind_apply, advance_apply host R i v s w hout]
      exact hrest
    · exact h.not_awaits (i := i) (.inl ha) i v hawaits

end

end Runs

end TypedPipeline
