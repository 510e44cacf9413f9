import TypedPipeline.Proofs.Run.Interleaving
import TypedPipeline.Proofs.Run.Schedule

/-!
# Runs do not meet

Runs of one pipeline that go on side by side do what they would do alone. The numbers of artifacts
differ, so this is said by sight: each run has the same things bound, has handed out the same things
to the same components, and these have ended in the same way.

One step of a run goes by what the run has in its hands, by sight; and no step of another run
changes what these things look like. So a run can be followed through a schedule and alone at the
same time, the steps of other runs being skipped.

## Implementation notes

Two things are compared that do not run in lockstep: a schedule, and the part of it that belongs to
one run. Where the schedule takes a step of that run, so does the part, and both come to the same by
`Component.advance_alike`. Where it takes a step of another run, the part does nothing, and by
`Runs.sight_advance_other` nothing is seen of the step. So the induction is on the schedule, with
two stores that have nothing in common but how the run looks in them.

That the step of a component goes by sight is shown for preparing, invoking and publishing, one by
one. For the first and the third it is a matter of the definitions. For the second it is what it
means for an executor to be deterministic.

Failures are compared without the numbers of artifacts in them. A failure that says which artifact
was sealed would otherwise look different from one run to the next.

## Main definitions

* `Runs.sight` — all that a run has come to, by sight

## Main results

* `Component.advance_alike` — one step goes by sight
* `Runs.sight_advance_other` — the steps of other runs are not seen
* `Runs.runs_apart` — runs side by side do what they would do alone
-/

namespace TypedPipeline

variable {W : Type} (host : Host (StateM W))

/-! ### Runs by sight

A request by sight has its fields, but the artifacts in it have lost their numbers. Tasks and
bindings are treated in the same way. -/

/-- A request by sight. -/
structure RequestSight where
  component : String
  runId : String
  inputs : TextMap (List Sight)
  outputs : TextMap (List Sight)
  parameters : Parameters
  targets : TextMap Channel

/-- A run by sight. -/
structure RunSight (n : Nat) where
  bindings : SortedMap ChannelId (List Sight)
  tasks : Fin n → Task RequestSight

def Request.sight (r : Request) (s : Store) : RequestSight :=
  ⟨r.component, r.runId, s.sights r.inputs, s.sights r.outputs, r.parameters, r.targets⟩

def Bindings.sights (b : Bindings) (s : Store) : SortedMap ChannelId (List Sight) :=
  b.bound.map fun _ l => l.map s.sight

def Task.sight (s : Store) : Task Request → Task RequestSight
  | idle => idle
  | refused e => refused e
  | prepared r => prepared (r.sight s)
  | invoked r result => invoked (r.sight s) (result.mapError ExecutionError.anonymous)
  | published r result => published (r.sight s) result

/-- All that a run has come to, by sight. -/
def Runs.sight {ι : Type} {n : Nat} (R : Runs ι n) (s : Store) (i : ι) : RunSight n :=
  ⟨(R.bindings i).sights s, fun v => (R.tasks i v).sight s⟩

theorem Store.getD_map_sight (s : Store) (found : Option (List Artifact)) :
    (found.map (List.map s.sight)).getD [] = (found.getD []).map s.sight := by
  cases found <;> rfl

theorem Bindings.contents_eq (b : Bindings) (s : Store) (id : ChannelId) :
    b.contents s id = ((b.sights s).find? id).getD [] := by
  rw [contents, sights, SortedMap.find?_map, Store.getD_map_sight]

/-! ### What has not changed looks the same

Each of these is about a step of somebody else. What a run has in its hands was left alone by it, so
the run looks as it did before. -/

namespace Store.Spares

variable {spared : Artifact → Prop} {s s' : Store} (h : s.Spares spared s')
include h

theorem bindings_sights {b : Bindings}
    (hb : ∀ a, b.Holds a → a.id.number < s.nextArtifact ∧ spared a) :
    b.sights s' = b.sights s := by
  refine SortedMap.map_eq_map_iff.mpr fun e he => ?_
  exact h.map_sight fun a ha => hb a ⟨e, he, ha⟩

theorem request_sight {r : Request}
    (hinputs : ∀ e ∈ r.inputs.entries, ∀ a ∈ e.2, a.id.number < s.nextArtifact ∧ spared a)
    (houtputs : ∀ e ∈ r.outputs.entries, ∀ a ∈ e.2, a.id.number < s.nextArtifact ∧ spared a) :
    r.sight s' = r.sight s := by
  rw [Request.sight, Request.sight, h.sights hinputs, h.sights houtputs]

theorem task_sight {t : Task Request}
    (hinputs : ∀ r, t.request? = some r → ∀ e ∈ r.inputs.entries, ∀ a ∈ e.2,
      a.id.number < s.nextArtifact ∧ spared a)
    (houtputs : ∀ a, t.Makes a → a.id.number < s.nextArtifact ∧ spared a) :
    t.sight s' = t.sight s := by
  have hrequest : ∀ r, t.request? = some r → r.sight s' = r.sight s := by
    intro r hr
    exact h.request_sight (hinputs r hr) fun e he a ha => houtputs a ⟨r, hr, e, he, a, ha, rfl⟩
  cases t with
  | idle => rfl
  | refused e => rfl
  | prepared r => rw [Task.sight, Task.sight, hrequest r rfl]
  | invoked r result => rw [Task.sight, Task.sight, hrequest r rfl]
  | published r result => rw [Task.sight, Task.sight, hrequest r rfl]

end Store.Spares

/-! ### Three steps that go by sight

The two bindings and the two stores are unrelated, apart from looking alike. Nothing is said of how
they came about. -/

namespace Component

variable {c : Component} {runId root : String} {b₁ b₂ : Bindings} {s₁ s₂ : Store}

theorem readable_eq (s : Store) (l : List Artifact) :
    readable s l =
      (!(l.map s.sight).isEmpty && (l.map s.sight).all fun v => v.state.populated) := by
  simp [readable, Store.sight, Function.comp_def]

theorem unpopulated?_alike (hb : b₁.sights s₁ = b₂.sights s₂) (l : List (String × Channel)) :
    unpopulated? s₁ b₁ l = unpopulated? s₂ b₂ l := by
  have hread : ∀ d : Channel, readable s₁ (b₁.artifacts d) = readable s₂ (b₂.artifacts d) := by
    intro d
    have hcontents : (b₁.artifacts d).map s₁.sight = (b₂.artifacts d).map s₂.sight := by
      have hid : b₁.contents s₁ d.id = b₂.contents s₂ d.id := by
        rw [Bindings.contents_eq, Bindings.contents_eq, hb]
      exact hid
    rw [readable_eq, readable_eq, hcontents]
  induction l with
  | nil => rfl
  | cons e rest ih => rw [unpopulated?, unpopulated?, hread e.2, ih]

/-- A request hands out what is in the channels that the component reads. -/
theorem HandsOut.sight {c : Component} {runId root : String} {b : Bindings} {s s' : Store}
    {r : Request} (h : c.HandsOut runId root b s s' r) (hknown : b.Known s) :
    r.sight s' = ⟨c.name, runId, c.inputs.map fun _ d => b.contents s d.id, c.blanks runId root,
      c.parameters, c.outputs⟩ := by
  rw [Request.sight, h.component, h.run, h.sights_inputs hknown, h.outputs, h.parameters, h.targets]

/-- Preparing goes by sight. Either both are refused with the same error, or both are prepared and
the requests look alike. -/
theorem prepare_alike (c : Component) (runId root : String) (hb : b₁.sights s₁ = b₂.sights s₂)
    (hknown₁ : b₁.Known s₁) (hknown₂ : b₂.Known s₂) :
    (∃ e, c.prepare runId root b₁ s₁ = (.error e, s₁) ∧
        c.prepare runId root b₂ s₂ = (.error e, s₂)) ∨
      ∃ r₁ r₂ s₁' s₂', c.prepare runId root b₁ s₁ = (.ok r₁, s₁') ∧
        c.prepare runId root b₂ s₂ = (.ok r₂, s₂') ∧ r₁.sight s₁' = r₂.sight s₂' ∧
        s₁.Spares (fun _ => True) s₁' ∧ s₂.Spares (fun _ => True) s₂' := by
  have hfield := unpopulated?_alike hb c.inputs.entries
  have hcontents : b₁.contents s₁ = b₂.contents s₂ := by
    funext id
    rw [Bindings.contents_eq, Bindings.contents_eq, hb]
  cases hu : unpopulated? s₂ b₂ c.inputs.entries with
  | some field =>
    rw [hu] at hfield
    exact .inl ⟨_, prepare_eq_error_iff.mpr ⟨field, hfield, rfl, rfl⟩,
      prepare_eq_error_iff.mpr ⟨field, hu, rfl, rfl⟩⟩
  | none =>
    rw [hu] at hfield
    have h₁ : c.prepare runId root b₁ s₁ = (.ok (c.request runId root b₁ s₁), _) :=
      prepare_eq_ok_iff.mpr ⟨hfield, rfl, rfl⟩
    have h₂ : c.prepare runId root b₂ s₂ = (.ok (c.request runId root b₂ s₂), _) :=
      prepare_eq_ok_iff.mpr ⟨hu, rfl, rfl⟩
    have hout₁ := handsOut_of_prepare hknown₁ h₁
    have hout₂ := handsOut_of_prepare hknown₂ h₂
    refine .inr ⟨_, _, _, _, h₁, h₂, ?_, hout₁.spares, hout₂.spares⟩
    rw [hout₁.sight hknown₁, hout₂.sight hknown₂, hcontents]

end Component

namespace Request

variable {r₁ r₂ : Request} {s₁ s₂ : Store}

theorem incomplete?_eq (r : Request) (s : Store) :
    r.incomplete? s = ((s.sights r.outputs).entries.find? fun e =>
      e.2.any fun v => !v.state.populated).map Prod.fst := by
  simp [incomplete?, Store.sights, SortedMap.map, List.find?_map, Function.comp_def, Store.sight]

/-- What comes of an invocation goes by sight. -/
theorem judge_alike (hcomponent : r₁.component = r₂.component)
    (houtputs : s₁.sights r₁.outputs = s₂.sights r₂.outputs)
    {result₁ result₂ : Except ExecutionError Unit}
    (h : result₁.mapError ExecutionError.anonymous = result₂.mapError ExecutionError.anonymous) :
    (r₁.judge s₁ result₁).mapError ExecutionError.anonymous =
      (r₂.judge s₂ result₂).mapError ExecutionError.anonymous := by
  cases result₁ with
  | error e₁ =>
    cases result₂ with
    | error e₂ => exact h
    | ok done => cases h
  | ok done =>
    cases result₂ with
    | error e₂ => cases h
    | ok done' => rw [judge, judge, incomplete?_eq, incomplete?_eq, houtputs, hcomponent]

/-- An invocation of a deterministic executor goes by sight. Its result is compared without numbers,
and its outputs by what they look like. -/
theorem invoke_alike {executor : Executor} (hd : executor.Deterministic host)
    (h : r₁.sight s₁ = r₂.sight s₂) (hr₁ : r₁.handed.Ready s₁) (hr₂ : r₂.handed.Ready s₂)
    (w₁ w₂ : W) :
    (r₁.invoke host executor s₁ w₁).1.1.mapError ExecutionError.anonymous =
        (r₂.invoke host executor s₂ w₂).1.1.mapError ExecutionError.anonymous ∧
      (r₁.invoke host executor s₁ w₁).1.2.sights r₁.outputs =
        (r₂.invoke host executor s₂ w₂).1.2.sights r₂.outputs := by
  obtain ⟨hcomponent, -, hinputs, houtputs, hparameters, -⟩ := RequestSight.mk.inj h
  obtain ⟨hresult, hsights⟩ := hd r₁.parameters r₁.handed r₂.handed s₁ s₂ w₁ w₂ hr₁ hr₂
    ⟨hinputs, houtputs⟩
  rw [invoke_apply, invoke_apply, ← hparameters]
  exact ⟨judge_alike hcomponent hsights hresult, hsights⟩

theorem misfit?_eq (c : Channel) (s : Store) (l : List Artifact) :
    c.misfit? l = ((l.map s.sight).find? fun v => v.type != c.type).map fun v =>
      .typeMismatch (.channel c.id) c.type.name v.type.name := by
  simp [Channel.misfit?, List.find?_map, Function.comp_def, Store.sight]

/-- Publishing goes by sight. Types are part of a sight, so either both are refused or none is. -/
theorem publish_alike {b₁ b₂ : Bindings} (h : r₁.sight s₁ = r₂.sight s₂)
    (hb : b₁.sights s₁ = b₂.sights s₂) :
    (r₁.publish b₁).2 = (r₂.publish b₂).2 ∧
      (r₁.publish b₁).1.sights s₁ = (r₂.publish b₂).1.sights s₂ := by
  obtain ⟨-, -, -, houtputs, -, htargets⟩ := RequestSight.mk.inj h
  have hfield : ∀ output, ((r₁.outputs.find? output).getD []).map s₁.sight =
      ((r₂.outputs.find? output).getD []).map s₂.sight := by
    intro output
    have hfind := congrArg (fun m => (m.find? output).getD []) houtputs
    simpa only [Store.find?_sights, Store.getD_map_sight] using hfind
  rw [publish, publish, htargets]
  induction r₂.targets.entries generalizing b₁ b₂ with
  | nil => exact ⟨rfl, hb⟩
  | cons e rest ih =>
    have hmisfit : e.2.misfit? ((r₁.outputs.find? e.1).getD []) =
        e.2.misfit? ((r₂.outputs.find? e.1).getD []) := by
      rw [misfit?_eq e.2 s₁, misfit?_eq e.2 s₂, hfield]
    rw [publishAll, publishAll, Bindings.bind, Bindings.bind, hmisfit]
    cases e.2.misfit? ((r₂.outputs.find? e.1).getD []) with
    | some error => exact ⟨rfl, hb⟩
    | none =>
      refine ih ?_
      have hinsert : ∀ (b : Bindings) (s : Store) (l : List Artifact),
          Bindings.sights ⟨b.bound.insert e.2.id l⟩ s =
            (b.sights s).insert e.2.id (l.map s.sight) := by
        intro b s l
        exact SortedMap.map_insert ..
      rw [hinsert, hinsert, hb, hfield]

end Request

/-! ### One step

Here the three kinds of step are put together. -/

theorem Component.spares_of_advance {c : Component} {runId root : String} {b b' : Bindings}
    {s s' : Store} {t t' : Task Request} {w w' : W} (hg : t.Guarded b s)
    (hwrites : c.executor.WritesOnce)
    (h : c.advance host runId root b t s w = (((t', b'), s'), w')) :
    s.Spares (fun a => ¬ t.Awaits a) s' := by
  obtain ⟨_, _, _, _, hout, -, hspares⟩ := advance_cases host c runId root w hg hwrites
  cases h.symm.trans hout
  exact hspares

/-- One step of a component goes by sight. -/
theorem Component.advance_alike {c : Component} {runId root : String} {b₁ b₂ : Bindings}
    {s₁ s₂ : Store} {t₁ t₂ : Task Request} (hd : c.executor.Deterministic host)
    (hwrites : c.executor.WritesOnce) (hg₁ : t₁.Guarded b₁ s₁) (hg₂ : t₂.Guarded b₂ s₂)
    (ht : t₁.sight s₁ = t₂.sight s₂) (hb : b₁.sights s₁ = b₂.sights s₂) {w₁ w₂ w₁' w₂' : W}
    {t₁' t₂' : Task Request} {b₁' b₂' : Bindings} {s₁' s₂' : Store}
    (h₁ : c.advance host runId root b₁ t₁ s₁ w₁ = (((t₁', b₁'), s₁'), w₁'))
    (h₂ : c.advance host runId root b₂ t₂ s₂ w₂ = (((t₂', b₂'), s₂'), w₂')) :
    t₁'.sight s₁' = t₂'.sight s₂' ∧ b₁'.sights s₁' = b₂'.sights s₂' := by
  cases t₁ with
  | idle =>
    cases t₂ <;> try cases ht
    rw [advance_idle] at h₁ h₂
    rcases prepare_alike c runId root hb hg₁.known hg₂.known with ⟨e, hp₁, hp₂⟩ |
      ⟨r₁, r₂, s₁'', s₂'', hp₁, hp₂, hsight, hspares₁, hspares₂⟩
    · rw [hp₁] at h₁
      rw [hp₂] at h₂
      cases h₁
      cases h₂
      exact ⟨rfl, hb⟩
    · rw [hp₁] at h₁
      rw [hp₂] at h₂
      cases h₁
      cases h₂
      refine ⟨congrArg Task.prepared hsight, ?_⟩
      rw [hspares₁.bindings_sights fun a ha => ⟨(hg₁.bound a ha).1, trivial⟩,
        hspares₂.bindings_sights fun a ha => ⟨(hg₂.bound a ha).1, trivial⟩, hb]
  | refused e =>
    cases t₂ <;> try cases ht
    cases h₁
    cases h₂
    exact ⟨rfl, hb⟩
  | prepared r₁ =>
    cases t₂ <;> try cases ht
    rename_i r₂
    have hsight : r₁.sight s₁ = r₂.sight s₂ := Task.prepared.inj ht
    obtain ⟨hcomponent, hrun, hinputs, -, hparameters, htargets⟩ := RequestSight.mk.inj hsight
    obtain ⟨hresult, houtputs⟩ := Request.invoke_alike host hd hsight (hg₁.ready r₁ rfl)
      (hg₂.ready r₂ rfl) w₁ w₂
    have hspares₁ := spares_of_advance host hg₁ hwrites h₁
    have hspares₂ := spares_of_advance host hg₂ hwrites h₂
    rw [advance_prepared] at h₁ h₂
    cases h₁
    cases h₂
    refine ⟨?_, ?_⟩
    · rw [Task.sight, Task.sight, Request.sight, Request.sight, hcomponent, hrun, hparameters,
        htargets, hresult, houtputs, hspares₁.sights (hg₁.read r₁ rfl),
        hspares₂.sights (hg₂.read r₂ rfl), hinputs]
    · rw [hspares₁.bindings_sights hg₁.bound, hspares₂.bindings_sights hg₂.bound, hb]
  | invoked r₁ result₁ =>
    cases t₂ <;> try cases ht
    rename_i r₂ result₂
    obtain ⟨hsight, hresult⟩ := Task.invoked.inj ht
    cases result₁ with
    | error e₁ =>
      cases result₂ with
      | error e₂ =>
        cases h₁
        cases h₂
        exact ⟨ht, hb⟩
      | ok done => cases hresult
    | ok done =>
      cases result₂ with
      | error e₂ => cases hresult
      | ok done' =>
        obtain ⟨hpublished, hbound⟩ := Request.publish_alike hsight hb
        rw [advance_invoked] at h₁ h₂
        cases h₁
        cases h₂
        refine ⟨?_, hbound⟩
        rw [Task.sight, Task.sight, hsight, hpublished]
  | published r₁ result₁ =>
    cases t₂ <;> try cases ht
    cases h₁
    cases h₂
    exact ⟨ht, hb⟩

/-! ### Side by side and alone

What was shown of steps is now carried along a schedule. -/

namespace Runs

variable {ι : Type} [DecidableEq ι] {p : Pipeline} {runId root : ι → String}
  {R R₁ R₂ : Runs ι p.components.size} {first : Nat} {s s' s₁ s₂ s₁' s₂' : Store}
  {i j : ι} {v : Fin p.components.size} {t t₁ t₂ : Task Request} {b b₁ b₂ : Bindings}

omit [DecidableEq ι] in
/-- What has come of one component is not changed by a step of another one, or of another run. The
step changes outputs of its own request only, and these are in no other hands. -/
theorem sight_task {u : Fin p.components.size} (h : R.Sound first s)
    (hspares : s.Spares (fun a => ¬ (R.tasks i v).Awaits a) s') (hother : ¬ (j = i ∧ u = v)) :
    (R.tasks j u).sight s' = (R.tasks j u).sight s := by
  refine hspares.task_sight (fun r hr e he a ha => ?_) fun a ha => ?_
  · have hsees := h.read j u r hr e he a ha
    exact ⟨h.known hsees, h.not_awaits hsees i v⟩
  · refine ⟨(h.made j u a ha).2, fun hawaits => hother ?_⟩
    exact h.apart j u i v a ha hawaits.makes

/-- What one run has come to is not changed by a step of another one. -/
theorem sight_put_other (h : R.Sound first s)
    (hspares : s.Spares (fun a => ¬ (R.tasks i v).Awaits a) s') (hj : j ≠ i) :
    (R.put i v t b).sight s' j = R.sight s j := by
  have hbindings : ((R.put i v t b).bindings j).sights s' = (R.bindings j).sights s := by
    rw [bindings_put, if_neg hj]
    exact hspares.bindings_sights fun a ha =>
      ⟨h.known (h.bound j a ha), h.not_awaits (h.bound j a ha) i v⟩
  have htasks : ∀ u, ((R.put i v t b).tasks j u).sight s' = (R.tasks j u).sight s := by
    intro u
    rw [tasks_put, if_neg fun hsame => hj hsame.1]
    exact sight_task h hspares fun hsame => hj hsame.1
  rw [Runs.sight, Runs.sight, hbindings, funext htasks]

/-- Two stores in which a run has come to the same by sight: after one step of it, it has come to
the same again. -/
theorem sight_put_own (h₁ : R₁.Sound first s₁) (h₂ : R₂.Sound first s₂)
    (hspares₁ : s₁.Spares (fun a => ¬ (R₁.tasks i v).Awaits a) s₁')
    (hspares₂ : s₂.Spares (fun a => ¬ (R₂.tasks i v).Awaits a) s₂')
    (hsame : R₁.sight s₁ i = R₂.sight s₂ i) (ht : t₁.sight s₁' = t₂.sight s₂')
    (hb : b₁.sights s₁' = b₂.sights s₂') :
    (R₁.put i v t₁ b₁).sight s₁' i = (R₂.put i v t₂ b₂).sight s₂' i := by
  have htasks : ∀ u, ((R₁.put i v t₁ b₁).tasks i u).sight s₁' =
      ((R₂.put i v t₂ b₂).tasks i u).sight s₂' := by
    intro u
    rw [tasks_put, tasks_put]
    by_cases hu : u = v
    · rw [if_pos ⟨rfl, hu⟩, if_pos ⟨rfl, hu⟩, ht]
    · have hother : ¬ (i = i ∧ u = v) := fun hboth => hu hboth.2
      have hbefore := congrArg (fun x => x.tasks u) hsame
      rw [if_neg hother, if_neg hother, sight_task h₁ hspares₁ hother,
        sight_task h₂ hspares₂ hother]
      exact hbefore
  rw [Runs.sight, Runs.sight, funext htasks, bindings_put, bindings_put, if_pos rfl, if_pos rfl, hb]

/-- A run comes to the same, by sight, in a schedule and in what the schedule has for it alone. The
induction is on the schedule, for all pairs of runs and stores that agree at its beginning. -/
theorem follow_alike (runId root : ι → String)
    (hd : ∀ k ∈ p.components, k.executor.Deterministic host)
    (hwrites : ∀ k ∈ p.components, k.executor.WritesOnce) (h₁ : R₁.Sound first s₁)
    (h₂ : R₂.Sound first s₂) (hsame : R₁.sight s₁ i = R₂.sight s₂ i)
    (schedule : List (ι × Fin p.components.size)) (w₁ w₂ : W) :
    (R₁.follow host p runId root schedule s₁ w₁).1.1.sight
        (R₁.follow host p runId root schedule s₁ w₁).1.2 i =
      (R₂.follow host p runId root (schedule.filter fun step => step.1 = i) s₂ w₂).1.1.sight
        (R₂.follow host p runId root (schedule.filter fun step => step.1 = i) s₂ w₂).1.2 i := by
  induction schedule generalizing R₁ R₂ s₁ s₂ w₁ w₂ with
  | nil => exact hsame
  | cons step rest ih =>
    obtain ⟨j, v⟩ := step
    obtain ⟨t₁, b₁, s₁', w₁', hout₁, hspares₁, hsound₁⟩ :=
      h₁.advance host runId root w₁ hwrites j v
    have hfirst : (R₁.follow host p runId root ((j, v) :: rest) s₁ w₁) =
        (R₁.put j v t₁ b₁).follow host p runId root rest s₁' w₁' := by
      rw [follow, machine_bind_apply, advance_apply host R₁ j v s₁ w₁ hout₁]
    rw [hfirst]
    by_cases hj : j = i
    · subst hj
      obtain ⟨t₂, b₂, s₂', w₂', hout₂, hspares₂, hsound₂⟩ :=
        h₂.advance host runId root w₂ hwrites j v
      have hbefore : (R₁.tasks j v).sight s₁ = (R₂.tasks j v).sight s₂ :=
        congrArg (fun x => x.tasks v) hsame
      obtain ⟨ht, hb⟩ := Component.advance_alike host (hd _ (Wiring.componentAt_mem v))
        (hwrites _ (Wiring.componentAt_mem v)) (h₁.guarded j v) (h₂.guarded j v) hbefore
        (congrArg RunSight.bindings hsame) hout₁ hout₂
      rw [List.filter_cons_of_pos (by simp), follow, machine_bind_apply,
        advance_apply host R₂ j v s₂ w₂ hout₂]
      exact ih hsound₁ hsound₂ (sight_put_own h₁ h₂ hspares₁ hspares₂ hsame ht hb) w₁' w₂'
    · rw [List.filter_cons_of_neg (by simpa using hj)]
      refine ih hsound₁ h₂ ?_ w₁' w₂
      rw [sight_put_other h₁ hspares₁ (Ne.symm hj), hsame]

omit [DecidableEq ι] in
/-- What was made for one run is in the hands of no other one. It is new, so it was not there at the
beginning, and it is no output of the other run. -/
theorem Sound.not_sees {a a' : Artifact} (h : R.Sound first s) (ha : (R.tasks i v).Makes a)
    (hj : j ≠ i) (hid : a'.id = a.id) : ¬ R.Sees first j a' := by
  rintro (hold | ⟨u, hu⟩)
  · have hnew := (h.made i v a ha).1
    rw [hid] at hold
    omega
  · obtain ⟨r, hr, e, he, b, hb, hb'⟩ := hu.makes
    have hmakes : (R.tasks j u).Makes a := ⟨r, hr, e, he, b, hb, hb'.trans hid⟩
    exact hj (h.apart j u i v a hmakes ha).1

/-- Runs of a pipeline go on side by side, their executors being deterministic and replacing no
location. Whatever the schedule is, each has come to what it would have come to by its own steps
alone, by sight; what was made for the outputs of one run is neither bound nor handed out by another
one; and channels hold what they held when the runs began, which has not changed. So a run that
begins later begins with the same. -/
theorem follow_isolated {session : Session} (hw : session.Reachable) (p : Pipeline) {W : Type}
    (host : Host (StateM W)) (hd : ∀ k ∈ p.components, k.executor.Deterministic host)
    (hwrites : ∀ k ∈ p.components, k.executor.WritesOnce) {ι : Type} [DecidableEq ι]
    (runId root : ι → String) (schedule : List (ι × Fin p.components.size)) (machine : W) :
    ∃ R s w, (start ι p session.store).follow host p runId root schedule session.store machine =
        ((R, s), w) ∧
      (∀ i, ∀ machine' : W, ∃ R' s' w', (start ι p session.store).follow host p runId root
          (schedule.filter fun step => step.1 = i) session.store machine' = ((R', s'), w') ∧
        R.sight s i = R'.sight s' i) ∧
      (∀ i v a, (R.tasks i v).Makes a → ∀ j, j ≠ i →
        (∀ a', (R.bindings j).Holds a' → a'.id ≠ a.id) ∧
          ∀ u r, (R.tasks j u).request? = some r →
            (∀ e ∈ r.inputs.entries, ∀ a' ∈ e.2, a'.id ≠ a.id) ∧
              ∀ e ∈ r.outputs.entries, ∀ a' ∈ e.2, a'.id ≠ a.id) ∧
      (∀ c, (s.channel c).held = (session.store.channel c).held ∧
        ∀ a ∈ (session.store.channel c).held, s.artifact a = session.store.artifact a) ∧
      s.seed p.inputs = session.store.seed p.inputs := by
  have hstart := sound_start (ι := ι) hw.sound p
  obtain ⟨R, s, w, hrun, hsound, hspares⟩ := hstart.follow host runId root machine hwrites schedule
  have hchannels : ∀ c, s.channel c = session.store.channel c :=
    Store.channel_congr hspares.channels
  refine ⟨R, s, w, hrun, fun i machine' => ⟨_, _, _, rfl, ?_⟩, fun i v a ha j hj => ?_,
    fun c => ⟨by rw [hchannels], fun a ha => ?_⟩, ?_⟩
  · have halike := follow_alike (i := i) host runId root hd hwrites hstart hstart rfl
      schedule machine machine'
    rw [hrun] at halike
    exact halike
  · refine ⟨fun a' ha' hid => hsound.not_sees ha hj hid (hsound.bound j a' ha'),
      fun u r hr => ⟨fun e he a' ha' hid => ?_, fun e he a' ha' hid => ?_⟩⟩
    · exact hsound.not_sees ha hj hid (hsound.read j u r hr e he a' ha')
    · exact hj (hsound.apart j u i v a ⟨r, hr, e, he, a', ha', hid⟩ ha).1
  · have hlt := hw.sound.artifact_lt a (hw.sound.held c a ha)
    exact hspares.artifact a hlt hlt
  · simp only [Store.seed, hchannels]

/-- Two runs, of which one begins before the other has ended. -/
theorem follow_isolated_branching :
    Relay.wider.Reachable ∧
      (∀ k ∈ Relay.branchingPipeline.components, k.executor.Deterministic Relay.clock) ∧
      (∀ k ∈ Relay.branchingPipeline.components, k.executor.WritesOnce) ∧
      ∃ R s w, (start Bool Relay.branchingPipeline Relay.wider.store).follow Relay.clock
          Relay.branchingPipeline (fun i => if i then "run-a" else "run-b") (fun _ => "out")
          [(true, ⟨1, by decide⟩), (false, ⟨2, by decide⟩), (true, ⟨1, by decide⟩),
            (false, ⟨1, by decide⟩), (true, ⟨1, by decide⟩), (true, ⟨0, by decide⟩),
            (false, ⟨2, by decide⟩)]
          Relay.wider.store 0 = ((R, s), w) ∧
        ∃ R' s' w', (start Bool Relay.branchingPipeline Relay.wider.store).follow Relay.clock
            Relay.branchingPipeline (fun i => if i then "run-a" else "run-b") (fun _ => "out")
            [(true, ⟨1, by decide⟩), (true, ⟨1, by decide⟩), (true, ⟨1, by decide⟩),
              (true, ⟨0, by decide⟩)]
            Relay.wider.store 0 = ((R', s'), w') ∧
          R.sight s true = R'.sight s' true := by
  obtain ⟨R, s, w, hrun, halone, -⟩ := follow_isolated Relay.reachable_wider
    Relay.branchingPipeline Relay.clock Relay.deterministic_branching Relay.writesOnce_branching
    (fun i => if i then "run-a" else "run-b") (fun _ => "out")
    [(true, ⟨1, by decide⟩), (false, ⟨2, by decide⟩), (true, ⟨1, by decide⟩),
      (false, ⟨1, by decide⟩), (true, ⟨1, by decide⟩), (true, ⟨0, by decide⟩),
      (false, ⟨2, by decide⟩)] 0
  exact ⟨Relay.reachable_wider, Relay.deterministic_branching, Relay.writesOnce_branching,
    R, s, w, hrun, halone true 0⟩

end Runs

end TypedPipeline
