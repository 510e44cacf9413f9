import TypedPipeline.Proofs.Store
import TypedPipeline.Request

/-!
# The three steps of one component

What preparing a component finds and makes, what its executor can do to the store in between, and
what publishing binds. An executor is any program over the artifacts that it is handed, so all that
is known of it is that the store grows and that outputs have locations if it is done.

The surroundings are a machine with states `W` of any kind that answers each request.

## One lemma for each step

What comes of preparing is an equation (`Component.prepare_eq`), and what comes of an invocation is
one, too (`Request.invoke_apply`). All other modules take what they need from these: whether a step
fails and with what, what the request hands out, which locations are staged. The record `Prepared`
collects what most of them ask.

Publishing is described by what is bound afterwards, since the order in which outputs are bound
shows nowhere if they have different channels.

## Implementation notes

The machine is a state monad over an arbitrary type, so hosts are arbitrary functions with a memory.
The lemmas with `machine` in their names turn binds into applications; they are stated for this
monad and are true by `rfl`.

## Main definitions

* `Component.Placeholder` — an artifact that was made for an output
* `Component.request` — the request that preparing makes
* `Component.Prepared` — what is known of a request
* `Bindings.Published` — what is bound once outputs are published

## Main results

* `Work.grows_run` — what a program does to the store
* `Component.prepare_eq` — what comes of preparing
* `Component.prepare_cases`, `Request.invoke_spec`, `Request.publishAll_spec` — the three steps
-/

namespace TypedPipeline

variable {W α β : Type} (host : Host (StateM W))

/-! ### Programs

The executor is not known, so its run is described by an induction over all programs. -/

/-- Steps on a store and a machine, one after the other. The second one begins with what the first
one has left of both. -/
theorem machine_bind_apply (x : StateT Store (StateM W) α) (f : α → StateT Store (StateM W) β)
    (s : Store) (w : W) : (x >>= f) s w = f (x s w).1.1 (x s w).1.2 (x s w).2 := rfl

theorem machine_get_apply (s : Store) (w : W) :
    (get : StateT Store (StateM W) Store) s w = ((s, s), w) := rfl

theorem machine_modifyGet_apply (f : Store → α × Store) (s : Store) (w : W) :
    (modifyGet f : StateT Store (StateM W) α) s w = (f s, w) := rfl

theorem machine_modify_apply (f : Store → Store) (s : Store) (w : W) :
    (modify f : StateT Store (StateM W) PUnit) s w = ((⟨⟩, f s), w) := rfl

namespace Work

theorem run_look (h : Handed) (slot : Slot) (next : Option View → Work α) (s : Store) (w : W) :
    (look slot next).run host h s w =
      (next ((h.artifact? slot).map fun a => ⟨a, s.artifact a⟩)).run host h s w := rfl

theorem run_change_of_none {h : Handed} {slot : Slot} (hslot : h.artifact? slot = none)
    (op : ArtifactOp) (next : Option Refusal → Work α) (s : Store) (w : W) :
    (change slot op next).run host h s w = (next none).run host h s w := by
  rw [run, hslot]

theorem run_change_of_some {h : Handed} {slot : Slot} {a : Artifact}
    (hslot : h.artifact? slot = some a) (op : ArtifactOp) (next : Option Refusal → Work α)
    (s : Store) (w : W) :
    (change slot op next).run host h s w =
      (next (s.change a op).1).run host h (s.change a op).2 w := by
  rw [run, hslot]
  rfl

theorem run_ask (h : Handed) (request : Host.Request) (next : request.Reply → Work α) (s : Store)
    (w : W) :
    (ask request next).run host h s w =
      (next (host request w).1).run host h s (host request w).2 := rfl

end Work

/-- Whatever a program does, channels stay as they are and no artifact loses its location. -/
theorem Work.grows_run (h : Handed) (p : Work α) (s : Store) (w : W) :
    s.Grows (p.run host h s w).1.2 := by
  induction p generalizing s w with
  | done a => exact .refl s
  | fail e => exact .refl s
  | refused slot r => exact .refl s
  | look slot next ih => exact ih _ s w
  | change slot op next ih =>
    rw [run]
    cases h.artifact? slot with
    | none => exact ih _ s w
    | some a => exact (Store.grows_change s a op).trans (ih _ _ w)
  | ask request next ih => exact ih _ s _
  | note e next ih => exact (Store.grows_note s e).trans (ih _ w)

/-! ### Preparing -/

namespace Component

/-- An artifact that was made for the output `e` between two stores. Both bounds on its number are
kept, so that it is told apart from what was there before and from what is made later. -/
structure Placeholder (root component runId : String) (s s' : Store) (e : String × Channel)
    (a : Artifact) : Prop where
  type : a.type = e.2.type
  staging : a.staging = some (stagingUri root component e.1 runId)
  /-- It was not there before. -/
  new : s.nextArtifact ≤ a.id.number
  /-- It is there now. -/
  known : a.id.number < s'.nextArtifact

theorem Placeholder.mono {root component runId : String} {s₀ s s' s₁ : Store} {e : String × Channel}
    {a : Artifact} (h : Placeholder root component runId s s' e a)
    (hs : s₀.nextArtifact ≤ s.nextArtifact) (hs' : s'.nextArtifact ≤ s₁.nextArtifact) :
    Placeholder root component runId s₀ s₁ e a :=
  ⟨h.type, h.staging, Nat.le_trans hs h.new, Nat.lt_of_lt_of_le h.known hs'⟩

theorem grows_placeholders (root component runId : String) (s : Store)
    (l : List (String × Channel)) : s.Grows (placeholders root component runId s l).2 := by
  induction l generalizing s with
  | nil => exact .refl s
  | cons e rest ih => exact (Store.grows_newArtifact s _ _ _).trans (ih _)

theorem exists_placeholder {root component runId : String} {s : Store} {l : List (String × Channel)}
    (hl : l.Pairwise fun e f => e.1 < f.1) {e : String × Channel} (he : e ∈ l) :
    ∃ a, (placeholders root component runId s l).1.find? e.1 = some [a] ∧
      Placeholder root component runId s (placeholders root component runId s l).2 e a := by
  induction l generalizing s with
  | nil => cases he
  | cons f rest ih =>
    obtain ⟨hf, hrest⟩ := List.pairwise_cons.mp hl
    let made := s.newArtifact f.2.type (some (stagingUri root component f.1 runId))
    have hgrows := grows_placeholders root component runId made.2 rest
    rw [placeholders]
    rcases List.mem_cons.mp he with rfl | he
    · refine ⟨made.1, ?_, rfl, rfl, Nat.le_refl _, hgrows.nextArtifact⟩
      rw [SortedMap.find?_insert, if_pos rfl]
    · have hne : e.1 ≠ f.1 := by
        intro h
        exact KeyOrder.irrefl _ (h ▸ hf e he)
      obtain ⟨a, ha, hplaceholder⟩ := ih hrest he
      refine ⟨a, ?_, hplaceholder.mono (Nat.le_succ _) (Nat.le_refl _)⟩
      rw [SortedMap.find?_insert, if_neg hne, ha]

theorem unpopulated?_eq_none_iff {s : Store} {b : Bindings} {l : List (String × Channel)} :
    unpopulated? s b l = none ↔ ∀ e ∈ l, readable s (b.artifacts e.2) = true := by
  induction l with
  | nil => simp [unpopulated?]
  | cons e rest ih =>
    rw [List.forall_mem_cons, ← ih, unpopulated?]
    cases readable s (b.artifacts e.2) <;> simp

theorem readable_iff {s : Store} {l : List Artifact} :
    readable s l = true ↔ l ≠ [] ∧ ∀ a ∈ l, (s.artifact a).populated = true := by
  simp [readable]

/-- The request for a component whose inputs can all be read. It is defined for all others, too, and
is then not made. -/
def request (c : Component) (runId root : String) (b : Bindings) (s : Store) : Request where
  component := c.name
  runId := runId
  inputs := c.inputs.map fun _ d => b.artifacts d
  outputs := (placeholders root c.name runId s c.outputs.entries).1
  parameters := c.parameters
  targets := c.outputs

theorem request_outputs (c : Component) (runId root : String) (b : Bindings) (s : Store) :
    (c.request runId root b s).outputs =
      (placeholders root c.name runId s c.outputs.entries).1 := rfl

/-- What comes of preparing. The first input that cannot be read is named, and nothing has changed;
or there is a request, and the store has a new artifact for every output. -/
theorem prepare_eq (c : Component) (runId root : String) (b : Bindings) (s : Store) :
    c.prepare runId root b s =
      match unpopulated? s b c.inputs.entries with
      | some field => (.error (.unpopulatedInput c.name field), s)
      | none => (.ok (c.request runId root b s),
          (placeholders root c.name runId s c.outputs.entries).2) := by
  unfold prepare
  simp only [StoreM.bind_apply, StoreM.get_apply]
  cases unpopulated? s b c.inputs.entries <;> rfl

theorem prepare_eq_error_iff {c : Component} {runId root : String} {b : Bindings} {s s' : Store}
    {e : ExecutionError} :
    c.prepare runId root b s = (.error e, s') ↔ ∃ field,
      unpopulated? s b c.inputs.entries = some field ∧ e = .unpopulatedInput c.name field ∧
        s' = s := by
  rw [prepare_eq]
  constructor
  · intro h
    cases hu : unpopulated? s b c.inputs.entries with
    | some field =>
      rw [hu] at h
      cases h
      exact ⟨field, rfl, rfl, rfl⟩
    | none =>
      rw [hu] at h
      cases h
  · rintro ⟨field, hu, rfl, rfl⟩
    rw [hu]

theorem prepare_eq_ok_iff {c : Component} {runId root : String} {b : Bindings} {s s' : Store}
    {r : Request} :
    c.prepare runId root b s = (.ok r, s') ↔
      unpopulated? s b c.inputs.entries = none ∧ r = c.request runId root b s ∧
        s' = (placeholders root c.name runId s c.outputs.entries).2 := by
  rw [prepare_eq]
  constructor
  · intro h
    cases hu : unpopulated? s b c.inputs.entries with
    | some field =>
      rw [hu] at h
      cases h
    | none =>
      rw [hu] at h
      cases h
      exact ⟨rfl, rfl, rfl⟩
  · rintro ⟨hu, rfl, rfl⟩
    rw [hu]

/-- What is known of the request of a component that was prepared. -/
structure Prepared (c : Component) (runId root : String) (b : Bindings) (s s' : Store)
    (r : Request) : Prop where
  inputs : r.inputs = c.inputs.map fun _ d => b.artifacts d
  targets : r.targets = c.outputs
  /-- There is something to read for each input. -/
  readable : ∀ e ∈ c.inputs.entries,
    b.artifacts e.2 ≠ [] ∧ ∀ a ∈ b.artifacts e.2, (s.artifact a).populated = true
  /-- There is one new artifact for each output. -/
  outputs : ∀ e ∈ c.outputs.entries, ∃ a, r.outputs.find? e.1 = some [a] ∧
    Placeholder root c.name runId s s' e a
  grows : s.Grows s'

/-- Preparing fails and leaves the store as it is, or gives a request. -/
theorem prepare_cases (c : Component) (runId root : String) (b : Bindings) (s : Store) :
    (∃ e, c.prepare runId root b s = (.error e, s)) ∨
      ∃ r s', c.prepare runId root b s = (.ok r, s') ∧ c.Prepared runId root b s s' r := by
  cases hu : unpopulated? s b c.inputs.entries with
  | some field => exact .inl ⟨_, prepare_eq_error_iff.mpr ⟨field, hu, rfl, rfl⟩⟩
  | none =>
    refine .inr ⟨_, _, prepare_eq_ok_iff.mpr ⟨hu, rfl, rfl⟩, rfl, rfl, fun e he => ?_,
      fun e he => ?_, ?_⟩
    · exact readable_iff.mp (unpopulated?_eq_none_iff.mp hu e he)
    · exact exists_placeholder c.outputs.sorted he
    · exact grows_placeholders root c.name runId s _

end Component

/-! ### Invoking

An invocation runs the executor and then judges what it has left. The judgement is a function of the
store, which keeps the two apart. -/

namespace Request

theorem incomplete?_eq_none_iff {r : Request} {s : Store} :
    r.incomplete? s = none ↔
      ∀ e ∈ r.outputs.entries, ∀ a ∈ e.2, (s.artifact a).populated = true := by
  simp [incomplete?]

/-- What comes of an invocation: an executor that is done may have left an output without
location. -/
def judge (r : Request) (s : Store) :
    Except ExecutionError Unit → Except ExecutionError Unit
  | .error e => .error e
  | .ok () =>
    match r.incomplete? s with
    | some output => .error (.incompleteOutput r.component output)
    | none => .ok ()

theorem invoke_apply (r : Request) (executor : Executor) (s : Store) (w : W) :
    r.invoke host executor s w =
      ((r.judge ((executor r.handed.offer r.parameters).run host r.handed s w).1.2
            ((executor r.handed.offer r.parameters).run host r.handed s w).1.1,
          ((executor r.handed.offer r.parameters).run host r.handed s w).1.2),
        ((executor r.handed.offer r.parameters).run host r.handed s w).2) := by
  unfold invoke
  rw [machine_bind_apply]
  rcases (executor r.handed.offer r.parameters).run host r.handed s w with ⟨⟨e | done, s'⟩, w'⟩
  · rfl
  · dsimp only
    rw [machine_bind_apply, machine_get_apply, judge]
    dsimp only
    cases r.incomplete? s' <;> rfl

theorem judge_error_iff {r : Request} {s : Store} {result : Except ExecutionError Unit}
    {e : ExecutionError} :
    r.judge s result = .error e ↔ result = .error e ∨ result = .ok () ∧
      ∃ output, r.incomplete? s = some output ∧ e = .incompleteOutput r.component output := by
  cases result with
  | error e' => simp [judge]
  | ok done =>
    rw [judge]
    cases r.incomplete? s with
    | none => simp
    | some output => simp [eq_comm]

theorem judge_ok_iff {r : Request} {s : Store} {result : Except ExecutionError Unit} :
    r.judge s result = .ok () ↔ result = .ok () ∧ r.incomplete? s = none := by
  cases result with
  | error e => simp [judge]
  | ok done =>
    rw [judge]
    cases r.incomplete? s <;> simp

/-- An invocation lets the store grow, and if it ends well, all outputs have locations. -/
theorem invoke_spec (r : Request) (executor : Executor) (s : Store) (w : W) :
    ∃ result s' w', r.invoke host executor s w = ((result, s'), w') ∧ s.Grows s' ∧
      (result = .ok () → ∀ e ∈ r.outputs.entries, ∀ a ∈ e.2, (s'.artifact a).populated = true) := by
  have hgrows := Work.grows_run host r.handed (executor r.handed.offer r.parameters) s w
  exact ⟨_, _, _, r.invoke_apply host executor s w, hgrows,
    fun hok => incomplete?_eq_none_iff.mp (judge_ok_iff.mp hok).2⟩

end Request

/-! ### Publishing -/

namespace Bindings

theorem bind_eq_ok {b : Bindings} {c : Channel} {l : List Artifact} (h : ∀ a ∈ l, a.type = c.type) :
    b.bind c l = .ok ⟨b.bound.insert c.id l⟩ := by
  rw [bind, Channel.misfit?_eq_none_iff.mpr h]

/-- What is bound once the outputs `l` are published. Channels of other components are not
touched. -/
structure Published (outputs : TextMap (List Artifact)) (l : List (String × Channel))
    (b b' : Bindings) : Prop where
  /-- Each channel of an output has what was made for the output. -/
  bound : ∀ e ∈ l, b'.find? e.2 = outputs.find? e.1
  /-- Other channels have what they had. -/
  others : ∀ c : Channel, (∀ e ∈ l, e.2.id ≠ c.id) → b'.find? c = b.find? c

end Bindings

/-- Outputs that have the types of their channels are published, if no two of them have one
channel. -/
theorem Request.publishAll_spec {outputs : TextMap (List Artifact)} {l : List (String × Channel)}
    (b : Bindings) (hl : (l.map fun e => e.2.id).Nodup)
    (hfit : ∀ e ∈ l, ∃ a, outputs.find? e.1 = some [a] ∧ a.type = e.2.type) :
    ∃ b', publishAll outputs b l = (b', .ok ()) ∧ Bindings.Published outputs l b b' := by
  induction l generalizing b with
  | nil => exact ⟨b, rfl, by simp, fun c _ => rfl⟩
  | cons e rest ih =>
    obtain ⟨hnew, hrest⟩ := List.nodup_cons.mp hl
    obtain ⟨a, ha, htype⟩ := hfit e List.mem_cons_self
    have hfit' : ∀ f ∈ rest, ∃ a, outputs.find? f.1 = some [a] ∧ a.type = f.2.type := by
      intro f hf
      exact hfit f (List.mem_cons_of_mem _ hf)
    obtain ⟨b', hb', hbound, hothers⟩ := ih ⟨b.bound.insert e.2.id [a]⟩ hrest hfit'
    have hlater : ∀ f ∈ rest, f.2.id ≠ e.2.id := by
      intro f hf hid
      exact hnew (List.mem_map.mpr ⟨f, hf, hid⟩)
    refine ⟨b', ?_, fun f hf => ?_, fun c hc => ?_⟩
    · rw [publishAll, ha, Option.getD_some, Bindings.bind_eq_ok (by simpa using htype)]
      exact hb'
    · rcases List.mem_cons.mp hf with rfl | hf
      · rw [hothers f.2 hlater, ha, Bindings.find?, SortedMap.find?_insert, if_pos rfl]
      · exact hbound f hf
    · rw [hothers c fun f hf => hc f (List.mem_cons_of_mem _ hf), Bindings.find?,
        SortedMap.find?_insert, if_neg (hc e List.mem_cons_self).symm, Bindings.find?]

end TypedPipeline
