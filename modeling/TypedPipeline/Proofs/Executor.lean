import TypedPipeline.Proofs.Request

/-!
# Programs that write last

A program that is refused in the middle of its work leaves behind what it has written by then. Where
nothing may be left behind, artifacts are written last: everything that can fail comes before, and
changes no artifact. What comes last is written to one artifact, its location at the very end, and
none of these changes can be refused if the first one is not.

## Implementation notes

A program is followed along its text: `Quiet` and `Delivers` have a lemma for each way of putting
programs together, and a proof about a program is one application for each line of it. `Quiet` hands
on what is known of results, such as the slot of an output, because later steps depend on it.

The condition under which the last writes succeed is that there is no location yet. It is not known
in advance; if there is one, the first of the writes is refused, and nothing has been changed. That
is why `Seals` has both halves.

Running again after a failure is not the same run, since the machine may have changed. What is the
same is the store, as far as artifacts go, and by `run_congr` a program does not depend on anything
else of it.

## Main definitions

* `Work.Quiet` — the program changes no artifact
* `Store.Locates` — one artifact has got a location, and no other has changed
* `Work.Seals` — the program gives one artifact a location, or changes nothing if there is one
* `Work.Delivers` — the program gives an output a location, or changes nothing if it fails

## Main results

* `Work.run_bind` — programs one after the other
* `Work.run_congr` — what a program does depends on the artifacts of the store only
* `Work.Quiet.delivers`, `Work.Seals.delivers` — how a program that delivers is put together
-/

namespace TypedPipeline

variable {W α β : Type} (host : Host (StateM W)) (h : Work.Handed)

namespace Work

/-! ### One after the other

Running a program is an interpreter for a tree, and these lemmas are its equations. -/

theorem run_bind (p : Work α) (f : α → Work β) (s : Store) (w : W) :
    (p >>= f).run host h s w =
      match p.run host h s w with
      | ((.ok a, s'), w') => (f a).run host h s' w'
      | ((.error e, s'), w') => ((.error e, s'), w') := by
  show (p.bind f).run host h s w = _
  induction p generalizing s w with
  | done a => rfl
  | fail e => rfl
  | refused slot r => rfl
  | look slot next ih => exact ih _ s w
  | change slot op next ih =>
    cases hslot : h.artifact? slot with
    | none =>
      rw [bind, run_change_of_none host hslot, run_change_of_none host hslot]
      exact ih _ s w
    | some a =>
      rw [bind, run_change_of_some host hslot, run_change_of_some host hslot]
      exact ih _ _ w
  | ask request next ih => exact ih _ s _
  | note e next ih => exact ih (s.note e) w

/-- A program behind one that is known to be done. It begins in the store and on the machine that
the first one has left. -/
theorem run_bind_of_done {host : Host (StateM W)} {h : Handed} {p : Work α} {a : α} {s s' : Store}
    {w w' : W} (hp : p.run host h s w = ((.ok a, s'), w')) (f : α → Work β) :
    (p >>= f).run host h s w = (f a).run host h s' w' := by
  rw [run_bind, hp]

/-- The only artifact of a field is in its first slot. Fields of built-in kinds have one artifact
each. -/
theorem Handed.artifact?_of_find? {h : Handed} (side : Side) {field : String} {a : Artifact}
    (ha : (h.side side).find? field = some [a]) : h.artifact? ⟨side, field, 0⟩ = some a := by
  simp [artifact?, ha]

/-- Notes, channels and numbers that are given out make no difference to a program. It sees
artifacts and answers of the machine, and nothing else. -/
theorem run_congr (p : Work α) {s t : Store} (hst : ∀ a, t.artifact a = s.artifact a) (w : W) :
    (p.run host h t w).1.1 = (p.run host h s w).1.1 ∧
      (p.run host h t w).2 = (p.run host h s w).2 ∧
      ∀ a, (p.run host h t w).1.2.artifact a = (p.run host h s w).1.2.artifact a := by
  induction p generalizing s t w with
  | done a => exact ⟨rfl, rfl, hst⟩
  | fail e => exact ⟨rfl, rfl, hst⟩
  | refused slot r => exact ⟨rfl, rfl, hst⟩
  | look slot next ih =>
    rw [run_look, run_look]
    simp only [hst]
    exact ih _ hst w
  | change slot op next ih =>
    cases hslot : h.artifact? slot with
    | none =>
      rw [run_change_of_none host hslot, run_change_of_none host hslot]
      exact ih _ hst w
    | some a =>
      rw [run_change_of_some host hslot, run_change_of_some host hslot]
      cases hs : (s.artifact a).apply op with
      | error r =>
        have ht : (t.artifact a).apply op = .error r := by rwa [hst a]
        rw [Store.change_of_error hs, Store.change_of_error ht]
        exact ih _ hst w
      | ok state =>
        have ht : (t.artifact a).apply op = .ok state := by rwa [hst a]
        obtain ⟨hnone, hchanged⟩ := Store.change_of_ok hs
        obtain ⟨hnone', hchanged'⟩ := Store.change_of_ok ht
        rw [hnone, hnone']
        exact ih _ (fun b => by rw [hchanged, hchanged', hst b]) w
  | ask request next ih => exact ih _ hst _
  | note e next ih => exact ih (s := s.note e) (t := t.note e) hst w

/-! ### Programs that change nothing

Notes are left and numbers of artifacts stay, so the store is not the same. The map of artifacts is.
-/

/-- The program changes no artifact, and what it is done with is as `Q` says. -/
def Quiet (p : Work α) (Q : α → Prop) : Prop :=
  ∀ (s : Store) (w : W), (p.run host h s w).1.2.artifacts = s.artifacts ∧
    ∀ a, (p.run host h s w).1.1 = .ok a → Q a

namespace Quiet

variable {host h} {p : Work α} {f : α → Work β} {Q : α → Prop} {R : β → Prop}

theorem pure {a : α} (ha : Q a) : Quiet host h (pure a) Q :=
  fun _ _ => ⟨rfl, fun _ hb => by cases hb; exact ha⟩

theorem fail (e : ExecutionError) : Quiet host h (fail e) Q :=
  fun _ _ => ⟨rfl, fun _ hb => nomatch hb⟩

theorem refused (slot : Slot) (r : Refusal) : Quiet host h (refused slot r) Q :=
  fun _ _ => ⟨rfl, fun _ hb => nomatch hb⟩

theorem bind (hp : Quiet host h p Q) (hf : ∀ a, Q a → Quiet host h (f a) R) :
    Quiet host h (p >>= f) R := by
  intro s w
  obtain ⟨hkept, hdone⟩ := hp s w
  rw [run_bind]
  generalize p.run host h s w = out at hkept hdone
  obtain ⟨⟨e | a, s'⟩, w'⟩ := out
  · exact ⟨hkept, fun b hb => nomatch hb⟩
  · obtain ⟨hkept', hdone'⟩ := hf a (hdone a rfl) s' w'
    exact ⟨hkept'.trans hkept, hdone'⟩

/-- A look at an artifact. What never changes about it is what was handed out. -/
theorem look {slot : Slot} {next : Option View → Work α}
    (hnext : ∀ v, v.map View.artifact = h.artifact? slot → Quiet host h (next v) Q) :
    Quiet host h (look slot next) Q := by
  intro s w
  rw [run_look]
  refine hnext _ ?_ s w
  cases h.artifact? slot <;> rfl

theorem request (r : Host.Request) : Quiet host h (request r) fun _ => True :=
  fun _ _ => ⟨rfl, fun _ _ => trivial⟩

theorem note (e : Event) : Quiet host h (note e (done ())) fun _ => True :=
  fun _ _ => ⟨rfl, fun _ _ => trivial⟩

theorem ofIo (context : String) (x : Except IoError α) :
    Quiet host h (ofIo context x) fun _ => True := by
  cases x with
  | ok a => exact .pure trivial
  | error e => exact .fail _

theorem requireUri (slot : Slot) : Quiet host h (requireUri slot) fun _ => True := by
  refine .look fun v _ => ?_
  cases v.bind fun v => v.state.uri with
  | some uri => exact .pure trivial
  | none => exact .refused slot .unpopulated

/-- The slot of the only artifact that is handed out for a field. -/
theorem single (side : Side) (field : String) :
    Quiet host h (single side ((h.side side).map fun _ l => l.map Artifact.type) field)
      fun slot => ∃ a, (h.side side).find? field = some [a] ∧ slot = ⟨side, field, 0⟩ := by
  rw [Work.single, SortedMap.find?_map]
  rcases (h.side side).find? field with _ | _ | ⟨a, _ | ⟨b, l⟩⟩
  · exact .fail _
  · exact .fail _
  · exact .pure ⟨a, rfl, rfl⟩
  · exact .fail _

theorem input (field : String) : Quiet host h (h.offer.input field) fun _ => True :=
  fun s w => (single .input field s w).imp_right fun _ _ _ => trivial

theorem output (field : String) : Quiet host h (h.offer.output field) fun slot =>
    ∃ a, h.outputs.find? field = some [a] ∧ slot = ⟨.output, field, 0⟩ :=
  single .output field

end Quiet

end Work

/-! ### The writes at the end

One artifact is written to, any number of properties and then the location. -/

/-- An artifact has got a location, and no other artifact has changed. -/
structure Store.Locates (s : Store) (a : Artifact) (uri : String) (s' : Store) : Prop where
  before : (s.artifact a).uri = none
  after : (s'.artifact a).uri = some uri
  others : ∀ b : Artifact, b.id ≠ a.id → s'.artifact b = s.artifact b

namespace Work

/-- The program writes to one artifact, its location last. All of this succeeds if the artifact has
no location yet, and otherwise nothing is changed. -/
structure Seals (a : Artifact) (uri : String) (p : Work Unit) : Prop where
  ok : ∀ (s : Store) (w : W), (s.artifact a).uri = none →
    ∃ s', p.run host h s w = ((.ok (), s'), w) ∧ s.Locates a uri s'
  error : ∀ (s : Store) (w : W), (s.artifact a).uri ≠ none →
    ∃ e, p.run host h s w = ((.error e, s), w)

/-- If the program fails, no artifact has changed. If it is done, the only artifact of an output has
got a location as `K` says, and no other artifact has changed. -/
structure Delivers (field : String) (K : Artifact → String → Prop) (p : Work Unit) : Prop where
  error : ∀ (s : Store) (w : W) e, (p.run host h s w).1.1 = .error e →
    (p.run host h s w).1.2.artifacts = s.artifacts
  ok : ∀ (s : Store) (w : W), (p.run host h s w).1.1 = .ok () →
    ∃ a uri, h.outputs.find? field = some [a] ∧ K a uri ∧ s.Locates a uri (p.run host h s w).1.2

variable {host h} {a : Artifact} {slot : Slot}

/-- A change that is accepted, and what is done then. The program goes on in the store with the
change. -/
theorem run_apply_of_ok {op : ArtifactOp} {state : ArtifactState} {s : Store}
    (hslot : h.artifact? slot = some a) (happly : (s.artifact a).apply op = .ok state) (w : W) :
    (apply slot op).run host h s w = ((.ok (), (s.change a op).2), w) := by
  rw [apply, run_change_of_some host hslot, (Store.change_of_ok happly).1]
  rfl

theorem run_apply_of_error {op : ArtifactOp} {r : Refusal} {s : Store}
    (hslot : h.artifact? slot = some a) (happly : (s.artifact a).apply op = .error r) (w : W) :
    (apply slot op).run host h s w = ((.error (refusedError h slot r), s), w) := by
  rw [apply, run_change_of_some host hslot, Store.change_of_error happly]
  rfl

namespace Seals

theorem setUri (hslot : h.artifact? slot = some a) (uri : String) :
    Seals host h a uri (apply slot (.setUri uri)) where
  ok s w hnone := by
    have happly : (s.artifact a).apply (.setUri uri) =
        .ok { s.artifact a with uri := some uri } := by
      rw [ArtifactState.apply, ArtifactState.setUri, hnone]
    have hchanged := (Store.change_of_ok happly).2
    refine ⟨_, run_apply_of_ok hslot happly w, hnone, ?_, fun b hb => ?_⟩
    · rw [hchanged, if_pos rfl]
    · rw [hchanged, if_neg hb]
  error s w hsome := by
    obtain ⟨old, hold⟩ := Option.ne_none_iff_exists'.mp hsome
    have happly : (s.artifact a).apply (.setUri uri) = .error (.uriAlreadySet old) := by
      rw [ArtifactState.apply, ArtifactState.setUri, hold]
    exact ⟨_, run_apply_of_error hslot happly w⟩

/-- A property is written before the location, which it leaves open. -/
theorem setProperty {uri : String} {p : Work Unit} (hslot : h.artifact? slot = some a)
    (hp : Seals host h a uri p) (name : String) (value : Scalar) :
    Seals host h a uri (do apply slot (.setProperty name value); p) where
  ok s w hnone := by
    have happly : (s.artifact a).apply (.setProperty name value) =
        .ok { s.artifact a with properties := (s.artifact a).properties.insert name value } := by
      rw [ArtifactState.apply, ArtifactState.setProperty, ArtifactState.populated,
        if_neg (by simp [hnone])]
    have hchanged := (Store.change_of_ok happly).2
    rw [run_bind, run_apply_of_ok hslot happly]
    obtain ⟨s', hs', hlocates⟩ := hp.ok (s.change a (.setProperty name value)).2 w
      (by rw [hchanged, if_pos rfl, hnone])
    refine ⟨s', hs', hnone, hlocates.after, fun b hb => ?_⟩
    rw [hlocates.others b hb, hchanged, if_neg hb]
  error s w hsome := by
    have happly : (s.artifact a).apply (.setProperty name value) = .error .sealed := by
      rw [ArtifactState.apply, ArtifactState.setProperty, ArtifactState.populated,
        if_pos (Option.isSome_iff_ne_none.mpr hsome)]
    rw [run_bind, run_apply_of_error hslot happly]
    exact ⟨_, rfl⟩

end Seals

/-! ### Everything before, and the writes -/

variable {field : String} {K : Artifact → String → Prop}

theorem Delivers.fail (e : ExecutionError) : Delivers host h field K (fail e) where
  error _ _ _ _ := rfl
  ok _ _ hok := nomatch hok

theorem Seals.delivers {uri : String} {p : Work Unit} (hp : Seals host h a uri p)
    (ha : h.outputs.find? field = some [a]) (huri : K a uri) : Delivers host h field K p where
  error s w e he := by
    by_cases hnone : (s.artifact a).uri = none
    · obtain ⟨s', hs', -⟩ := hp.ok s w hnone
      rw [hs'] at he
      cases he
    · obtain ⟨e', he'⟩ := hp.error s w hnone
      rw [he']
  ok s w hok := by
    by_cases hnone : (s.artifact a).uri = none
    · obtain ⟨s', hs', hlocates⟩ := hp.ok s w hnone
      rw [hs']
      exact ⟨a, uri, ha, huri, hlocates⟩
    · obtain ⟨e, he⟩ := hp.error s w hnone
      rw [he] at hok
      cases hok

/-- What changes nothing may come before. -/
theorem Quiet.delivers {p : Work α} {f : α → Work Unit} {Q : α → Prop} (hp : Quiet host h p Q)
    (hf : ∀ a, Q a → Delivers host h field K (f a)) : Delivers host h field K (p >>= f) where
  error s w e he := by
    obtain ⟨hkept, hdone⟩ := hp s w
    rw [run_bind] at he ⊢
    generalize p.run host h s w = out at hkept hdone he
    obtain ⟨⟨e' | a, s'⟩, w'⟩ := out
    · exact hkept
    · exact ((hf a (hdone a rfl)).error s' w' e he).trans hkept
  ok s w hok := by
    obtain ⟨hkept, hdone⟩ := hp s w
    rw [run_bind] at hok ⊢
    generalize p.run host h s w = out at hkept hdone hok
    obtain ⟨⟨e | a, s'⟩, w'⟩ := out
    · cases hok
    · have hsame := Store.artifact_congr hkept
      obtain ⟨b, uri, hb, huri, hlocates⟩ := (hf a (hdone a rfl)).ok s' w' hok
      refine ⟨b, uri, hb, huri, ?_, hlocates.after, fun c hc => ?_⟩
      · rw [← hsame, hlocates.before]
      · rw [← hsame, ← hlocates.others c hc]

end Work

end TypedPipeline
