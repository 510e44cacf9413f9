import TypedPipeline.Proofs.Store

/-!
# Steps that decide

A step may fail for many reasons. Of a step that only checks what it is given, one wants to know the
condition under which it succeeds, and what its result and the store are then. Both are said
together here, because the condition of a later step is often one only for results of the earlier
steps.

## Implementation notes

`Decides` has two clauses, one for each direction, and they are kept apart because they are put
together differently. Sufficiency goes forward: the condition of a step has to be known before the
step is taken. Necessity goes backward from a success, and brings along what is known of the store.

A condition that depends on what an earlier step has made cannot be named before that step. In
`bind` the condition of the second step is therefore a proposition without parameters; what the
first step leaves may be used to prove that it is the right one.

`Leaves` is the second half alone, for steps whose failures are of no interest, and `FailsAs` is
about failures alone. A whole build is walked through three times, once with each of them.

## Main definitions

* `StoreM.Decides` — when a step succeeds, and what holds then
* `StoreM.Leaves` — what holds of a step that has succeeded

## Main results

* `StoreM.Decides.bind` — steps one after the other
* `StoreM.Decides.exists_ok_iff` — a step that decides succeeds exactly under its condition
-/

namespace TypedPipeline.StoreM

variable {ε α β : Type} {x : StoreM ε α} {f : α → StoreM ε β} {s s' : Store} {a : α} {P P' Q : Prop}
  {D D' : α → Store → Prop} {E : β → Store → Prop}

/-- A step succeeds exactly if `P` holds, and then `D` holds of its result and of the store. What
the step does when it fails is left open. -/
structure Decides (x : StoreM ε α) (s : Store) (P : Prop) (D : α → Store → Prop) : Prop where
  /-- The condition is sufficient. -/
  succeeds : P → ∃ a s', x s = (.ok a, s')
  /-- The condition is necessary, and this is how the step ends. -/
  sound : ∀ a s', x s = (.ok a, s') → P ∧ D a s'

namespace Decides

/-- A step that decides succeeds exactly under its condition. -/
theorem exists_ok_iff (h : Decides x s P D) : (∃ a s', x s = (.ok a, s')) ↔ P :=
  ⟨fun ⟨a, s', ha⟩ => (h.sound a s' ha).1, h.succeeds⟩

/-- A step that is known to succeed. -/
theorem of_ok (hx : x s = (.ok a, s')) (hD : D a s') : Decides x s True D where
  succeeds _ := ⟨a, s', hx⟩
  sound b s'' hb := by
    cases hx.symm.trans hb
    exact ⟨trivial, hD⟩

/-- A step that is known to fail. -/
theorem of_error {e : ε} (hx : x s = (.error e, s')) : Decides x s False D where
  succeeds := False.elim
  sound b s'' hb := by cases hx.symm.trans hb

theorem pure (hD : D a s) : Decides (pure a : StoreM ε α) s True D := of_ok rfl hD

/-- Another wording of the condition. What comes of the step is the same, so nothing else
changes. -/
theorem congr (h : Decides x s P D) (hP : P ↔ P') : Decides x s P' D := by
  rwa [← propext hP]

/-- A weaker description of the end. -/
theorem imp (h : Decides x s P D) (hD : ∀ a s', P → D a s' → D' a s') : Decides x s P D' where
  succeeds := h.succeeds
  sound a s' ha := by
    obtain ⟨hP, hd⟩ := h.sound a s' ha
    exact ⟨hP, hD a s' hP hd⟩

/-- Steps one after the other: the second one may count on the condition of the first one and on the
way in which that one ends. -/
theorem bind (hx : Decides x s P D) (hf : ∀ a s', P → D a s' → Decides (f a) s' Q E) :
    Decides (x >>= f) s (P ∧ Q) E where
  succeeds := by
    rintro ⟨hP, hQ⟩
    obtain ⟨a, s', ha⟩ := hx.succeeds hP
    obtain ⟨b, s'', hb⟩ := (hf a s' hP (hx.sound a s' ha).2).succeeds hQ
    refine ⟨b, s'', ?_⟩
    rw [bind_apply, ha]
    exact hb
  sound b s'' hb := by
    rw [bind_apply] at hb
    split at hb
    · rename_i a s' ha
      obtain ⟨hP, hD⟩ := hx.sound a s' ha
      obtain ⟨hQ, hE⟩ := (hf a s' hP hD).sound b s'' hb
      exact ⟨⟨hP, hQ⟩, hE⟩
    · cases hb

/-- A step in front of one that cannot fail. The condition is that of the first step alone. -/
theorem andThen (hx : Decides x s P D) (hf : ∀ a s', P → D a s' → Decides (f a) s' True E) :
    Decides (x >>= f) s P E :=
  (hx.bind hf).congr (by rw [and_true])

/-- A step behind one that cannot fail. -/
theorem bind_ok (hx : x s = (.ok a, s')) (hf : Decides (f a) s' Q E) : Decides (x >>= f) s Q E :=
  ((of_ok (D := fun b t => b = a ∧ t = s') hx ⟨rfl, rfl⟩).bind
    fun _ _ _ ⟨hb, ht⟩ => by rw [hb, ht]; exact hf).congr (by rw [true_and])

/-- A question to the store leaves the store as it is. -/
theorem ask {q : Store → Except ε α} :
    Decides (ask q) s (∃ a, q s = .ok a) fun a s' => q s = .ok a ∧ s' = s where
  succeeds := fun ⟨a, ha⟩ => ⟨a, s, by rw [ask_apply, ha]⟩
  sound a s' h := by
    rw [ask_apply, Prod.mk.injEq] at h
    exact ⟨⟨a, h.1⟩, h.1, h.2.symm⟩

end Decides

/-! ### Steps that succeed

Nothing is said of when the step succeeds. -/

/-- If a step succeeds, `D` holds of its result and of the store. -/
def Leaves (x : StoreM ε α) (s : Store) (D : α → Store → Prop) : Prop :=
  ∀ a s', x s = (.ok a, s') → D a s'

namespace Leaves

theorem of_error {e : ε} (hx : x s = (.error e, s')) : Leaves x s D := by
  intro a s'' ha
  cases hx.symm.trans ha

theorem pure (h : D a s) : Leaves (pure a : StoreM ε α) s D := by
  intro b s' hb
  cases hb
  exact h

theorem imp (h : Leaves x s D) (hD : ∀ a s', D a s' → D' a s') : Leaves x s D' :=
  fun a s' ha => hD a s' (h a s' ha)

/-- Steps one after the other: the second one may count on what the first one leaves. -/
theorem bind (hx : Leaves x s D) (hf : ∀ a s', D a s' → Leaves (f a) s' E) :
    Leaves (x >>= f) s E := by
  intro b s'' hb
  rw [bind_apply] at hb
  split at hb
  · rename_i a s' ha
    exact hf a s' (hx a s' ha) b s'' hb
  · cases hb

/-- A step behind one that cannot fail. -/
theorem bind_ok (hx : x s = (.ok a, s')) (hf : Leaves (f a) s' E) : Leaves (x >>= f) s E := by
  intro b s'' hb
  rw [bind_apply, hx] at hb
  exact hf b s'' hb

/-- A change in front of steps that fail if it is refused. -/
theorem change {b : Artifact} {op : ArtifactOp} {k : Option Refusal → StoreM ε β}
    (hfail : ∀ r t, ∃ e t', k (some r) t = (.error e, t'))
    (hok : (s.artifact b).apply op = .ok ((s.change b op).2.artifact b) →
      Leaves (k none) (s.change b op).2 E) :
    Leaves (run' (fun s => s.change b op) >>= k) s E := by
  refine bind_ok (run'_apply _ _) ?_
  cases hchange : (s.change b op).1 with
  | some r =>
    obtain ⟨e, t', he⟩ := hfail r (s.change b op).2
    exact .of_error he
  | none => exact hok (Store.apply_of_change hchange)

theorem ask {q : Store → Except ε α} : Leaves (ask q) s fun a s' => q s = .ok a ∧ s' = s := by
  intro a s' ha
  rw [ask_apply, Prod.mk.injEq] at ha
  exact ⟨ha.1, ha.2.symm⟩

theorem update {g : Store → Except ε Store} : Leaves (update g) s fun _ s' => g s = .ok s' := by
  intro a s' ha
  rw [StoreM.update] at ha
  split at ha <;> cases ha
  assumption

end Leaves

/-! ### Steps that fail

Nothing is said of the store after a failure, only of what is reported. -/

/-- Whatever a step reports is of one kind. If it succeeds, nothing is claimed. -/
def FailsAs (x : StoreM ε α) (s : Store) (K : ε → Prop) : Prop :=
  ∀ e s', x s = (.error e, s') → K e

namespace FailsAs

variable {K K' : ε → Prop}

/-- A step that is known to succeed reports nothing. -/
theorem of_ok (hx : x s = (.ok a, s')) : FailsAs x s K := by
  intro e s'' he
  cases hx.symm.trans he

theorem of_error {e : ε} (hx : x s = (.error e, s')) (he : K e) : FailsAs x s K := by
  intro e' s'' he'
  cases hx.symm.trans he'
  exact he

theorem pure (a : α) : FailsAs (pure a : StoreM ε α) s K := of_ok rfl

theorem imp (h : FailsAs x s K) (hK : ∀ e, K e → K' e) : FailsAs x s K' :=
  fun e s' he => hK e (h e s' he)

/-- Steps one after the other report what the first one or the second one does. -/
theorem bind (hx : FailsAs x s K) (hf : ∀ a s', x s = (.ok a, s') → FailsAs (f a) s' K) :
    FailsAs (x >>= f) s K := by
  intro e s'' he
  rw [bind_apply] at he
  split at he
  · rename_i a s' ha
    exact hf a s' ha e s'' he
  · rename_i e' s' he'
    cases he
    exact hx e s'' he'

/-- A step behind one that cannot fail. -/
theorem bind_ok (hx : x s = (.ok a, s')) (hf : FailsAs (f a) s' K) : FailsAs (x >>= f) s K :=
  (of_ok hx).bind fun b s'' hb => by
    cases hx.symm.trans hb
    exact hf

theorem ask {q : Store → Except ε α} (h : ∀ e, q s = .error e → K e) : FailsAs (ask q) s K := by
  intro e s' he
  rw [ask_apply, Prod.mk.injEq] at he
  exact h e he.1

end FailsAs

end TypedPipeline.StoreM
