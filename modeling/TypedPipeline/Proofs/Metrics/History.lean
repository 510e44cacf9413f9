import TypedPipeline.Metrics.Collector

/-!
# Histories of a collector

A history lists the calls to a collector and to its timers, the latest first. Which timers there are
is read off the calls alone: a timer goes on under its name from the call that started it up to the
next call that ends what goes on under this name. The place of a call is the number of calls before
it, so that a timer is known by the place where it was started, whatever other timers had its name.

## Implementation notes

Two descriptions of a timer are needed. `going?` and `ended` are computed along the history, and are
what the collector is compared with. `Lasts` says the same without recursion, by places in the
history: a call that starts the timer, and no call about its name up to the place in question. The
lemmas with `iff` in their names connect the two, and show that the recursions say what is meant.

The latest call stands first, so that a history grows by `cons` and the figures behind it come by
structural recursion. Places count from the other end; a call keeps its place when the history goes
on, which is what `callAt?_cons_of_lt` says.

Starting a timer under a name in use ends the other timer. It is therefore one of the calls that end
something (`Call.ends?`), beside finishing and dropping.

## Main definitions

* `Collector.Call`, `Collector.after` — the calls, and the collector behind a history of them
* `Collector.going?`, `Collector.ended` — the timers that go on, and those that have ended
* `Collector.Lasts` — from where up to where a timer goes on

## Main results

* `Collector.going?_eq_some_iff`, `Collector.mem_ended_iff` — what these timers are
* `Collector.nodup_ended` — a timer ends once
-/

namespace TypedPipeline.Collector

/-! ### Calls -/

/-- A call to a collector, or to the timer with a name. -/
inductive Call where
  | begin (runId : String)
  | start (name component kind : String) (now : Nat)
  | finish (name : String) (outcome : Outcome) (now : Nat)
  | drop (name : String) (now : Nat)
  | finishRun (d : Duration)

/-- The collector after a call. Nothing is done to a timer that does not go on. -/
def call (c : Collector) : Call → Collector
  | .begin runId => c.begin runId
  | .start name component kind now => c.start name component kind now
  | .finish name outcome now => (c.finish? name outcome now).getD c
  | .drop name now => (c.drop? name now).getD c
  | .finishRun d => c.finishRun d

/-- Calls, the latest first. -/
abbrev History := List Call

/-- The collector after a history. -/
def after : History → Collector
  | [] => {}
  | call :: h => (after h).call call

/-- The call at a place. -/
def callAt? (h : History) (place : Nat) : Option Call := h.reverse[place]?

/-- The name of the timer that a call ends if it goes on, and how. A timer that is started under a
name in use takes the place of the other, which is dropped. -/
def Call.ends? : Call → Option (String × Outcome)
  | .start name _ _ _ => some (name, .failed)
  | .finish name outcome _ => some (name, outcome)
  | .drop name _ => some (name, .failed)
  | .begin _ => none
  | .finishRun _ => none

/-! ### Timers

A timer is not identified by its name, which may be used again, but by the place of the call that
started it. -/

/-- A timer as it was started, with the place of the call that started it. -/
structure Started where
  component : String
  kind : String
  now : Nat
  place : Nat

/-- A timer that has ended, with the place of the call that ended it. -/
structure Ended extends Started where
  outcome : Outcome
  stop : Nat

/-- The timer that goes on under a name behind a history. -/
def going? (name : String) : History → Option Started
  | [] => none
  | .start n component kind now :: h =>
    if name = n then some ⟨component, kind, now, h.length⟩ else going? name h
  | .finish n _ _ :: h => if name = n then none else going? name h
  | .drop n _ :: h => if name = n then none else going? name h
  | .begin _ :: h => going? name h
  | .finishRun _ :: h => going? name h

/-- The timer that a call behind a history ends. There is at most one, since a call is about one
name. -/
def endedBy? (call : Call) (h : History) : Option Ended :=
  call.ends?.bind fun ends =>
    (going? ends.1 h).map fun t => { t with outcome := ends.2, stop := h.length }

/-- The timers that have ended in a history, the latest first. -/
def ended : History → List Ended
  | [] => []
  | call :: h => (endedBy? call h).toList ++ ended h

/-- From the place where it is started, a timer goes on under a name up to another place: no call in
between is about this name. -/
structure Lasts (h : History) (name : String) (t : Started) (stop : Nat) : Prop where
  start : callAt? h t.place = some (.start name t.component t.kind t.now)
  lt : t.place < stop
  between : ∀ k < stop, t.place < k → ∀ c, callAt? h k = some c → ∀ o, c.ends? ≠ some (name, o)

variable {h : History} {c : Call} {name : String} {t : Started} {e : Ended} {stop place : Nat}

theorem callAt?_cons_of_lt (hplace : place < h.length) :
    callAt? (c :: h) place = callAt? h place := by
  rw [callAt?, callAt?, List.reverse_cons, List.getElem?_append_left (by simpa using hplace)]

@[simp]
theorem callAt?_cons_length : callAt? (c :: h) h.length = some c := by
  simp [callAt?]

theorem lt_length_of_callAt? (hc : callAt? h place = some c) : place < h.length := by
  obtain ⟨hlt, -⟩ := List.getElem?_eq_some_iff.mp hc
  simpa using hlt

/-- Later calls make no difference. Whether a timer has ended by then is settled. -/
theorem lasts_cons_iff (hstop : stop ≤ h.length) :
    Lasts (c :: h) name t stop ↔ Lasts h name t stop := by
  constructor
  · rintro ⟨hstart, hlt, hbetween⟩
    rw [callAt?_cons_of_lt (by omega)] at hstart
    refine ⟨hstart, hlt, fun k hk htk c' hc' => hbetween k hk htk c' ?_⟩
    rwa [callAt?_cons_of_lt (by omega)]
  · rintro ⟨hstart, hlt, hbetween⟩
    refine ⟨by rwa [callAt?_cons_of_lt (by omega)], hlt, fun k hk htk c' hc' => ?_⟩
    rw [callAt?_cons_of_lt (by omega)] at hc'
    exact hbetween k hk htk c' hc'

/-- A timer goes on behind a call if the call has started it, or if it has gone on before and the
call does not end it. -/
theorem lasts_cons_length_iff :
    Lasts (c :: h) name t (c :: h).length ↔
      (c = .start name t.component t.kind t.now ∧ t.place = h.length) ∨
        Lasts h name t h.length ∧ ∀ o, c.ends? ≠ some (name, o) := by
  rw [List.length_cons]
  constructor
  · rintro ⟨hstart, hlt, hbetween⟩
    by_cases hplace : t.place = h.length
    · rw [hplace, callAt?_cons_length] at hstart
      exact .inl ⟨Option.some.inj hstart, hplace⟩
    · refine .inr ⟨(lasts_cons_iff (Nat.le_refl _)).mp ⟨hstart, by omega, ?_⟩, ?_⟩
      · exact fun k hk htk => hbetween k (by omega) htk
      · exact hbetween h.length (by omega) (by omega) c callAt?_cons_length
  · rintro (⟨hc, hplace⟩ | ⟨hlasts, hends⟩)
    · refine ⟨by rw [hplace, callAt?_cons_length, hc], by omega, ?_⟩
      exact fun k hk htk => absurd htk (by omega)
    · obtain ⟨hstart, hlt, hbetween⟩ := (lasts_cons_iff (c := c) (Nat.le_refl _)).mpr hlasts
      refine ⟨hstart, by omega, fun k hk htk c' hc' => ?_⟩
      by_cases hlast : k = h.length
      · rw [hlast, callAt?_cons_length] at hc'
        cases hc'
        exact hends
      · exact hbetween k (by omega) htk c' hc'

theorem going?_cons (name : String) (c : Call) (h : History) :
    going? name (c :: h) = some t ↔
      (c = .start name t.component t.kind t.now ∧ t.place = h.length) ∨
        going? name h = some t ∧ ∀ o, c.ends? ≠ some (name, o) := by
  obtain ⟨component, kind, now, place⟩ := t
  cases c with
  | start n component' kind' now' =>
    by_cases hn : name = n
    · simp [going?, Call.ends?, hn, eq_comm, and_assoc]
    · simp [going?, Call.ends?, hn, Ne.symm hn]
  | finish n o now => by_cases hn : name = n <;> simp [going?, Call.ends?, hn, eq_comm]
  | drop n now => by_cases hn : name = n <;> simp [going?, Call.ends?, hn, eq_comm]
  | begin runId => simp [going?, Call.ends?]
  | finishRun d => simp [going?, Call.ends?]

/-- A timer goes on under a name if no call behind its start is about this name. The place up to
which it lasts is the end of the history. -/
theorem going?_eq_some_iff : going? name h = some t ↔ Lasts h name t h.length := by
  induction h with
  | nil =>
    constructor
    · intro hgoing
      cases hgoing
    · rintro ⟨-, hlt, -⟩
      exact absurd hlt (Nat.not_lt_zero _)
  | cons c h ih => rw [going?_cons, lasts_cons_length_iff, ih]

theorem endedBy?_eq_some_iff :
    endedBy? c h = some e ↔
      ∃ name, c.ends? = some (name, e.outcome) ∧ going? name h = some e.toStarted ∧
        e.stop = h.length := by
  obtain ⟨t, outcome, stop⟩ := e
  simp only [endedBy?, Option.bind_eq_some_iff, Option.map_eq_some_iff, Ended.mk.injEq,
    Prod.exists]
  constructor
  · rintro ⟨name, o, hends, t, hgoing, rfl, rfl, rfl⟩
    exact ⟨name, hends, hgoing, rfl⟩
  · rintro ⟨name, hends, hgoing, rfl⟩
    exact ⟨name, outcome, hends, t, hgoing, rfl, rfl, rfl⟩

/-- The timers that have ended went on up to a call that ends what goes on under their name. -/
theorem mem_ended_iff :
    e ∈ ended h ↔ ∃ name, Lasts h name e.toStarted e.stop ∧
      ∃ c, callAt? h e.stop = some c ∧ c.ends? = some (name, e.outcome) := by
  induction h with
  | nil =>
    constructor
    · intro he
      cases he
    · rintro ⟨name, -, c, hc, -⟩
      exact absurd (lt_length_of_callAt? hc) (Nat.not_lt_zero _)
  | cons c h ih =>
    rw [ended, List.mem_append, Option.mem_toList, endedBy?_eq_some_iff, ih]
    constructor
    · rintro (⟨name, hends, hgoing, hstop⟩ | ⟨name, hlasts, c', hc', hends⟩)
      · refine ⟨name, (lasts_cons_iff (Nat.le_of_eq hstop)).mpr ?_, c, ?_, hends⟩
        · rw [hstop]
          exact going?_eq_some_iff.mp hgoing
        · rw [hstop, callAt?_cons_length]
      · have hlt := lt_length_of_callAt? hc'
        refine ⟨name, (lasts_cons_iff (Nat.le_of_lt hlt)).mpr hlasts, c', ?_, hends⟩
        rwa [callAt?_cons_of_lt hlt]
    · rintro ⟨name, hlasts, c', hc', hends⟩
      have hlt := lt_length_of_callAt? hc'
      rw [List.length_cons] at hlt
      have hlasts' := (lasts_cons_iff (by omega)).mp hlasts
      by_cases hstop : e.stop = h.length
      · rw [hstop] at hlasts' hc'
        rw [callAt?_cons_length] at hc'
        cases hc'
        exact .inl ⟨name, hends, going?_eq_some_iff.mpr hlasts', hstop⟩
      · rw [callAt?_cons_of_lt (by omega)] at hc'
        exact .inr ⟨name, hlasts', c', hc', hends⟩

/-- Timers are listed by the places where they have ended. So no timer is listed twice. -/
theorem pairwise_ended (h : History) : (ended h).Pairwise fun e e' => e'.stop < e.stop := by
  induction h with
  | nil => exact .nil
  | cons c h ih =>
    refine List.pairwise_append.mpr ⟨?_, ih, ?_⟩
    · cases endedBy? c h <;> simp
    · intro e he e' he'
      rw [Option.mem_toList, endedBy?_eq_some_iff] at he
      obtain ⟨-, -, -, hstop⟩ := he
      obtain ⟨-, -, c', hc', -⟩ := mem_ended_iff.mp he'
      rw [hstop]
      exact lt_length_of_callAt? hc'

/-- **A timer ends once.** No two of the timers that have ended were started in one place. -/
theorem nodup_ended (h : History) : ((ended h).map fun e => e.place).Nodup := by
  rw [List.Nodup, List.pairwise_map]
  refine (pairwise_ended h).imp_of_mem fun {e e'} he he' hstop hplace => ?_
  obtain ⟨name, hlasts, -⟩ := mem_ended_iff.mp he
  obtain ⟨name', hlasts', c, hc, hends⟩ := mem_ended_iff.mp he'
  have hname : name = name' := by
    have hstart := hlasts.start
    rw [hplace, hlasts'.start] at hstart
    exact (Call.start.inj (Option.some.inj hstart)).1.symm
  -- the call that ended the other one comes before the call that ended the first
  exact hlasts.between e'.stop hstop (hplace ▸ hlasts'.lt) c hc _ (hname ▸ hends)

end TypedPipeline.Collector
