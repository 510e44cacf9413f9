import TypedPipeline.ArtifactMap
import TypedPipeline.Proofs.Run.Sight

/-!
# The history of an artifact

Artifacts are made in four ways and changed by four operations, and all of that may go on at once
for many artifacts. What becomes of one of them depends on the changes that are asked of itself
alone; so its history is that of a single state. The history has two parts. Before there is a
location, properties may be written. From the first location on, whoever wrote it, nothing changes
but the location, and that only where it is replaced on purpose.

## From one state to the store

An operation is applied to a state and gives a state, so the history of a single artifact is a fold
(`ArtifactState.next`). In the store there are many artifacts, and calls make new ones in between.
That none of this reaches another artifact is the content of `Store.artifact_calls`: filter the
calls for the operations that are asked of one artifact, and fold. The theorem on whole histories is
then about lists of operations.

## The part after the location

After the first location no operation but a replacement is accepted, and a replacement writes the
location and nothing else. So the state after any number of operations is known in closed form: the
properties are those of the first moment with a location, and the location is the text of the last
replacement, if there was one (`foldl_next_of_some`).

## Implementation notes

The four ways of making an artifact are a type (`Creation`), so that the theorem quantifies over
them. Making one from a record may fail, when the type is not registered; then nothing was made.

## Main definitions

* `Creation`, `Creation.make` — the ways in which an artifact is made
* `ArtifactCall`, `Store.calls` — calls that make or change artifacts
* `ArtifactOp.Writes` — what an accepted operation makes of a state
* `ArtifactState.next` — a state after an operation that may be refused

## Main results

* `Store.artifact_calls` — an artifact after any calls is what its own operations make of it
* `ArtifactState.foldl_next_of_some` — what operations can do once there is a location
* `Store.written_once` — the whole history of an artifact, from the call that made it
-/

namespace TypedPipeline

/-! ### Operations on a state -/

/-- The text that an operation puts in the place of a location. -/
def ArtifactOp.replacement? : ArtifactOp → Option String
  | .overwriteUri uri => some uri
  | _ => none

/-- What an accepted operation makes of a state. Split names are one text in a property of their
own, and nothing else is touched than what is written. -/
def ArtifactOp.Writes (state state' : ArtifactState) : ArtifactOp → Prop
  | .setUri uri => state' = { state with uri := some uri }
  | .overwriteUri uri => state' = { state with uri := some uri }
  | .setProperty name value =>
    state' = { state with properties := state.properties.insert name value }
  | .setSplitNames names => ∃ text, SplitNames.encode? names = some text ∧
    state' = { state with properties := state.properties.insert "split_names" (.string text) }

namespace ArtifactState

/-- The state after an operation; one that is refused changes nothing. -/
def next (state : ArtifactState) (op : ArtifactOp) : ArtifactState :=
  match state.apply op with
  | .ok state' => state'
  | .error _ => state

/-- Once there is a location, an operation replaces it or does nothing. -/
theorem next_of_some {state : ArtifactState} {uri : String} (h : state.uri = some uri)
    (op : ArtifactOp) :
    state.next op = { state with uri := some (op.replacement?.getD uri) } := by
  have hsame : state = { state with uri := some uri } := by rw [← h]
  have hrefused : ∀ op : ArtifactOp, ¬ op.Replaces → state.next op = state := by
    intro op hop
    rw [next]
    cases happly : state.apply op with
    | error r => rfl
    | ok state' =>
      have hnone := uri_eq_none_of_apply hop happly
      cases h.symm.trans hnone
  cases op with
  | overwriteUri uri' => rfl
  | setUri uri' => exact (hrefused _ id).trans hsame
  | setProperty name value => exact (hrefused _ id).trans hsame
  | setSplitNames names => exact (hrefused _ id).trans hsame

/-- Once there is a location, any number of operations leave the last text that was to replace
it. -/
theorem foldl_next_of_some {state : ArtifactState} {uri : String} (h : state.uri = some uri)
    (ops : List ArtifactOp) :
    ops.foldl next state =
      { state with uri := some ((ops.reverse.findSome? ArtifactOp.replacement?).getD uri) } := by
  induction ops generalizing state uri with
  | nil => simp [← h]
  | cons op ops ih =>
    rw [List.foldl_cons, next_of_some h, ih rfl, List.reverse_cons, List.findSome?_append]
    cases hlast : ops.reverse.findSome? ArtifactOp.replacement? <;>
      cases hop : op.replacement? <;> simp [hop]

theorem writes_of_apply {state state' : ArtifactState} {op : ArtifactOp}
    (h : state.apply op = .ok state') : op.Writes state state' := by
  have haccepted := (apply_isOk_iff op state).mp ⟨state', h⟩
  cases op with
  | setUri uri =>
    simp only [apply, setUri, haccepted, Except.ok.injEq] at h
    exact h.symm
  | overwriteUri uri =>
    cases h
    rfl
  | setProperty name value =>
    have huri : state.uri = none := haccepted
    have hopen : ¬ state.populated = true := by simp [populated, huri]
    have happly : state.apply (.setProperty name value) =
        .ok { state with properties := state.properties.insert name value } := if_neg hopen
    cases happly.symm.trans h
    rfl
  | setSplitNames names =>
    obtain ⟨hnone, hvalid⟩ := haccepted
    have hopen : ¬ state.populated = true := by simp [populated, hnone]
    have hencode : SplitNames.encode? names = some _ := if_pos (by rw [hvalid]; rfl)
    have happly : state.apply (.setSplitNames names) = .ok { state with
        properties := state.properties.insert "split_names"
          (.string ((SplitNames.encode? names).getD "")) } := by
      rw [apply, setSplitNames, hvalid]
      exact if_neg hopen
    cases happly.symm.trans h
    exact ⟨_, hencode, by rw [hencode]; rfl⟩

end ArtifactState

/-! ### Ways to make an artifact

All of them give out the next number. They differ in what the state is at first, and in whether
there is a staging location. -/

/-- The ways in which an artifact is made. -/
inductive Creation where
  /-- One that is yet to be written. -/
  | placeholder (type : ArtifactType)
  /-- One that is yet to be written, with a place for its data. -/
  | staged (type : ArtifactType) (staging : String)
  /-- One whose data is there already. -/
  | populated (type : ArtifactType) (uri : String) (properties : Parameters)
  /-- One that storage knows of. -/
  | ofRecord (types : TypeRegistry) (record : ArtifactRecord)

namespace Creation

/-- Makes the artifact. -/
def make : Creation → StoreM ContractError Artifact
  | placeholder type => StoreM.run' fun s => s.newArtifact type
  | staged type staging => StoreM.run' fun s => s.newArtifact type (some staging)
  | populated type uri properties =>
    StoreM.run' fun s => s.newArtifact type none ⟨some uri, properties⟩
  | ofRecord types record => Store.ofRecord types record

/-- The artifact as it is made, unless its type is not registered. This is all of it but the
number. -/
def sight? : Creation → Option Sight
  | placeholder type => some ⟨type, none, {}⟩
  | staged type staging => some ⟨type, some staging, {}⟩
  | populated type uri properties => some ⟨type, none, ⟨some uri, properties⟩⟩
  | ofRecord types record =>
    (types.lookup? record.typeName).map fun type => ⟨type, none, ⟨record.uri, record.properties⟩⟩

/-- All ways give out the next number, or fail and leave the store as it is. -/
theorem make_cases (c : Creation) (s : Store) :
    (∃ v, c.sight? = some v ∧ c.make s =
        (.ok (s.newArtifact v.type v.staging v.state).1,
          (s.newArtifact v.type v.staging v.state).2)) ∨
      c.sight? = none ∧ ∃ e, c.make s = (.error e, s) := by
  cases c with
  | placeholder type => exact .inl ⟨_, rfl, rfl⟩
  | staged type staging => exact .inl ⟨_, rfl, rfl⟩
  | populated type uri properties => exact .inl ⟨_, rfl, rfl⟩
  | ofRecord types record =>
    rw [sight?, make, Store.ofRecord]
    cases types.lookup? record.typeName with
    | none => exact .inr ⟨rfl, _, rfl⟩
    | some type => exact .inl ⟨_, rfl, rfl⟩

/-- An artifact that was made has the next number, and is as it was to be made. -/
theorem made {c : Creation} {s s' : Store} {a : Artifact} (h : c.make s = (.ok a, s')) :
    a.id = ⟨s.nextArtifact⟩ ∧ s'.nextArtifact = s.nextArtifact + 1 ∧
      c.sight? = some (s'.sight a) := by
  rcases c.make_cases s with ⟨v, hv, hmake⟩ | ⟨-, e, hmake⟩
  · cases h.symm.trans hmake
    refine ⟨rfl, rfl, hv.trans ?_⟩
    rw [Store.sight, Store.artifact_newArtifact_self]
    rfl
  · cases h.symm.trans hmake

end Creation

/-! ### Calls

A call may be refused, or may fail to make anything. The store after it is defined in any case. -/

/-- A call that makes an artifact or changes one. -/
inductive ArtifactCall where
  | make (c : Creation)
  | change (a : Artifact) (op : ArtifactOp)

/-- The operation that a call asks of an artifact. -/
def ArtifactCall.op? (a : Artifact) : ArtifactCall → Option ArtifactOp
  | make _ => none
  | change b op => if b.id = a.id then some op else none

namespace Store

/-- The store after a call. -/
def call (s : Store) : ArtifactCall → Store
  | .make c => (c.make s).2
  | .change a op => (s.change a op).2

/-- The store after calls. -/
def calls (s : Store) (l : List ArtifactCall) : Store := l.foldl call s

/-- The artifact has been made: its number has been given out. -/
def Knows (s : Store) (a : Artifact) : Prop := a.id.number < s.nextArtifact

variable {s : Store} {a : Artifact}

theorem artifact_change (s : Store) (b : Artifact) (op : ArtifactOp) (a : Artifact) :
    (s.change b op).2.artifact a =
      if a.id = b.id then (s.artifact b).next op else s.artifact a := by
  rw [ArtifactState.next]
  cases happly : (s.artifact b).apply op with
  | ok state => exact (change_of_ok happly).2 a
  | error r =>
    rw [change_of_error happly]
    split
    · rename_i hid
      exact artifact_of_id hid
    · rfl

theorem knows_call (h : s.Knows a) (c : ArtifactCall) : (s.call c).Knows a := by
  cases c with
  | make c =>
    rcases c.make_cases s with ⟨v, -, hmake⟩ | ⟨-, e, hmake⟩
    · rw [call, hmake]
      exact Nat.lt_succ_of_lt h
    · rwa [call, hmake]
  | change b op => exact Nat.lt_of_lt_of_le h (grows_change s b op).nextArtifact

/-- A call does to an artifact what it asks of that artifact, and nothing if it asks nothing. -/
theorem artifact_call (h : s.Knows a) (c : ArtifactCall) :
    (s.call c).artifact a = (c.op? a).elim (s.artifact a) (s.artifact a).next := by
  cases c with
  | make c =>
    rcases c.make_cases s with ⟨v, -, hmake⟩ | ⟨-, e, hmake⟩
    · have hspared := spares_newArtifact (fun _ => True) s v.type v.staging v.state
      rw [call, hmake]
      exact hspared.artifact a h trivial
    · rw [call, hmake]
      rfl
  | change b op =>
    rw [call, artifact_change, ArtifactCall.op?]
    by_cases hid : a.id = b.id
    · rw [if_pos hid, if_pos hid.symm, artifact_of_id hid]
      rfl
    · rw [if_neg hid, if_neg (Ne.symm hid)]
      rfl

theorem knows_calls (h : s.Knows a) (l : List ArtifactCall) : (s.calls l).Knows a := by
  induction l generalizing s with
  | nil => exact h
  | cons c l ih => exact ih (knows_call h c)

/-- An artifact after any calls is what its own operations make of it. Calls about other artifacts,
and those that make new ones, do not matter. -/
theorem artifact_calls (h : s.Knows a) (l : List ArtifactCall) :
    (s.calls l).artifact a = (l.filterMap (ArtifactCall.op? a)).foldl .next (s.artifact a) := by
  induction l generalizing s with
  | nil => rfl
  | cons c l ih =>
    have hrest : (s.calls (c :: l)).artifact a = _ := ih (knows_call h c)
    rw [hrest, artifact_call h, List.filterMap_cons]
    cases c.op? a <;> rfl

/-! ### From its making on -/

/-- An artifact has the number, the type and the staging location with which it was made, whatever
is called afterwards. A location can be written if there is none, and so can properties. What is
accepted is written, without anything else being touched, and what is refused changes nothing at
all. Once there is a location, properties stay for ever, and there is always a location: the last
one of those that were to replace it, or else the first one. -/
theorem written_once {c : Creation} {s₀ s : Store} {a : Artifact} (h : c.make s₀ = (.ok a, s))
    (before : List ArtifactCall) :
    a.id = ⟨s₀.nextArtifact⟩ ∧
      (∃ made, c.sight? = some made ∧ s.sight a = made ∧
        ((s.calls before).sight a).type = made.type ∧
        ((s.calls before).sight a).staging = made.staging) ∧
      (∀ op, (((s.calls before).change a op).1 = none ↔
          match op with
          | .setUri _ => ((s.calls before).artifact a).uri = none
          | .overwriteUri _ => True
          | .setProperty _ _ => ((s.calls before).artifact a).uri = none
          | .setSplitNames names => ((s.calls before).artifact a).uri = none ∧
              ∀ name ∈ names, SplitNames.isName name = true) ∧
        (((s.calls before).change a op).1 ≠ none →
          ((s.calls before).change a op).2 = s.calls before)) ∧
      (∀ op, ((s.calls before).change a op).1 = none →
        op.Writes ((s.calls before).artifact a) (((s.calls before).change a op).2.artifact a)) ∧
      (∀ uri, (((s.calls before).change a (.setUri uri)).1 = none →
          (((s.calls before).change a (.setUri uri)).2.artifact a).uri = some uri) ∧
        ((s.calls before).overwriteUri a uri).1 = ((s.calls before).artifact a).uri ∧
        (((s.calls before).overwriteUri a uri).2.artifact a).uri = some uri) ∧
      ∀ uri, ((s.calls before).artifact a).uri = some uri → ∀ later,
        (s.calls (before ++ later)).artifact a =
          { (s.calls before).artifact a with
            uri := some (((later.filterMap (ArtifactCall.op? a)).reverse.findSome?
              ArtifactOp.replacement?).getD uri) } := by
  obtain ⟨hid, hnext, hmade⟩ := Creation.made h
  have hknown : s.Knows a := by
    rw [Knows, hid, hnext]
    exact Nat.lt_succ_self _
  have hwrites : ∀ op, ((s.calls before).change a op).1 = none →
      op.Writes ((s.calls before).artifact a) (((s.calls before).change a op).2.artifact a) := by
    intro op haccepted
    obtain ⟨state, happly⟩ := change_eq_none_iff.mp haccepted
    rw [(change_of_ok happly).2, if_pos rfl]
    exact ArtifactState.writes_of_apply happly
  refine ⟨hid, ⟨_, hmade, rfl, rfl, rfl⟩, fun op => ⟨?_, fun hrefused => ?_⟩, hwrites,
    fun uri => ⟨fun haccepted => ?_, rfl, ?_⟩, fun uri huri later => ?_⟩
  · rw [change_eq_none_iff, ArtifactState.apply_isOk_iff]
    cases op <;> simp [SplitNames.invalid?]
  · cases happly : ((s.calls before).artifact a).apply op with
    | ok state => exact absurd (change_of_ok happly).1 hrefused
    | error r => rw [change_of_error happly]
  · rw [hwrites _ haccepted]
  · rw [overwriteUri, artifact_change, if_pos rfl]
    rfl
  · have hlater : s.calls (before ++ later) = (s.calls before).calls later := List.foldl_append
    rw [hlater, artifact_calls (knows_calls hknown before),
      ArtifactState.foldl_next_of_some huri]

end Store

/-! ### A report that is written

The calls show both halves: a list of split names that is refused, a location that is written, and
after it a property, a second location and a replacement, of which only the last is accepted. -/

namespace Report

def type : ArtifactType := ⟨"Report", by decide⟩

/-- The report, and another artifact of its type. -/
def artifact (n : Nat) : Artifact := ⟨⟨n⟩, type, some "mem:draft"⟩

/-- The store with the report in it. -/
def store : Store := (({} : Store).newArtifact type (some "mem:draft")).2

/-- One of two lists of split names is refused. Another artifact is made and gets a location before
the report does. -/
def before : List ArtifactCall :=
  [.change (artifact 1) (.setSplitNames ["train"]),
    .change (artifact 1) (.setSplitNames ["eval", "not,ok"]),
    .make (.staged type "mem:draft"),
    .change (artifact 2) (.overwriteUri "mem:other"),
    .change (artifact 1) (.setUri "mem:first")]

/-- Of these calls only the one that replaces the location of the report does anything to it. -/
def later : List ArtifactCall :=
  [.change (artifact 1) (.setProperty "rows" (.integer 1)),
    .change (artifact 1) (.overwriteUri "mem:second"),
    .change (artifact 1) (.setUri "mem:third"),
    .change (artifact 2) (.overwriteUri "mem:fourth")]

end Report

/-- The report ends with the location that was to replace the first one, and with the properties
that it had when it got the first one. -/
theorem Store.written_once_report :
    (Creation.staged Report.type "mem:draft").make {} = (.ok (Report.artifact 1), Report.store) ∧
      ((Report.store.calls Report.before).artifact (Report.artifact 1)).uri = some "mem:first" ∧
      (Report.store.calls (Report.before ++ Report.later)).artifact (Report.artifact 1) =
        ⟨some "mem:second", .ofList [("split_names", .string "train")]⟩ := by
  have hmade : (Creation.staged Report.type "mem:draft").make {} =
      (.ok (Report.artifact 1), Report.store) := rfl
  have huri : ((Report.store.calls Report.before).artifact (Report.artifact 1)).uri =
      some "mem:first" := rfl
  obtain ⟨-, -, -, -, -, hlater⟩ := written_once hmade Report.before
  refine ⟨hmade, huri, (hlater _ huri Report.later).trans ?_⟩
  decide

end TypedPipeline
