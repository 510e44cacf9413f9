import Mathlib.Data.List.DropRight
import TypedPipeline.Proofs.SplitNames
import TypedPipeline.Proofs.Store

/-!
# Where a split is found

The list of the splits of an artifact is a property like any other, which is why it has to be
written before the location. It may be written again until then, and whatever else is written leaves
it as it is, unless somebody writes its property by hand. Of such an artifact it is known which list
was given, and this list is what is read from the property.

A channel looks for a split among the artifacts that it holds. An artifact that it holds twice
counts as two, and one that lists a split twice as one.

## Implementation notes

`Lists` is inductive: a list was given last, or nothing has been written to the property, or
something else was written since. It says nothing about how the artifact was made, so it holds of
artifacts in any store. A property that was written by hand ends it, and then nothing is said of the
splits.

Counting artifacts goes by places in the list that a channel holds. The number in the failure is
this count, and the answer depends on it being one.

## Main definitions

* `ArtifactState.Lists` — the list of splits that was given to an artifact
* `Store.IsBase` — a location without the slashes at its end
* `ListsAlone` — one artifact among others that lists a split

## Main results

* `ArtifactState.Lists.splitNames` — the list that was given is the one that is read
* `Store.splitUri?_ok_iff` — when a channel finds a split
* `Store.splitUri?_of_countP_ne_one` — what it says if none or several artifacts list it
-/

namespace TypedPipeline

/-! ### Lists that were given -/

/-- The operation is one by which the list of splits changes. -/
def ArtifactOp.WritesSplits : ArtifactOp → Prop
  | .setSplitNames _ => True
  | .setProperty name _ => name = SplitNames.property
  | _ => False

namespace ArtifactState

/-- The list of splits that was given to an artifact last, the empty one if none was given. -/
inductive Lists : List String → ArtifactState → Prop where
  | unset {state : ArtifactState} (h : state.properties.find? SplitNames.property = none) :
    Lists [] state
  | given {names : List String} {state state' : ArtifactState}
    (h : state.apply (.setSplitNames names) = .ok state') : Lists names state'
  | kept {names : List String} {state state' : ArtifactState} {op : ArtifactOp}
    (h : Lists names state) (hop : ¬ op.WritesSplits) (happly : state.apply op = .ok state') :
    Lists names state'

variable {names : List String} {state state' : ArtifactState}

/-- Other operations leave the property of the list as it is. A property under any other name stands
beside it. -/
theorem find?_of_apply {op : ArtifactOp} (hop : ¬ op.WritesSplits)
    (h : state.apply op = .ok state') :
    state'.properties.find? SplitNames.property = state.properties.find? SplitNames.property := by
  have hnone := (apply_isOk_iff op state).mp ⟨state', h⟩
  cases op with
  | setUri uri =>
    simp only [apply, setUri, hnone, Except.ok.injEq] at h
    rw [← h]
  | overwriteUri uri =>
    cases h
    rfl
  | setProperty name value =>
    simp only [apply, setProperty, populated, hnone, Option.isSome_none, Bool.false_eq_true,
      if_false, Except.ok.injEq] at h
    rw [← h, SortedMap.find?_insert, if_neg (Ne.symm hop)]
  | setSplitNames names => exact absurd trivial hop

/-- The list that was given is the one that is read. -/
theorem Lists.splitNames (h : Lists names state) : state.splitNames = names := by
  induction h with
  | unset h => rw [ArtifactState.splitNames, h]
  | given h =>
    obtain ⟨text, hencode, rfl⟩ := eq_of_apply_setSplitNames h
    rw [ArtifactState.splitNames, SortedMap.find?_insert, if_pos rfl]
    exact SplitNames.decode_of_encode? hencode
  | kept _ hop happly ih => rw [← ih, ArtifactState.splitNames, find?_of_apply hop happly]; rfl

end ArtifactState

/-! ### Locations without slashes at their end

The slashes are dropped from the end of the whole text, so a location of slashes only becomes empty.
-/

namespace Store

/-- A location without the slashes at its end, however many there are. -/
structure IsBase (uri base : String) : Prop where
  no_slash : base.toList.getLast? ≠ some '/'
  slashes : ∃ k, uri.toList = base.toList ++ List.replicate k '/'

theorem toList_withoutSlashes (uri : String) :
    (withoutSlashes uri).toList = uri.toList.rdropWhile (· == '/') := String.toList_ofList

theorem rdropWhile_append_replicate {cs : List Char} (h : cs.getLast? ≠ some '/') (k : Nat) :
    (cs ++ List.replicate k '/').rdropWhile (· == '/') = cs := by
  induction k with
  | zero =>
    rw [List.replicate_zero, List.append_nil, List.rdropWhile_eq_self_iff]
    intro hne hlast
    exact h ((List.getLast_eq_iff_getLast?_eq_some hne).mp (by simpa using hlast))
  | succ k ih =>
    rw [List.replicate_succ', ← List.append_assoc, List.rdropWhile_concat_pos _ _ '/' (by decide),
      ih]

theorem withoutSlashes_eq_iff {uri base : String} :
    withoutSlashes uri = base ↔ IsBase uri base := by
  rw [← String.toList_inj, toList_withoutSlashes]
  constructor
  · intro h
    have hslashes : ∀ c ∈ uri.toList.rtakeWhile (· == '/'), c = '/' := fun c hc => by
      simpa using List.mem_rtakeWhile_imp hc
    refine ⟨fun hslash => ?_, (uri.toList.rtakeWhile (· == '/')).length, ?_⟩
    · obtain ⟨cs, hcs⟩ := List.getLast?_eq_some_iff.mp hslash
      have hagain := List.rdropWhile_idempotent (· == '/') uri.toList
      rw [h, hcs, List.rdropWhile_concat_pos _ _ '/' (by decide)] at hagain
      have hshort := (List.rdropWhile_prefix (· == '/') (l := cs)).length_le
      rw [hagain, List.length_append, List.length_singleton] at hshort
      exact Nat.not_succ_le_self _ hshort
    · rw [← h, ← List.eq_replicate_of_mem hslashes, List.rdropWhile_append_rtakeWhile]
  · rintro ⟨hlast, k, hk⟩
    rw [hk, rdropWhile_append_replicate hlast]

end Store

/-! ### The one artifact that lists a split -/

/-- Of artifacts in a list, only the one at one place lists the split. An artifact that occurs twice
is not alone. -/
def ListsAlone (names : Artifact → List String) (held : List Artifact) (split : String)
    (a : Artifact) : Prop :=
  ∃ before behind, held = before ++ a :: behind ∧ split ∈ names a ∧
    ∀ b ∈ before ++ behind, split ∉ names b

section ListsAlone

variable {names : Artifact → List String} {held : List Artifact} {split : String}

theorem listsAlone_iff {a : Artifact} :
    ListsAlone names held split a ↔ held.filter (fun a => split ∈ names a) = [a] := by
  simp only [ListsAlone, List.filter_eq_cons_iff, List.filter_eq_nil_iff, decide_eq_true_iff,
    List.mem_append, or_imp, forall_and]
  constructor
  · rintro ⟨before, behind, rfl, ha, hbefore, hbehind⟩
    exact ⟨before, behind, rfl, hbefore, ha, hbehind⟩
  · rintro ⟨before, behind, rfl, hbefore, ha, hbehind⟩
    exact ⟨before, behind, rfl, ha, hbefore, hbehind⟩

theorem exists_listsAlone_iff :
    (∃ a, ListsAlone names held split a) ↔ held.countP (fun a => split ∈ names a) = 1 := by
  simp only [listsAlone_iff, List.countP_eq_length_filter, List.length_eq_one_iff]

end ListsAlone

namespace Store

variable {s : Store} {c : Channel} {names : Artifact → List String} {split : String}

/-- The artifacts that list a split are those to which a list with it was given. -/
theorem filter_splitNames (h : ∀ a ∈ (s.channel c).held, (s.artifact a).Lists (names a)) :
    ((s.channel c).held.filter fun a => (s.artifact a).splitNames.contains split) =
      (s.channel c).held.filter fun a => split ∈ names a := by
  refine List.filter_congr fun a ha => ?_
  rw [(h a ha).splitNames, List.contains_eq_mem]

/-- What a channel answers for a split that one of its artifacts alone lists. -/
theorem splitUri?_of_listsAlone
    (h : ∀ a ∈ (s.channel c).held, (s.artifact a).Lists (names a)) {a : Artifact}
    (ha : ListsAlone names (s.channel c).held split a) :
    s.splitUri? c split = ((s.artifact a).uri.elim (.error (.of (.artifact (.unpopulated a.id))))
      fun uri => .ok (withoutSlashes uri ++ "/" ++ split)) := by
  rw [splitUri?, filter_splitNames h, listsAlone_iff.mp ha]
  cases huri : (s.artifact a).uri <;> simp only [huri, Option.elim]

/-- What a channel answers for a split that none of its artifacts lists, or more than one. -/
theorem splitUri?_of_countP_ne_one
    (h : ∀ a ∈ (s.channel c).held, (s.artifact a).Lists (names a))
    (hcount : (s.channel c).held.countP (fun a => split ∈ names a) ≠ 1) :
    s.splitUri? c split = .error (.of (.artifact (.splitNotFound split
      ((s.channel c).held.countP fun a => split ∈ names a)))) := by
  rw [List.countP_eq_length_filter] at hcount ⊢
  rw [splitUri?, filter_splitNames h]
  cases hfound : (s.channel c).held.filter fun a => split ∈ names a with
  | nil => rfl
  | cons a others =>
    cases others with
    | nil => exact absurd (congrArg List.length hfound) hcount
    | cons b others => rfl

/-- A channel finds a split exactly if one of its artifacts alone lists it and has a location. The
answer is the location without slashes at its end, a slash, and the name of the split. -/
theorem splitUri?_ok_iff (h : ∀ a ∈ (s.channel c).held, (s.artifact a).Lists (names a))
    {location : String} :
    s.splitUri? c split = .ok location ↔
      ∃ a uri base, ListsAlone names (s.channel c).held split a ∧ (s.artifact a).uri = some uri ∧
        IsBase uri base ∧ location = base ++ "/" ++ split := by
  constructor
  · intro hok
    by_cases hcount : (s.channel c).held.countP (fun a => split ∈ names a) = 1
    · obtain ⟨a, ha⟩ := exists_listsAlone_iff.mpr hcount
      rw [splitUri?_of_listsAlone h ha] at hok
      cases huri : (s.artifact a).uri with
      | none => cases huri ▸ hok
      | some uri =>
        rw [huri] at hok
        cases hok
        exact ⟨a, uri, _, ha, huri, withoutSlashes_eq_iff.mp rfl, rfl⟩
    · cases (splitUri?_of_countP_ne_one h hcount).symm.trans hok
  · rintro ⟨a, uri, base, ha, huri, hbase, rfl⟩
    rw [splitUri?_of_listsAlone h ha, huri, Option.elim, withoutSlashes_eq_iff.mpr hbase]

end Store

end TypedPipeline
