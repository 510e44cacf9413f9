import TypedPipeline.Json.Read
import TypedPipeline.Proofs.Json.Float
import TypedPipeline.Proofs.Json.Tree

/-!
# Decoding what was written

A scalar is written without its type. Its shape tells the type again: truth values and texts look
like nothing else, an integer has neither point nor exponent, and a float has one of them or, if it
is not finite, is null, which is no scalar. So a scalar comes back with its type, or not at all, and
only floats may come back with another value. Lists and maps come back if all that they hold does.

## Implementation notes

The decoders are applied to the trees of what was written (`JsonTree.ofDatum`), so no text occurs
here any more. For lists and maps the statements have the decoder of the parts as a parameter: if
each part comes back as `f` says, the whole comes back as `mapM f` or `traverse? f` says. The maps
of a file are maps of lists of records with maps of properties in them, and the same two lemmas
serve every level.

A map is decoded by inserting its members one after the other. They were written by rising name, so
this gives the entries in the same order; `entries_ofList` says so for any list with the keys of a
map.

## Main definitions

* `SortedMap.traverse?` — a map whose values are replaced, if each of them can be
* `Scalar.reread?` — what a scalar has become when it has been written and read

## Main results

* `SortedMap.traverse?_eq_some_iff` — same keys, and every value replaced
* `JsonTree.scalar?_ofDatum`, `JsonTree.list?_ofDatum`, `JsonTree.map?_ofDatum`
-/

namespace TypedPipeline

/-! ### Lists and maps of which each part may fail

Whether something comes back unchanged and whether it comes back at all are two questions, and each
has an answer part by part. -/

section Partial

variable {κ α β : Type} {f : α → Option β}

theorem mapM_eq_some_iff {l : List α} {l' : List β} :
    l.mapM f = some l' ↔ l.map f = l'.map some := by
  induction l generalizing l' with
  | nil => cases l' <;> simp
  | cons a l ih =>
    have hcons : ∀ (o : Option β) (rest : Option (List β)), (o.bind fun b => rest.bind fun bs =>
        some (b :: bs)) = some l' ↔ ∃ b bs, o = some b ∧ rest = some bs ∧ b :: bs = l' := by
      intro o rest
      cases o <;> cases rest <;> simp
    rw [List.mapM_cons]
    refine (hcons (f a) (l.mapM f)).trans ?_
    cases l' with
    | nil => simp
    | cons b l' => simp [ih]

/-- A list comes through unchanged if each of its items does. -/
theorem mapM_eq_self_iff {f : α → Option α} {l : List α} :
    l.mapM f = some l ↔ ∀ a ∈ l, f a = some a := by
  rw [mapM_eq_some_iff, List.map_inj_left]

theorem isSome_mapM {l : List α} : (l.mapM f).isSome ↔ ∀ a ∈ l, (f a).isSome := by
  induction l with
  | nil => simp
  | cons a l ih =>
    rw [List.forall_mem_cons, ← ih, List.mapM_cons]
    cases f a <;> cases l.mapM f <;> simp

namespace SortedMap

variable [KeyOrder κ]

/-- The map with each value replaced, if each of them can be. This is `mapM` on the values, with the
keys left alone. -/
def traverse? (f : α → Option β) (m : SortedMap κ α) : Option (SortedMap κ β) :=
  (m.entries.mapM fun e => (f e.2).map (Prod.mk e.1)).map .ofList

variable [DecidableEq κ]

theorem ofList_entries (m : SortedMap κ α) : ofList m.entries = m := by
  refine ext_find? fun key => ?_
  have hfold : ∀ (l : List (κ × α)) (n : SortedMap κ α), l.Pairwise (fun a b => a.1 < b.1) →
      (l.foldl (fun m e => m.insert e.1 e.2) n).find? key = (lookup key l).or (n.find? key) := by
    intro l
    induction l with
    | nil => intro n _; rfl
    | cons e l ih =>
      intro n hl
      obtain ⟨hfirst, hrest⟩ := List.pairwise_cons.mp hl
      rw [List.foldl_cons, ih _ hrest, find?_insert, lookup]
      by_cases hkey : key = e.1
      · have hnone : lookup key l = none := lookup_eq_none fun e' he' heq => by
          have hlt := hfirst e' he'
          rw [heq, hkey] at hlt
          exact KeyOrder.irrefl _ hlt
        simp [hkey, hkey ▸ hnone]
      · simp [hkey, Ne.symm hkey]
  rw [ofList, hfold m.entries empty m.sorted, find?_empty, Option.or_none]
  rfl

/-- Entries with the keys of a map are those of the map that they make. -/
theorem entries_ofList {l : List (κ × α)} {m : SortedMap κ β}
    (h : l.map Prod.fst = m.entries.map Prod.fst) : (ofList l).entries = l := by
  have hsorted : l.Pairwise (fun a b => a.1 < b.1) := by
    have hm := m.sorted
    rw [← List.pairwise_map (f := Prod.fst) (R := (· < ·)), ← h, List.pairwise_map] at hm
    exact hm
  rw [ofList_entries ⟨l, hsorted⟩]

omit [KeyOrder κ] [DecidableEq κ] in
/-- A value that is replaced stays with its key. -/
theorem mapM_entries_eq_some_iff {l : List (κ × α)} {l' : List (κ × β)} :
    l.mapM (fun e => (f e.2).map (Prod.mk e.1)) = some l' ↔
      l.map (fun e => (e.1, f e.2)) = l'.map fun e => (e.1, some e.2) := by
  have hentry : ∀ (e : κ × α) (e' : κ × β),
      (f e.2).map (Prod.mk e.1) = some e' ↔ (e.1, f e.2) = (e'.1, some e'.2) := by
    intro e e'
    cases f e.2 <;> simp [Prod.ext_iff]
  rw [mapM_eq_some_iff]
  induction l generalizing l' with
  | nil => cases l' <;> simp
  | cons e l ih =>
    cases l' with
    | nil => simp
    | cons e' l' => simp only [List.map_cons, List.cons.injEq, hentry, ih]

/-- The map comes through with the same keys, and each value as it was replaced. Written as an
equation between two maps, so that it can be used without going through entries. -/
theorem traverse?_eq_some_iff {m : SortedMap κ α} {n : SortedMap κ β} :
    m.traverse? f = some n ↔ m.map (fun _ => f) = n.map (fun _ => some) := by
  have hentries : m.map (fun _ => f) = n.map (fun _ => some) ↔
      m.entries.mapM (fun e => (f e.2).map (Prod.mk e.1)) = some n.entries := by
    rw [mapM_entries_eq_some_iff]
    simp [map]
  rw [hentries, traverse?, Option.map_eq_some_iff]
  constructor
  · rintro ⟨l, hl, rfl⟩
    have hkeys : l.map Prod.fst = m.entries.map Prod.fst := by
      have hmaps := congrArg (List.map Prod.fst) (mapM_entries_eq_some_iff.mp hl)
      simpa [Function.comp_def] using hmaps.symm
    rw [hl, entries_ofList hkeys]
  · intro hn
    exact ⟨n.entries, hn, ofList_entries n⟩

/-- A map comes through unchanged if each of its values does. Keys are not touched. -/
theorem traverse?_eq_self_iff {f : α → Option α} {m : SortedMap κ α} :
    m.traverse? f = some m ↔ ∀ e ∈ m.entries, f e.2 = some e.2 :=
  traverse?_eq_some_iff.trans map_eq_map_iff

omit [DecidableEq κ] in
theorem isSome_traverse? {m : SortedMap κ α} :
    (m.traverse? f).isSome ↔ ∀ e ∈ m.entries, (f e.2).isSome := by
  simp only [traverse?, Option.isSome_map, isSome_mapM]

end SortedMap

end Partial

/-! ### Scalars -/

namespace Scalar

/-- What a scalar has become when it has been written and read. Only floats can change, or be
refused. -/
def reread? : Scalar → Option Scalar
  | .float x => x.reread?.map .float
  | v => some v

/-- Whatever is no float comes back as it was. Only floats go through a decimal text that is
rounded. -/
theorem reread?_of_ne {v : Scalar} (h : ∀ x, v ≠ .float x) : v.reread? = some v := by
  cases v with
  | float x => exact absurd rfl (h x)
  | _ => rfl

theorem reread?_eq_self_iff {v : Scalar} :
    v.reread? = some v ↔ ∀ x, v = .float x → x.reread? = some x := by
  constructor
  · rintro h x rfl
    obtain ⟨y, hy, heq⟩ := Option.map_eq_some_iff.mp h
    cases heq
    exact hy
  · intro h
    by_cases hfloat : ∃ x, v = .float x
    · obtain ⟨x, rfl⟩ := hfloat
      rw [reread?, h x rfl, Option.map_some]
    · exact reread?_of_ne fun x hx => hfloat ⟨x, hx⟩

theorem isSome_reread? {v : Scalar} :
    v.reread?.isSome ↔ ∀ x, v = .float x → x.reread?.isSome := by
  constructor
  · rintro h x rfl
    rwa [reread?, Option.isSome_map] at h
  · intro h
    by_cases hfloat : ∃ x, v = .float x
    · obtain ⟨x, rfl⟩ := hfloat
      rw [reread?, Option.isSome_map]
      exact h x rfl
    · rw [reread?_of_ne fun x hx => hfloat ⟨x, hx⟩]
      rfl

end Scalar

namespace JsonTree

theorem scalar?_ofDatum (v : Scalar) : scalar? (ofDatum (.ofScalar v)) = v.reread? := by
  cases v with
  | boolean b => rfl
  | string s => rfl
  | integer n =>
    have hlow := n.le_toInt
    have hhigh := n.toInt_lt
    have hvalue := JsonNumber.value?_ofInt (n := n.toInt) (by omega) (by omega)
    have htree : ofDatum (.ofScalar (.integer n)) = .number (.ofInt n.toInt) := rfl
    have hkept : (Scalar.integer n).reread? = some (.integer n) := rfl
    rw [htree, scalar?, hvalue, hkept]
    simp only [Option.bind_eq_bind, Option.bind_some, if_pos hhigh, Int64.ofInt_toInt]
  | float x =>
    have htree : ofDatum (.ofScalar (.float x)) =
      if x.isFinite then .number (.ofFloat x) else .null := rfl
    rw [htree, Scalar.reread?, Binary64.reread?]
    split
    · rw [scalar?, JsonNumber.value?_ofFloat]
      cases (JsonNumber.ofFloat x).float? <;> rfl
    · rfl

variable {α β : Type} {value : JsonTree → Option β} {datum : α → Datum} {f : α → Option β}

theorem ofItems_eq (items : List Datum) : ofItems items = items.map ofDatum := by
  induction items with
  | nil => rfl
  | cons v items ih => rw [ofItems, ih, List.map_cons]

theorem ofMembers_eq (members : List (String × Datum)) :
    ofMembers members = members.map fun e => (some e.1, ofDatum e.2) := by
  induction members with
  | nil => rfl
  | cons e members ih => rw [ofMembers, ih, List.map_cons]

/-- Items that are read one by one. -/
theorem list?_ofDatum (h : ∀ a, value (ofDatum (datum a)) = f a) (l : List α) :
    list? value (ofDatum (.array (l.map datum))) = l.mapM f := by
  rw [ofDatum, ofItems_eq, list?, List.map_map, List.mapM_map]
  simp only [Function.comp_def, h]

/-- Members that are read one by one. Names have been written once only, and by rising name. -/
theorem map?_ofDatum (h : ∀ a, value (ofDatum (datum a)) = f a) (m : TextMap α) :
    map? value (ofDatum (.ofMap datum m)) = m.traverse? f := by
  rw [Datum.ofMap, ofDatum, ofMembers_eq, map?, SortedMap.traverse?, List.map_map, List.mapM_map]
  simp [Function.comp_def, h, Option.map_eq_bind]

end JsonTree

end TypedPipeline
