/-!
# Sorted maps

A `SortedMap κ α` is a list of entries whose keys rise strictly. Fields of a contract, properties of
an artifact, parameters of a component and the artifacts a run has bound to its channels are all
kept in this form, so every listing of them comes out in one order, and two maps are equal exactly
when they give the same answer for every key.

## Implementation notes

Entries stand in a list that is sorted by keys, with the proof as a field. So a map is determined by
what it answers (`ext_find?`), equality of maps is equality of entries, and whoever writes a map
down does so in the order of its keys without sorting anything.

Looking up takes the first entry with a key. In a sorted list there is only one, which is used where
membership in the list of entries is turned into an answer (`find?_eq_some_iff`).

The order is a class of its own, since it has to be decidable and to tell any two keys apart, and
little more. Texts are ordered by code points.

## Main definitions

* `KeyOrder` — what the order of the keys has to satisfy
* `SortedMap.find?`, `SortedMap.insert`, `SortedMap.ofList` — looking up and filling
* `SortedMap.map` — replacing the values, key by key
* `TextMap` — maps from texts, in the order of code points

## Main results

* `SortedMap.ext_find?` — the entries are determined by the answers of `find?`
* `SortedMap.find?_insert` — what `insert` changes, and what it leaves alone
-/

namespace TypedPipeline

/-- A decidable order of keys in which two different keys are always comparable. -/
class KeyOrder (κ : Type) extends LT κ where
  decide (a b : κ) : Decidable (a < b)
  irrefl (a : κ) : ¬ a < a
  trans {a b c : κ} : a < b → b < c → a < c
  connected {a b : κ} : ¬ a < b → ¬ b < a → a = b

instance KeyOrder.decidableLT {κ : Type} [KeyOrder κ] (a b : κ) : Decidable (a < b) :=
  KeyOrder.decide a b

instance : KeyOrder String where
  decide a b := inferInstanceAs (Decidable (a < b))
  irrefl := String.lt_irrefl
  trans := String.lt_trans
  connected h₁ h₂ := String.le_antisymm (String.not_lt.1 h₂) (String.not_lt.1 h₁)

/-- A finite map, with its entries by rising key. -/
structure SortedMap (κ α : Type) [LT κ] where
  /-- The entries, by rising key. -/
  entries : List (κ × α)
  /-- Keys rise strictly, so none occurs twice. -/
  sorted : entries.Pairwise (fun a b => a.1 < b.1)

namespace SortedMap

variable {κ α β : Type} [KeyOrder κ]

variable [DecidableEq κ]

instance [DecidableEq α] : DecidableEq (SortedMap κ α) := fun m n =>
  if h : m.entries = n.entries then
    .isTrue (by cases m; cases n; cases h; rfl)
  else
    .isFalse (fun e => h (by rw [e]))

/-! ### Looking up -/

/-- The value of the first entry for `key`. -/
def lookup (key : κ) : List (κ × α) → Option α
  | [] => none
  | (k, v) :: rest => if k = key then some v else lookup key rest

/-- The value stored for `key`, if there is one. -/
def find? (m : SortedMap κ α) (key : κ) : Option α := lookup key m.entries

/-- Whether `key` has a value. -/
def contains (m : SortedMap κ α) (key : κ) : Bool := (m.find? key).isSome

/-- All keys, in text order. -/
def keys (m : SortedMap κ α) : List κ := m.entries.map Prod.fst

/-- All values, in the order of their keys. -/
def values (m : SortedMap κ α) : List α := m.entries.map Prod.snd

/-- The number of entries. -/
def size (m : SortedMap κ α) : Nat := m.entries.length

omit [KeyOrder κ] in
theorem lookup_eq_none {key : κ} {l : List (κ × α)} (h : ∀ e ∈ l, e.1 ≠ key) :
    lookup key l = none := by
  induction l with
  | nil => rfl
  | cons e l ih =>
    obtain ⟨k, v⟩ := e
    have hk : k ≠ key := h (k, v) (by simp)
    simp only [lookup, if_neg hk]
    exact ih fun e he => h e (by simp [he])

omit [KeyOrder κ] in
theorem mem_of_lookup {key : κ} {v : α} {l : List (κ × α)}
    (h : lookup key l = some v) : (key, v) ∈ l := by
  induction l with
  | nil => simp [lookup] at h
  | cons e l ih =>
    obtain ⟨k, w⟩ := e
    simp only [lookup] at h
    split at h
    · rename_i hk
      cases h
      simp [hk]
    · exact List.mem_cons_of_mem _ (ih h)

theorem lookup_of_mem {key : κ} {v : α} {l : List (κ × α)}
    (hs : l.Pairwise (fun a b => a.1 < b.1)) (h : (key, v) ∈ l) : lookup key l = some v := by
  induction l with
  | nil => simp at h
  | cons e l ih =>
    obtain ⟨k, w⟩ := e
    rw [List.pairwise_cons] at hs
    rcases List.mem_cons.1 h with h | h
    · cases h
      simp [lookup]
    · have hlt : k < key := hs.1 _ h
      have hne : k ≠ key := fun e => KeyOrder.irrefl _ (e ▸ hlt)
      simp only [lookup, if_neg hne]
      exact ih hs.2 h

/-- A key has the value `v` exactly when the entry is there. -/
theorem find?_eq_some_iff {m : SortedMap κ α} {key : κ} {v : α} :
    m.find? key = some v ↔ (key, v) ∈ m.entries :=
  ⟨mem_of_lookup, lookup_of_mem m.sorted⟩

/-! ### Filling -/

/-- The map without entries. -/
def empty : SortedMap κ α := ⟨[], .nil⟩

instance : EmptyCollection (SortedMap κ α) := ⟨empty⟩
instance : Inhabited (SortedMap κ α) := ⟨empty⟩

/-- Puts the entry at its place, over any entry with the same key. -/
def insertEntry (key : κ) (value : α) : List (κ × α) → List (κ × α)
  | [] => [(key, value)]
  | (k, v) :: rest =>
    if key < k then (key, value) :: (k, v) :: rest
    else if k < key then (k, v) :: insertEntry key value rest
    else (key, value) :: rest

omit [DecidableEq κ] in
theorem mem_insertEntry {key : κ} {value : α} {e : κ × α} {l : List (κ × α)}
    (h : e ∈ insertEntry key value l) : e = (key, value) ∨ e ∈ l := by
  induction l with
  | nil => simpa [insertEntry] using h
  | cons f l ih =>
    obtain ⟨k, v⟩ := f
    simp only [insertEntry] at h
    split at h
    · simpa using h
    · split at h
      · rcases List.mem_cons.1 h with h | h
        · simp [h]
        · rcases ih h with h | h
          · exact .inl h
          · exact .inr (List.mem_cons_of_mem _ h)
      · rcases List.mem_cons.1 h with h | h
        · exact .inl h
        · exact .inr (List.mem_cons_of_mem _ h)

omit [DecidableEq κ] in
theorem insertEntry_sorted {key : κ} {value : α} {l : List (κ × α)}
    (hs : l.Pairwise (fun a b => a.1 < b.1)) :
    (insertEntry key value l).Pairwise (fun a b => a.1 < b.1) := by
  induction l with
  | nil => simp [insertEntry]
  | cons f l ih =>
    obtain ⟨k, v⟩ := f
    rw [List.pairwise_cons] at hs
    simp only [insertEntry]
    split
    · rename_i hlt
      refine List.pairwise_cons.2 ⟨fun e he => ?_, List.pairwise_cons.2 hs⟩
      rcases List.mem_cons.1 he with he | he
      · rw [he]; exact hlt
      · exact KeyOrder.trans hlt (hs.1 e he)
    · split
      · rename_i hlt
        refine List.pairwise_cons.2 ⟨fun e he => ?_, ih hs.2⟩
        rcases mem_insertEntry he with he | he
        · rw [he]; exact hlt
        · exact hs.1 e he
      · rename_i h₁ h₂
        have hk : k = key :=
          KeyOrder.connected h₂ h₁
        exact List.pairwise_cons.2 ⟨fun e he => by rw [← hk]; exact hs.1 e he, hs.2⟩

/-- The map with `value` stored for `key`. -/
def insert (m : SortedMap κ α) (key : κ) (value : α) : SortedMap κ α :=
  ⟨insertEntry key value m.entries, insertEntry_sorted m.sorted⟩

/-- The map of a list of entries. Of two entries with one key the later one stays. -/
def ofList (l : List (κ × α)) : SortedMap κ α :=
  l.foldl (fun m e => m.insert e.1 e.2) empty

omit [DecidableEq κ] in
theorem mem_ofList {e : κ × α} {l : List (κ × α)} (h : e ∈ (ofList l).entries) : e ∈ l := by
  suffices hgen : ∀ m : SortedMap κ α,
      e ∈ (l.foldl (fun m e => m.insert e.1 e.2) m).entries → e ∈ l ∨ e ∈ m.entries by
    simpa [empty] using hgen empty h
  clear h
  induction l with
  | nil => exact fun _ => .inr
  | cons f l ih =>
    intro m hm
    rcases ih (m.insert f.1 f.2) hm with he | he
    · exact .inl (List.mem_cons_of_mem _ he)
    · rcases mem_insertEntry he with rfl | he
      · exact .inl List.mem_cons_self
      · exact .inr he

theorem lookup_insertEntry (key : κ) (value : α) (other : κ) (l : List (κ × α)) :
    lookup other (insertEntry key value l) =
      if other = key then some value else lookup other l := by
  induction l with
  | nil =>
    by_cases h : other = key
    · simp [insertEntry, lookup, h]
    · simp [insertEntry, lookup, h, Ne.symm h]
  | cons f l ih =>
    obtain ⟨k, v⟩ := f
    simp only [insertEntry]
    split
    · by_cases h : other = key
      · simp [lookup, h]
      · have h' : ¬ key = other := fun e => h e.symm
        simp [lookup, h, h']
    · split
      · rename_i hlt
        have hne : k ≠ key := fun e => KeyOrder.irrefl _ (e ▸ hlt)
        by_cases hk : k = other
        · have : other ≠ key := hk ▸ hne
          simp [lookup, hk, this]
        · simp only [lookup, if_neg hk]
          exact ih
      · rename_i h₁ h₂
        have hk : k = key :=
          KeyOrder.connected h₂ h₁
        by_cases h : other = key
        · simp [lookup, h]
        · have h' : ¬ key = other := fun e => h e.symm
          simp [lookup, h, h', hk]

@[simp]
theorem find?_empty (key : κ) : (empty : SortedMap κ α).find? key = none := rfl

/-- `insert` gives its key the new value and leaves every other key alone. -/
@[simp]
theorem find?_insert (m : SortedMap κ α) (key : κ) (value : α) (other : κ) :
    (m.insert key value).find? other = if other = key then some value else m.find? other :=
  lookup_insertEntry key value other m.entries

theorem insertEntry_perm {key : κ} {value : α} {l : List (κ × α)} (h : lookup key l = none) :
    (insertEntry key value l).Perm ((key, value) :: l) := by
  induction l with
  | nil => exact .refl _
  | cons f l ih =>
    obtain ⟨k, v⟩ := f
    have hne : k ≠ key := by
      rintro rfl
      simp [lookup] at h
    rw [lookup, if_neg hne] at h
    simp only [insertEntry]
    split
    · exact .refl _
    · split
      · exact ((ih h).cons (k, v)).trans (.swap _ _ l)
      · rename_i h₁ h₂
        exact absurd (KeyOrder.connected h₂ h₁) hne

/-- A value for a new key is one more value. The order of values is that of keys, so it is somewhere
among them. -/
theorem values_insert_perm {m : SortedMap κ α} {key : κ} (h : m.find? key = none) (value : α) :
    (m.insert key value).values.Perm (value :: m.values) :=
  (insertEntry_perm h).map Prod.snd

/-! ### Removing

To remove a key is to filter the entries, so the order of the others stays. -/

/-- The map without a key. -/
def erase (m : SortedMap κ α) (key : κ) : SortedMap κ α :=
  ⟨m.entries.filter fun e => e.1 != key, m.sorted.filter _⟩

omit [KeyOrder κ] in
theorem lookup_filter_ne (key other : κ) (l : List (κ × α)) :
    lookup other (l.filter fun e => e.1 != key) = if other = key then none else lookup other l := by
  induction l with
  | nil => simp [lookup]
  | cons e l ih =>
    obtain ⟨k, v⟩ := e
    by_cases hk : k = key
    · subst hk
      by_cases h : other = k
      · simpa [lookup, h] using ih
      · simp [lookup, h, Ne.symm h, ih]
    · by_cases h : k = other
      · simp [lookup, h, h ▸ hk]
      · simp [lookup, hk, h, ih]

/-- `erase` removes its key and leaves every other key alone. -/
@[simp]
theorem find?_erase (m : SortedMap κ α) (key other : κ) :
    (m.erase key).find? other = if other = key then none else m.find? other :=
  lookup_filter_ne key other m.entries

/-! ### Equality

Two sorted lists with the same members are the same list. This is what extensionality rests on. -/

omit [DecidableEq κ] in
theorem entries_eq_of_mem_iff {l₁ l₂ : List (κ × α)}
    (h₁ : l₁.Pairwise (fun a b => a.1 < b.1)) (h₂ : l₂.Pairwise (fun a b => a.1 < b.1))
    (h : ∀ e, e ∈ l₁ ↔ e ∈ l₂) : l₁ = l₂ := by
  induction l₁ generalizing l₂ with
  | nil =>
    cases l₂ with
    | nil => rfl
    | cons e l => exact absurd ((h e).2 (by simp)) (by simp)
  | cons a l₁ ih =>
    cases l₂ with
    | nil => exact absurd ((h a).1 (by simp)) (by simp)
    | cons b l₂ =>
      rw [List.pairwise_cons] at h₁ h₂
      have hab : a = b := by
        rcases List.mem_cons.1 ((h a).1 (by simp)) with ha | ha
        · exact ha
        · rcases List.mem_cons.1 ((h b).2 (by simp)) with hb | hb
          · exact hb.symm
          · exact absurd (h₂.1 a ha) (fun h' => KeyOrder.irrefl _ (KeyOrder.trans h' (h₁.1 b hb)))
      subst hab
      refine congrArg _ (ih h₁.2 h₂.2 fun e => ?_)
      constructor
      · intro he
        rcases List.mem_cons.1 ((h e).1 (List.mem_cons_of_mem _ he)) with h' | h'
        · exact absurd (h₁.1 e he) (h' ▸ KeyOrder.irrefl _)
        · exact h'
      · intro he
        rcases List.mem_cons.1 ((h e).2 (List.mem_cons_of_mem _ he)) with h' | h'
        · exact absurd (h₂.1 e he) (h' ▸ KeyOrder.irrefl _)
        · exact h'

/-- Two maps that answer alike for every key are the same map. -/
theorem ext_find? {m n : SortedMap κ α} (h : ∀ key, m.find? key = n.find? key) : m = n := by
  have : m.entries = n.entries :=
    entries_eq_of_mem_iff m.sorted n.sorted fun e => by
      rw [← find?_eq_some_iff, ← find?_eq_some_iff, h]
  cases m; cases n; cases this; rfl

theorem erase_of_find?_eq_none {m : SortedMap κ α} {key : κ} (h : m.find? key = none) :
    m.erase key = m := by
  refine ext_find? fun other => ?_
  by_cases hkey : other = key <;> simp [hkey, h]

theorem erase_insert (m : SortedMap κ α) (key : κ) (value : α) :
    (m.insert key value).erase key = m.erase key := by
  refine ext_find? fun other => ?_
  by_cases hkey : other = key <;> simp [hkey]

/-- The value of a key, and the values of the other keys. -/
theorem values_perm {m : SortedMap κ α} {key : κ} {value : α} (h : m.find? key = some value) :
    m.values.Perm (value :: (m.erase key).values) := by
  have hinsert : (m.erase key).insert key value = m := by
    refine ext_find? fun other => ?_
    by_cases hkey : other = key <;> simp [hkey, h]
  have habsent : (m.erase key).find? key = none := by simp
  have hperm := values_insert_perm habsent value
  rwa [hinsert] at hperm

/-! ### Replacing values -/

/-- The map with each value replaced by `f` of its key and itself. -/
def map (f : κ → α → β) (m : SortedMap κ α) : SortedMap κ β :=
  ⟨m.entries.map fun e => (e.1, f e.1 e.2), by
    rw [List.pairwise_map]; exact m.sorted⟩

omit [KeyOrder κ] in
theorem lookup_map (f : κ → α → β) (key : κ) (l : List (κ × α)) :
    lookup key (l.map fun e => (e.1, f e.1 e.2)) = (lookup key l).map (f key) := by
  induction l with
  | nil => rfl
  | cons e l ih =>
    obtain ⟨k, v⟩ := e
    by_cases h : k = key
    · simp [lookup, h]
    · simpa [lookup, h] using ih

@[simp]
theorem find?_map (f : κ → α → β) (m : SortedMap κ α) (key : κ) :
    (m.map f).find? key = (m.find? key).map (f key) :=
  lookup_map f key m.entries

omit [DecidableEq κ] in
theorem map_map {γ : Type} (f : κ → α → β) (g : κ → β → γ) (m : SortedMap κ α) :
    (m.map f).map g = m.map fun key a => g key (f key a) := by
  simp [map]

omit [DecidableEq κ] in
/-- Two functions give the same map exactly if they agree on its entries. -/
theorem map_eq_map_iff {f g : κ → α → β} {m : SortedMap κ α} :
    m.map f = m.map g ↔ ∀ e ∈ m.entries, f e.1 e.2 = g e.1 e.2 := by
  simp [map]

/-- Maps that have values for the same keys have the same keys. Both lists are sorted, so they are
the same list. -/
theorem keys_eq_of_isSome {m : SortedMap κ α} {n : SortedMap κ β}
    (h : ∀ key, (m.find? key).isSome = (n.find? key).isSome) : m.keys = n.keys := by
  have hunit : m.map (fun _ _ => ()) = n.map (fun _ _ => ()) := ext_find? fun key => by
    have hkey := h key
    rw [find?_map, find?_map]
    cases hm : m.find? key <;> cases hn : n.find? key <;> simp_all
  have hkeys := congrArg keys hunit
  simpa [keys, map, Function.comp_def] using hkeys

theorem map_insert (f : κ → α → β) (m : SortedMap κ α) (key : κ) (value : α) :
    (m.insert key value).map f = (m.map f).insert key (f key value) := by
  refine ext_find? fun other => ?_
  rw [find?_map, find?_insert, find?_insert, find?_map]
  by_cases h : other = key
  · simp [h]
  · simp [h]

end SortedMap

/-! ### Maps from texts -/

/-- Maps from texts, in the order of code points. -/
abbrev TextMap (α : Type) := SortedMap String α

end TypedPipeline
