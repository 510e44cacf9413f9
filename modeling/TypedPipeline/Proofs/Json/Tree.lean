import TypedPipeline.Proofs.Json.Number
import TypedPipeline.Proofs.Json.Text

/-!
# Plain data as it is written and read

A value is read as one tree, with all that follows it left over, and it does not matter how many
blanks stand between its tokens. `JsonTree.Spells` says of a text that it writes a value with any
blanks, and reading follows a derivation of it, one case per constructor. That a value without
blanks and a value on lines are read as the same tree is then seen from the writers alone, of which
the reader knows nothing.

The reader gets fuel for every level of nesting and for every item and member, and each of them
takes at least one character; so with as much fuel as characters it never runs out. What comes
behind a value matters for numbers only, whose last digit has to be told from more digits.

Only one direction is shown. A text that is read need not be spelled: the reader takes escapes and
numbers that no value is written with.

## Implementation notes

The reader has three functions that call each other, for values, items and members. `JsonTree.Part`
makes them one: a part is what one call reads, and `JsonTree.Part.ReadsFrom` says for each kind of
part what it means to read it. So there is one relation with one induction, where three relations
would need a mutual one.

The derivation of a text is the plan by which it is read. Each constructor of `JsonTree.Spells`
belongs to one branch of the reader, and has the blanks at the places where the branch skips them.
The lemmas before the induction, `JsonTree.value?_array` to `JsonTree.members?_quoted`, say what a
branch does, and are the only ones that open the reader.

Names and strings are quoted, and that a quoted text is read back is known from elsewhere, as is
that numbers are. What a leaf is need not be known here: it is read by itself, and it begins with
something that no collection ends with.

## What is not said

How long a text may be or how deep it may be nested is not restricted. The reader of a text is given
as much fuel as the text has characters, so there is no limit to be met.

## Main definitions

* `JsonTree.ofDatum` — the tree as which a value is read
* `JsonTree.Spells` — a text writes a value, with any blanks between its tokens

## Main results

* `JsonTree.Spells.reads` — what is spelled is read as its tree
* `JsonTree.spells_compactChars`, `JsonTree.spells_prettyChars` — both writers spell their value
* `JsonTree.ofText?_compact`, `JsonTree.ofText?_pretty` — what is written is read as its tree
-/

namespace TypedPipeline.JsonTree

open Json (compactChars compactItems compactMembers prettyChars prettyItems prettyMembers newLine
  quoted leafChars)
open JsonNumber (Ends)

mutual

/-- The tree of plain data as it is written. A float that is not finite has been written as null, so
its tree is null as well. -/
def ofDatum : Datum → JsonTree
  | .null => .null
  | .boolean b => .boolean b
  | .integer n => .number (.ofInt n)
  | .float x => if x.isFinite then .number (.ofFloat x) else .null
  | .string s => .string (some s)
  | .array items => .array (ofItems items)
  | .object members => .object (ofMembers members)

/-- The trees of the items of an array. -/
def ofItems : List Datum → List JsonTree
  | [] => []
  | v :: rest => ofDatum v :: ofItems rest

/-- The trees of the members of an object. -/
def ofMembers : List (String × Datum) → List (Option String × JsonTree)
  | [] => []
  | (k, v) :: rest => (some k, ofDatum v) :: ofMembers rest

end

/-! ### Blanks

The reader skips blanks before it looks at a token, never behind one. So the blanks at the beginning
of a text belong to the part that follows, and those at the end are left over. -/

/-- A character that may stand between two tokens. -/
def IsBlank (c : Char) : Prop := c = ' ' ∨ c = '\n' ∨ c = '\t' ∨ c = '\r'

instance (c : Char) : Decidable (IsBlank c) := inferInstanceAs (Decidable (_ ∨ _ ∨ _ ∨ _))

/-- A character with which a token may begin that neither ends an array nor an object. -/
def Begins (c : Char) : Prop := ¬ IsBlank c ∧ c ≠ ']' ∧ c ≠ '}'

instance (c : Char) : Decidable (Begins c) := inferInstanceAs (Decidable (_ ∧ _ ∧ _))

variable {fuel : Nat} {c : Char} {cs b rest : List Char}

theorem skip_blank (hc : IsBlank c) (cs : List Char) : skip (c :: cs) = skip cs := by
  rcases hc with rfl | rfl | rfl | rfl <;> rfl

theorem skip_cons (hc : ¬ IsBlank c) (cs : List Char) : skip (c :: cs) = c :: cs := by
  simp only [IsBlank, not_or] at hc
  obtain ⟨hspace, hline, htab, hreturn⟩ := hc
  simp [skip, hspace, hline, htab, hreturn]

theorem skip_append (hb : ∀ c ∈ b, IsBlank c) (cs : List Char) : skip (b ++ cs) = skip cs := by
  induction b with
  | nil => rfl
  | cons c b ih =>
    obtain ⟨hc, hb⟩ := List.forall_mem_cons.mp hb
    rw [List.cons_append, skip_blank hc, ih hb]

theorem skip_append_of_cons {more : List Char} (h : skip cs = c :: more) (rest : List Char) :
    skip (cs ++ rest) = c :: (more ++ rest) := by
  induction cs with
  | nil => cases h
  | cons d cs ih =>
    by_cases hd : IsBlank d
    · rw [skip_blank hd] at h
      rw [List.cons_append, skip_blank hd, ih h]
    · rw [skip_cons hd] at h
      cases h
      exact skip_cons hd _

/-- Values are read behind blanks, and so are members. -/
theorem value?_blank (hc : IsBlank c) (cs : List Char) :
    value? fuel (c :: cs) = value? fuel cs := by
  cases fuel with
  | zero => simp [value?]
  | succ fuel => rw [value?, value?, skip_blank hc]

theorem items?_blank (hc : IsBlank c) (cs : List Char) :
    items? fuel (c :: cs) = items? fuel cs := by
  cases fuel with
  | zero => simp [items?]
  | succ fuel => rw [items?, items?, value?_blank hc]

theorem members?_blank (hc : IsBlank c) (cs : List Char) :
    members? fuel (c :: cs) = members? fuel cs := by
  cases fuel with
  | zero => simp [members?]
  | succ fuel => rw [members?, members?, skip_blank hc]

theorem items?_skip (cs : List Char) : items? fuel (skip cs) = items? fuel cs := by
  induction cs with
  | nil => rfl
  | cons c cs ih =>
    by_cases hc : IsBlank c
    · rw [skip_blank hc, ih, items?_blank hc]
    · rw [skip_cons hc]

theorem members?_skip (cs : List Char) : members? fuel (skip cs) = members? fuel cs := by
  induction cs with
  | nil => rfl
  | cons c cs ih =>
    by_cases hc : IsBlank c
    · rw [skip_blank hc, ih, members?_blank hc]
    · rw [skip_cons hc]

/-- Neither a blank nor a sign between tokens belongs to a number. -/
theorem ends_cons (hc : IsBlank c ∨ c = ',' ∨ c = ']' ∨ c = '}') (cs : List Char) :
    Ends (c :: cs) := by
  intro c' hc'
  cases hc'
  rcases hc with (rfl | rfl | rfl | rfl) | rfl | rfl | rfl <;> decide

theorem ends_append (hb : ∀ c ∈ b, IsBlank c) (h : Ends rest) : Ends (b ++ rest) := by
  cases b with
  | nil => exact h
  | cons c b => exact ends_cons (.inl (hb c (by simp))) _

/-! ### Leaves

Null, truth values, numbers and strings are read in one step and without fuel for parts. -/

/-- A value that is no collection. Leaves are read by other functions than collections, and written
alike by both writers. -/
def IsLeaf : Datum → Prop
  | .array _ => False
  | .object _ => False
  | _ => True

theorem begins_of_number (hc : c = '-' ∨ c.isDigit = true) : Begins c := by
  refine ⟨?_, ?_, ?_⟩
  · rintro (rfl | rfl | rfl | rfl) <;> exact absurd hc (by decide)
  · rintro rfl
    exact absurd hc (by decide)
  · rintro rfl
    exact absurd hc (by decide)

theorem exists_chars {n : JsonNumber} (h : n.Sound) :
    ∃ c cs, n.chars = c :: cs ∧ (c = '-' ∨ c.isDigit = true) := by
  rw [JsonNumber.chars]
  cases n.negative with
  | true => exact ⟨'-', _, rfl, .inl rfl⟩
  | false =>
    obtain ⟨c, ds, hds⟩ := List.exists_cons_of_ne_nil h.whole.1
    exact ⟨c, _, by rw [hds]; rfl, .inr (h.whole.2 c (by simp [hds]))⟩

theorem leafChars_integer (n : Int) : leafChars (.integer n) = (JsonNumber.ofInt n).chars :=
  (JsonNumber.chars_ofInt n).symm

theorem leafChars_float {x : Binary64} (hx : x.isFinite = true) :
    leafChars (.float x) = (JsonNumber.ofFloat x).chars := (JsonNumber.chars_ofFloat hx).symm

theorem leafChars_float_of_not {x : Binary64} (hx : ¬ x.isFinite = true) :
    leafChars (.float x) = "null".toList := if_neg hx

/-- Every leaf begins with something that is no blank and does not end a collection. -/
theorem exists_leafChars {d : Datum} (hd : IsLeaf d) :
    ∃ c cs, leafChars d = c :: cs ∧ Begins c := by
  have hnumber : ∀ n : JsonNumber, n.Sound → ∃ c cs, n.chars = c :: cs ∧ Begins c := by
    intro n hn
    obtain ⟨c, cs, hcs, hc⟩ := exists_chars hn
    exact ⟨c, cs, hcs, begins_of_number hc⟩
  cases d with
  | null => exact ⟨'n', _, rfl, by decide⟩
  | boolean b => cases b <;> exact ⟨_, _, rfl, by decide⟩
  | integer n =>
    rw [leafChars_integer]
    exact hnumber _ (JsonNumber.sound_ofInt n)
  | float x =>
    by_cases hx : x.isFinite = true
    · rw [leafChars_float hx]
      exact hnumber _ (JsonNumber.sound_ofFloat x)
    · rw [leafChars_float_of_not hx]
      exact ⟨'n', _, rfl, by decide⟩
  | string s => exact ⟨'"', _, rfl, by decide⟩
  | array items => exact hd.elim
  | object members => exact hd.elim

theorem value?_number {n : JsonNumber} (h : n.Sound) (hrest : Ends rest) :
    value? (fuel + 1) (n.chars ++ rest) = some (.number n, rest) := by
  have hread := number?_chars h hrest
  obtain ⟨c, cs, hcs, hc⟩ := exists_chars h
  rw [hcs, List.cons_append] at hread ⊢
  rw [value?, skip_cons (begins_of_number hc).1]
  generalize cs ++ rest = more at hread ⊢
  split
  case h_7 => simp [hread]
  all_goals
    rename_i heq
    cases heq
    exact absurd hc (by decide)

theorem value?_quoted (s : String) :
    value? (fuel + 1) (quoted s ++ rest) = some (.string (some s), rest) := by
  have htext := text?_quoted s rest
  simp [quoted, value?, skip, htext]

/-- A value that is no collection is read by itself. This is the only place where it matters what
comes behind a value. -/
theorem value?_leaf {d : Datum} (hd : IsLeaf d) (hrest : Ends rest) :
    value? (fuel + 1) (leafChars d ++ rest) = some (ofDatum d, rest) := by
  cases d with
  | null => simp [leafChars, value?, skip, ofDatum]
  | boolean b => cases b <;> simp [leafChars, value?, skip, ofDatum]
  | integer n =>
    rw [leafChars_integer, value?_number (JsonNumber.sound_ofInt n) hrest, ofDatum]
  | float x =>
    by_cases hx : x.isFinite = true
    · rw [leafChars_float hx, value?_number (JsonNumber.sound_ofFloat x) hrest, ofDatum, if_pos hx]
    · rw [leafChars_float_of_not hx, ofDatum, if_neg hx]
      simp [value?, skip]
  | string s =>
    have htext : leafChars (.string s) = quoted s := rfl
    rw [htext, value?_quoted, ofDatum]
  | array items => exact hd.elim
  | object members => exact hd.elim

/-! ### Spelling

There are ten constructors, one for blanks in front, one for leaves, and two for each kind of
collection and for each place in one. -/

/-- What is read in one go: a value, or what follows the bracket of a collection with something in
it. With parts as values the three readers can share one relation and one induction. -/
inductive Part where
  | value (d : Datum)
  | items (vs : List Datum)
  | members (ms : List (String × Datum))

/-- A text writes a part, with any blanks between its tokens. Blanks at the beginning belong to the
part, and blanks at its end do not. -/
inductive Spells : Part → List Char → Prop where
  | blank {p : Part} {c : Char} {cs : List Char} :
    IsBlank c → Spells p cs → Spells p (c :: cs)
  | leaf {d : Datum} : IsLeaf d → Spells (.value d) (leafChars d)
  | noItems {b : List Char} :
    (∀ c ∈ b, IsBlank c) → Spells (.value (.array [])) ('[' :: (b ++ [']']))
  | array {vs : List Datum} {cs : List Char} :
    Spells (.items vs) cs → Spells (.value (.array vs)) ('[' :: cs)
  | noMembers {b : List Char} :
    (∀ c ∈ b, IsBlank c) → Spells (.value (.object [])) ('{' :: (b ++ ['}']))
  | object {ms : List (String × Datum)} {cs : List Char} :
    Spells (.members ms) cs → Spells (.value (.object ms)) ('{' :: cs)
  | lastItem {v : Datum} {cs b : List Char} :
    Spells (.value v) cs → (∀ c ∈ b, IsBlank c) → Spells (.items [v]) (cs ++ (b ++ [']']))
  | item {v : Datum} {vs : List Datum} {cs b more : List Char} :
    Spells (.value v) cs → (∀ c ∈ b, IsBlank c) → Spells (.items vs) more →
    Spells (.items (v :: vs)) (cs ++ (b ++ ',' :: more))
  | lastMember {k : String} {v : Datum} {cs b b' : List Char} :
    (∀ c ∈ b, IsBlank c) → Spells (.value v) cs → (∀ c ∈ b', IsBlank c) →
    Spells (.members [(k, v)]) (quoted k ++ (b ++ ':' :: (cs ++ (b' ++ ['}']))))
  | member {k : String} {v : Datum} {ms : List (String × Datum)} {cs b b' more : List Char} :
    (∀ c ∈ b, IsBlank c) → Spells (.value v) cs → (∀ c ∈ b', IsBlank c) →
    Spells (.members ms) more →
    Spells (.members ((k, v) :: ms)) (quoted k ++ (b ++ ':' :: (cs ++ (b' ++ ',' :: more))))

namespace Spells

variable {p : Part}

theorem append_left (hb : ∀ c ∈ b, IsBlank c) (h : Spells p cs) : Spells p (b ++ cs) := by
  induction b with
  | nil => exact h
  | cons c b ih =>
    obtain ⟨hc, hb⟩ := List.forall_mem_cons.mp hb
    exact .blank hc (ih hb)

/-- Behind its blanks, no part begins with the end of a collection. -/
theorem exists_begins (h : Spells p cs) : ∃ c more, skip cs = c :: more ∧ Begins c := by
  induction h with
  | blank hc _ ih =>
    obtain ⟨c, more, hcs, hbegins⟩ := ih
    exact ⟨c, more, (skip_blank hc _).trans hcs, hbegins⟩
  | leaf hd =>
    obtain ⟨c, more, hcs, hbegins⟩ := exists_leafChars hd
    exact ⟨c, more, by rw [hcs, skip_cons hbegins.1], hbegins⟩
  | noItems _ => exact ⟨'[', _, skip_cons (by decide) _, by decide⟩
  | array _ _ => exact ⟨'[', _, skip_cons (by decide) _, by decide⟩
  | noMembers _ => exact ⟨'{', _, skip_cons (by decide) _, by decide⟩
  | object _ _ => exact ⟨'{', _, skip_cons (by decide) _, by decide⟩
  | lastItem _ _ ih =>
    obtain ⟨c, more, hcs, hbegins⟩ := ih
    exact ⟨c, _, skip_append_of_cons hcs _, hbegins⟩
  | item _ _ _ ih _ =>
    obtain ⟨c, more, hcs, hbegins⟩ := ih
    exact ⟨c, _, skip_append_of_cons hcs _, hbegins⟩
  | lastMember _ _ _ _ => exact ⟨'"', _, skip_cons (by decide) _, by decide⟩
  | member _ _ _ _ _ _ => exact ⟨'"', _, skip_cons (by decide) _, by decide⟩

theorem exists_begins_append (h : Spells p cs) (rest : List Char) :
    ∃ c more, skip (cs ++ rest) = c :: more ∧ Begins c := by
  obtain ⟨c, more, hcs, hc⟩ := h.exists_begins
  exact ⟨c, _, skip_append_of_cons hcs rest, hc⟩

end Spells

/-! ### Reading

Each lemma says what one call comes to if the parts of its text are read as they should. -/

/-- Behind its bracket, an array that does not end there has items. The reader looks at one
character to tell which is the case. -/
theorem value?_array (h : ∃ c more, skip cs = c :: more ∧ Begins c) :
    value? (fuel + 1) ('[' :: cs) = (items? fuel cs).map fun r => (.array r.1, r.2) := by
  obtain ⟨c, more, hcs, hc⟩ := h
  rw [← items?_skip, value?, skip_cons (c := '[') (by decide)]
  simp only
  rw [hcs]
  split
  · rename_i heq
    cases heq
    exact absurd hc (by decide)
  · cases items? fuel (c :: more) <;> rfl

/-- Behind its brace, an object that does not end there has members. -/
theorem value?_object (h : ∃ c more, skip cs = c :: more ∧ Begins c) :
    value? (fuel + 1) ('{' :: cs) = (members? fuel cs).map fun r => (.object r.1, r.2) := by
  obtain ⟨c, more, hcs, hc⟩ := h
  rw [← members?_skip, value?, skip_cons (c := '{') (by decide)]
  simp only
  rw [hcs]
  split
  · rename_i heq
    cases heq
    exact absurd hc (by decide)
  · cases members? fuel (c :: more) <;> rfl

/-- An item is read as its value, and then it is looked how the array goes on: it ends, or a comma
leads to the next item. -/
theorem items?_of_value {c : Char} {more : List Char} {v : JsonTree} (hb : ∀ c ∈ b, IsBlank c)
    (hc : ¬ IsBlank c) (hv : value? fuel cs = some (v, b ++ c :: more)) :
    items? (fuel + 1) cs =
      if c = ']' then some ([v], more)
      else if c = ',' then (items? fuel more).map fun r => (v :: r.1, r.2)
      else none := by
  rw [items?, hv]
  simp only [Option.bind_eq_bind, Option.bind_some]
  rw [skip_append hb, skip_cons hc]
  by_cases hend : c = ']'
  · subst hend
    rfl
  · by_cases hcomma : c = ','
    · subst hcomma
      simp [Option.map_eq_bind]
    · simp [hend, hcomma]

/-- A member is read as its name and its value, and then it is looked how the object goes on. -/
theorem members?_quoted {k : String} {c : Char} {b' more : List Char} {v : JsonTree}
    (hb : ∀ c ∈ b, IsBlank c) (hb' : ∀ c ∈ b', IsBlank c) (hc : ¬ IsBlank c)
    (hv : value? fuel cs = some (v, b' ++ c :: more)) :
    members? (fuel + 1) (quoted k ++ (b ++ ':' :: cs)) =
      if c = '}' then some ([(some k, v)], more)
      else if c = ',' then (members? fuel more).map fun r => ((some k, v) :: r.1, r.2)
      else none := by
  have htext := text?_quoted k (b ++ ':' :: cs)
  have hquoted : quoted k ++ (b ++ ':' :: cs) =
      '"' :: (k.toList.flatMap Json.escapeChar ++ '"' :: (b ++ ':' :: cs)) := by simp [quoted]
  rw [hquoted, members?, skip_cons (c := '"') (by decide)]
  simp only [htext, Option.bind_eq_bind, Option.bind_some]
  rw [skip_append hb, skip_cons (c := ':') (by decide)]
  simp only [hv, Option.bind_some]
  rw [skip_append hb', skip_cons hc]
  by_cases hend : c = '}'
  · subst hend
    rfl
  · by_cases hcomma : c = ','
    · subst hcomma
      simp [Option.map_eq_bind]
    · simp [hend, hcomma]

/-- With some fuel a part is read from the beginning of a text, and what follows it is left over. -/
def Part.ReadsFrom (fuel : Nat) (cs rest : List Char) : Part → Prop
  | .value d => value? fuel (cs ++ rest) = some (ofDatum d, rest)
  | .items vs => items? fuel (cs ++ rest) = some (ofItems vs, rest)
  | .members ms => members? fuel (cs ++ rest) = some (ofMembers ms, rest)

namespace Spells

variable {p : Part}

/-- What is spelled is read, if there is as much fuel as there are characters. The induction is on
the derivation, and each of its steps uses one unit of fuel and at least one character. -/
theorem reads (h : Spells p cs) (hfuel : cs.length ≤ fuel) (hrest : Ends rest) :
    p.ReadsFrom fuel cs rest := by
  induction h generalizing fuel rest with
  | @blank p c cs hc _ ih =>
    have hread := ih (Nat.le_of_succ_le hfuel) hrest
    cases p with
    | value d => exact (value?_blank hc _).trans hread
    | items vs => exact (items?_blank hc _).trans hread
    | members ms => exact (members?_blank hc _).trans hread
  | leaf hd =>
    obtain ⟨c, more, hcs, -⟩ := exists_leafChars hd
    obtain ⟨fuel, rfl⟩ : ∃ n, fuel = n + 1 :=
      Nat.exists_eq_add_one_of_ne_zero (by rintro rfl; simp [hcs] at hfuel)
    exact value?_leaf hd hrest
  | @noItems b hb =>
    obtain ⟨fuel, rfl⟩ := Nat.exists_eq_add_of_le' (Nat.le_trans (by simp) hfuel : 1 ≤ fuel)
    have hskip : skip (b ++ [']'] ++ rest) = ']' :: rest := by
      rw [List.append_assoc, skip_append hb]
      rfl
    rw [Part.ReadsFrom, List.cons_append, value?, skip_cons (c := '[') (by decide)]
    simp only [hskip, ofDatum, ofItems]
  | @noMembers b hb =>
    obtain ⟨fuel, rfl⟩ := Nat.exists_eq_add_of_le' (Nat.le_trans (by simp) hfuel : 1 ≤ fuel)
    have hskip : skip (b ++ ['}'] ++ rest) = '}' :: rest := by
      rw [List.append_assoc, skip_append hb]
      rfl
    rw [Part.ReadsFrom, List.cons_append, value?, skip_cons (c := '{') (by decide)]
    simp only [hskip, ofDatum, ofMembers]
  | @array vs cs h ih =>
    obtain ⟨fuel, rfl⟩ := Nat.exists_eq_add_of_le' (Nat.le_trans (by simp) hfuel : 1 ≤ fuel)
    have hitems : items? fuel (cs ++ rest) = some (ofItems vs, rest) :=
      ih (Nat.le_of_succ_le_succ hfuel) hrest
    rw [Part.ReadsFrom, List.cons_append, value?_array (h.exists_begins_append rest), hitems,
      ofDatum]
    rfl
  | @object ms cs h ih =>
    obtain ⟨fuel, rfl⟩ := Nat.exists_eq_add_of_le' (Nat.le_trans (by simp) hfuel : 1 ≤ fuel)
    have hmembers : members? fuel (cs ++ rest) = some (ofMembers ms, rest) :=
      ih (Nat.le_of_succ_le_succ hfuel) hrest
    rw [Part.ReadsFrom, List.cons_append, value?_object (h.exists_begins_append rest), hmembers,
      ofDatum]
    rfl
  | @lastItem v cs b h hb ih =>
    simp only [List.length_append, List.length_singleton] at hfuel
    obtain ⟨fuel, rfl⟩ := Nat.exists_eq_add_of_le' (by omega : 1 ≤ fuel)
    have hv : value? fuel (cs ++ (b ++ ']' :: rest)) = some (ofDatum v, b ++ ']' :: rest) :=
      ih (by omega) (ends_append hb (ends_cons (by decide) _))
    rw [Part.ReadsFrom, List.append_assoc, List.append_assoc, List.singleton_append,
      items?_of_value hb (by decide) hv]
    simp [ofItems]
  | @item v vs cs b more h hb _ ih ihmore =>
    simp only [List.length_append, List.length_cons] at hfuel
    obtain ⟨fuel, rfl⟩ := Nat.exists_eq_add_of_le' (by omega : 1 ≤ fuel)
    have hv : value? fuel (cs ++ (b ++ ',' :: (more ++ rest))) =
        some (ofDatum v, b ++ ',' :: (more ++ rest)) :=
      ih (by omega) (ends_append hb (ends_cons (by decide) _))
    have hvs : items? fuel (more ++ rest) = some (ofItems vs, rest) := ihmore (by omega) hrest
    rw [Part.ReadsFrom, List.append_assoc, List.append_assoc, List.cons_append,
      items?_of_value hb (by decide) hv, hvs]
    simp [ofItems]
  | @lastMember k v cs b b' hb h hb' ih =>
    simp only [List.length_append, List.length_cons] at hfuel
    obtain ⟨fuel, rfl⟩ := Nat.exists_eq_add_of_le' (by omega : 1 ≤ fuel)
    have hv : value? fuel (cs ++ (b' ++ '}' :: rest)) = some (ofDatum v, b' ++ '}' :: rest) :=
      ih (by omega) (ends_append hb' (ends_cons (by decide) _))
    rw [Part.ReadsFrom]
    simp only [List.append_assoc, List.cons_append, List.nil_append]
    rw [members?_quoted hb hb' (by decide) hv]
    simp [ofMembers]
  | @member k v ms cs b b' more hb h hb' _ ih ihmore =>
    simp only [List.length_append, List.length_cons] at hfuel
    obtain ⟨fuel, rfl⟩ := Nat.exists_eq_add_of_le' (by omega : 1 ≤ fuel)
    have hv : value? fuel (cs ++ (b' ++ ',' :: (more ++ rest))) =
        some (ofDatum v, b' ++ ',' :: (more ++ rest)) :=
      ih (by omega) (ends_append hb' (ends_cons (by decide) _))
    have hms : members? fuel (more ++ rest) = some (ofMembers ms, rest) := ihmore (by omega) hrest
    rw [Part.ReadsFrom]
    simp only [List.append_assoc, List.cons_append]
    rw [members?_quoted hb hb' (by decide) hv, hms]
    simp [ofMembers]

end Spells

/-- A text that spells a value, with blanks behind it, has the tree of the value. The fuel that is
given is more than is needed. -/
theorem ofText?_of_spells {d : Datum} {s : String} (h : Spells (.value d) cs)
    (hb : ∀ c ∈ b, IsBlank c) (hs : s.toList = cs ++ b) : ofText? s = some (ofDatum d) := by
  have hends : Ends b := by
    have hnil : Ends [] := by simp [Ends]
    simpa using ends_append hb hnil
  have hvalue : value? (2 * (cs ++ b).length + 2) (cs ++ b) = some (ofDatum d, b) :=
    h.reads (by simp; omega) hends
  have hskip : skip b = [] := by
    have happend := skip_append hb []
    rwa [List.append_nil] at happend
  simp only [ofText?, hs, hvalue, hskip, Option.bind_eq_bind, Option.bind_some]
  rfl

/-! ### Writers

An equation is stated for each case in which a writer recurs, since the writers tell a last item
from others by matching on two items at once. Then both derivations go along the writers themselves.
-/

theorem compactItems_singleton (v : Datum) : compactItems [v] = compactChars v ++ [']'] := by
  rw [compactItems]

theorem compactItems_cons (v w : Datum) (vs : List Datum) :
    compactItems (v :: w :: vs) = compactChars v ++ ',' :: compactItems (w :: vs) := by
  rw [compactItems]
  simp

theorem compactMembers_singleton (k : String) (v : Datum) :
    compactMembers [(k, v)] = quoted k ++ ':' :: (compactChars v ++ ['}']) := by
  rw [compactMembers]
  simp

theorem compactMembers_cons (k : String) (v : Datum) (m : String × Datum)
    (ms : List (String × Datum)) :
    compactMembers ((k, v) :: m :: ms) =
      quoted k ++ ':' :: (compactChars v ++ ',' :: compactMembers (m :: ms)) := by
  rw [compactMembers]
  · simp
  · simp

theorem blank_newLine (level : Nat) : ∀ c ∈ newLine level, IsBlank c := by
  intro c hc
  rcases List.mem_cons.mp hc with rfl | hc
  · decide
  · rw [List.eq_of_mem_replicate hc]
    decide

theorem blank_nil : ∀ c ∈ ([] : List Char), IsBlank c := by simp

mutual

/-- A value without blanks is spelled. The derivation has the structure of the value. -/
theorem spells_compactChars : ∀ d, Spells (.value d) (compactChars d)
  | .null => .leaf trivial
  | .boolean _ => .leaf trivial
  | .integer _ => .leaf trivial
  | .float _ => .leaf trivial
  | .string _ => .leaf trivial
  | .array [] => .noItems blank_nil
  | .array (v :: vs) => .array (spells_compactItems (v :: vs) (by simp))
  | .object [] => .noMembers blank_nil
  | .object (m :: ms) => .object (spells_compactMembers (m :: ms) (by simp))

theorem spells_compactItems : ∀ vs, vs ≠ [] → Spells (.items vs) (compactItems vs)
  | [], h => absurd rfl h
  | [v], _ => by
    rw [compactItems_singleton]
    exact .lastItem (spells_compactChars v) blank_nil
  | v :: w :: vs, _ => by
    rw [compactItems_cons]
    exact .item (spells_compactChars v) blank_nil (spells_compactItems (w :: vs) (by simp))

theorem spells_compactMembers : ∀ ms, ms ≠ [] → Spells (.members ms) (compactMembers ms)
  | [], h => absurd rfl h
  | [(_, v)], _ => by
    rw [compactMembers_singleton]
    exact .lastMember blank_nil (spells_compactChars v) blank_nil
  | (_, v) :: m :: ms, _ => by
    rw [compactMembers_cons]
    exact .member blank_nil (spells_compactChars v) blank_nil
      (spells_compactMembers (m :: ms) (by simp))

end

theorem prettyItems_singleton (level : Nat) (v : Datum) :
    prettyItems level [v] =
      newLine (level + 1) ++ (prettyChars (level + 1) v ++ (newLine level ++ [']'])) := by
  rw [prettyItems]
  simp

theorem prettyItems_cons (level : Nat) (v w : Datum) (vs : List Datum) :
    prettyItems level (v :: w :: vs) =
      newLine (level + 1) ++ (prettyChars (level + 1) v ++ ',' :: prettyItems level (w :: vs)) := by
  rw [prettyItems] <;> simp

theorem prettyMembers_singleton (level : Nat) (k : String) (v : Datum) :
    prettyMembers level [(k, v)] =
      newLine (level + 1) ++
        (quoted k ++ ':' :: ' ' :: (prettyChars (level + 1) v ++ (newLine level ++ ['}']))) := by
  rw [prettyMembers]
  simp

theorem prettyMembers_cons (level : Nat) (k : String) (v : Datum) (m : String × Datum)
    (ms : List (String × Datum)) :
    prettyMembers level ((k, v) :: m :: ms) =
      newLine (level + 1) ++
        (quoted k ++ ':' :: ' ' :: (prettyChars (level + 1) v ++
          ',' :: prettyMembers level (m :: ms))) := by
  rw [prettyMembers] <;> simp

mutual

/-- A value on lines is spelled: line breaks and indentation stand between tokens only. -/
theorem spells_prettyChars (level : Nat) : ∀ d, Spells (.value d) (prettyChars level d)
  | .null => .leaf trivial
  | .boolean _ => .leaf trivial
  | .integer _ => .leaf trivial
  | .float _ => .leaf trivial
  | .string _ => .leaf trivial
  | .array [] => .noItems blank_nil
  | .array (v :: vs) => .array (spells_prettyItems level (v :: vs) (by simp))
  | .object [] => .noMembers blank_nil
  | .object (m :: ms) => .object (spells_prettyMembers level (m :: ms) (by simp))

theorem spells_prettyItems (level : Nat) :
    ∀ vs, vs ≠ [] → Spells (.items vs) (prettyItems level vs)
  | [], h => absurd rfl h
  | [v], _ => by
    rw [prettyItems_singleton]
    exact (Spells.lastItem (spells_prettyChars (level + 1) v) (blank_newLine level)).append_left
      (blank_newLine _)
  | v :: w :: vs, _ => by
    rw [prettyItems_cons]
    exact (Spells.item (spells_prettyChars (level + 1) v) blank_nil
      (spells_prettyItems level (w :: vs) (by simp))).append_left (blank_newLine _)

theorem spells_prettyMembers (level : Nat) :
    ∀ ms, ms ≠ [] → Spells (.members ms) (prettyMembers level ms)
  | [], h => absurd rfl h
  | [(_, v)], _ => by
    rw [prettyMembers_singleton]
    exact (Spells.lastMember blank_nil (.blank (by decide) (spells_prettyChars (level + 1) v))
      (blank_newLine level)).append_left (blank_newLine _)
  | (_, v) :: m :: ms, _ => by
    rw [prettyMembers_cons]
    exact (Spells.member blank_nil (.blank (by decide) (spells_prettyChars (level + 1) v)) blank_nil
      (spells_prettyMembers level (m :: ms) (by simp))).append_left (blank_newLine _)

end

/-- What is written without blanks is read as its tree. Nothing is assumed of the value. -/
theorem ofText?_compact (d : Datum) : ofText? (Json.compact d) = some (ofDatum d) :=
  ofText?_of_spells (spells_compactChars d) blank_nil (by simp [Json.compact])

/-- What is written on lines is read as its tree. So both ways to write a value lead to the same
tree. -/
theorem ofText?_pretty (d : Datum) : ofText? (Json.pretty d) = some (ofDatum d) :=
  ofText?_of_spells (spells_prettyChars 0 d) blank_nil (by simp [Json.pretty])

end TypedPipeline.JsonTree
