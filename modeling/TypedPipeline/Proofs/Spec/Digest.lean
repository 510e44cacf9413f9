import TypedPipeline.Proofs.Spec

/-!
# The digested text of a declaration

A declaration is digested as one text: the kind, and behind it one piece for each field, which
begins with a zero character and the name of its part and goes on with name and type. Types are
words, but the kind and the names of fields may be any text that is not blank. A name that holds
such a beginning reads like several fields, so two declarations may have one text.

This is the only way. If no kind and no name holds the beginning of a field, the text is cut into
its fields at the beginnings, and then nothing is left to choose. It takes two changes at once, too:
a declaration of which only the kind or only one field is another one has another text, whatever the
names are.

## The idea

Beginnings are counted. A text of a declaration has one for every field, and besides those only the
ones that stand in the kind or in names, since a beginning cannot reach over a separator. So a
declaration is legible exactly if its text has as many beginnings as it has fields. The number
belongs to the text, so it is the same for all declarations that share the text: a legible one has
at least as many fields as any other of them.

That single changes are seen does not follow from this, for the two declarations may both be
illegible. It is proved by cancelling what is the same in front of the change and behind it, and
then there is at most one field on each side.

## Implementation notes

The lemmas are about lists of characters, because `List.append` can be cancelled there. It is only
the last theorem that speaks of bytes, and it uses that the encoding of texts is injective. Nothing
is said of the digest itself: two texts that differ may have one digest, as with any function to 256
bits.

## Main definitions

* `Spec.ordered` — the fields in the order in which they are digested
* `Part.mark`, `Field.marks` — the beginnings of fields, and how many of them a text has
* `Spec.Legible` — no kind and no name holds one
* `Spec.OneChange` — declarations that differ in one place

## Main results

* `Field.text_injective` — a single field can be read off its text
* `Field.append_mark_inj` — where the first field begins
* `Spec.digest_tracks_declaration` — which changes of a declaration change its text
-/

namespace TypedPipeline

/-! ### Beginnings of fields

A beginning has a zero character at its front and the name of a part behind it. The colon that
follows is not counted as part of it, so that a beginning ends where a separator may stand. -/

/-- What the text of a field begins with. -/
def Part.mark (part : Part) : List Char := '\x00' :: part.name.toList

namespace Field

/-- Whether a text goes on with the beginning of a field. -/
def Marked (cs : List Char) : Prop := ∃ part : Part, part.mark <+: cs

instance (cs : List Char) : Decidable (Marked cs) :=
  decidable_of_iff (Part.input.mark <+: cs ∨ Part.output.mark <+: cs ∨ Part.parameter.mark <+: cs)
    ⟨fun h => h.elim (⟨_, ·⟩) fun h => h.elim (⟨_, ·⟩) (⟨_, ·⟩), fun ⟨part, h⟩ => by
      cases part
      · exact .inl h
      · exact .inr (.inl h)
      · exact .inr (.inr h)⟩

/-- How many places of a text are the beginning of a field. -/
def marks : List Char → Nat
  | [] => 0
  | c :: cs => (if Marked (c :: cs) then 1 else 0) + marks cs

variable {c : Char} {cs ds : List Char} {part : Part}

theorem marks_cons_of_marked (h : Marked (c :: cs)) : marks (c :: cs) = 1 + marks cs := by
  rw [marks, if_pos h]

theorem marks_cons_of_not_marked (h : ¬ Marked (c :: cs)) : marks (c :: cs) = marks cs := by
  rw [marks, if_neg h, Nat.zero_add]

theorem not_marked_of_ne (h : c ≠ '\x00') : ¬ Marked (c :: cs) := by
  rintro ⟨part, hpart⟩
  exact h (List.cons_prefix_cons.mp hpart).1.symm

/-- No beginning has a zero character or a colon behind its first character. -/
theorem not_mem_name (part : Part) (h : c = '\x00' ∨ c = ':') : c ∉ part.name.toList := by
  rcases h with rfl | rfl <;> cases part <;> decide

/-- A text is free of beginnings exactly if none of them is a part of it. -/
theorem marks_eq_zero_iff : marks cs = 0 ↔ ∀ part : Part, ¬ part.mark <:+: cs := by
  induction cs with
  | nil => simp [marks, Part.mark]
  | cons c cs ih =>
    have hnone : (∀ part : Part, ¬ part.mark <:+: c :: cs) ↔
        ¬ Marked (c :: cs) ∧ ∀ part : Part, ¬ part.mark <:+: cs := by
      simp only [List.infix_cons_iff, not_or, forall_and, Marked, not_exists]
    rw [hnone, ← ih]
    by_cases hmarked : Marked (c :: cs)
    · simp [marks_cons_of_marked hmarked, hmarked]
    · simp [marks_cons_of_not_marked hmarked, hmarked]

/-! ### Texts that end at a separator

Neither a zero character nor a colon stands inside of a beginning. So a beginning in front of one of
them does not reach over it. -/

/-- What follows begins with a separator, unless nothing follows. -/
def Separated (ds : List Char) : Prop := ∀ c ∈ ds.head?, c = '\x00' ∨ c = ':'

theorem marked_append_iff (h : Separated ds) : Marked (c :: cs ++ ds) ↔ Marked (c :: cs) := by
  refine exists_congr fun part => ⟨fun hpart => ?_, fun hpart => hpart.trans ⟨ds, rfl⟩⟩
  by_contra hreach
  -- the beginning would hold the separator
  have hlong : c :: cs <+: part.mark :=
    (List.prefix_or_prefix_of_prefix hpart ⟨ds, rfl⟩).resolve_left hreach
  obtain ⟨rest, hrest⟩ := hlong
  rw [← hrest, List.prefix_append_right_inj] at hpart
  cases rest with
  | nil => exact hreach ⟨[], by rw [← hrest]; simp⟩
  | cons d rest =>
    obtain ⟨behind, rfl⟩ := hpart
    have hname : d ∈ part.name.toList := by
      have htail := congrArg List.tail hrest
      rw [List.cons_append, List.tail_cons, Part.mark, List.tail_cons] at htail
      rw [← htail]
      simp
    exact not_mem_name part (h d rfl) hname

/-- The beginnings in front of a separator and those from it on. None of them reaches over the
separator, so they add up. -/
theorem marks_append (h : Separated ds) : marks (cs ++ ds) = marks cs + marks ds := by
  induction cs with
  | nil => simp [marks]
  | cons c cs ih =>
    have hmarked : Marked (c :: (cs ++ ds)) ↔ Marked (c :: cs) := marked_append_iff h
    rw [List.cons_append]
    rw [marks, marks, ih]
    simp only [hmarked]
    omega

theorem marks_of_not_mem (h : '\x00' ∉ cs) : marks cs = 0 := by
  induction cs with
  | nil => rfl
  | cons c cs ih =>
    rw [List.mem_cons, not_or] at h
    rw [marks_cons_of_not_marked (not_marked_of_ne (Ne.symm h.1)), ih h.2]

/-! ### The text of a field

Within a field the name comes before the type. A name may hold any number of colons, and a type none
at all, so the last colon of the text is the one between them. -/

/-- The text of a field, as it is digested. -/
def text (f : Field) : String := Spec.fieldText f.part f.name f.type.name

theorem toList_text (f : Field) :
    f.text.toList = f.part.mark ++ ':' :: (f.name.toList ++ ':' :: f.type.name.toList) := by
  simp [text, Spec.fieldText, Part.mark]

/-- Types are words. So the name of a type has no separator in it. -/
theorem not_mem_typeName (type : FieldType) (h : c = '\x00' ∨ c = ':') :
    c ∉ type.name.toList := by
  cases type with
  | scalar type => rcases h with rfl | rfl <;> cases type <;> decide
  | artifact type =>
    have hnamed := type.wellNamed
    intro hmem
    have hword : c.isAlpha = true ∨ c.isAlphanum = true ∨ c = '_' := by
      rw [isTypeName] at hnamed
      change c ∈ type.name.toList at hmem
      split at hnamed
      · cases hnamed
      · rename_i first rest hname
        rw [hname] at hmem
        rw [Bool.and_eq_true, List.all_eq_true] at hnamed
        rcases List.mem_cons.mp hmem with rfl | hrest
        · exact .inl hnamed.1
        · exact .inr (by simpa using hnamed.2 c hrest)
    rcases h with rfl | rfl <;> revert hword <;> decide

/-- The text of a field is a beginning, and behind its first character it has those of its name
only. -/
theorem exists_text (f : Field) :
    ∃ cs, f.text.toList = '\x00' :: cs ∧ Marked ('\x00' :: cs) ∧
      marks cs = marks f.name.toList := by
  have hcolon : ∀ ds, Separated (':' :: ds) := fun ds d hd => .inr (Option.some.inj hd).symm
  have hpart : marks f.part.name.toList = 0 := marks_of_not_mem (not_mem_name _ (.inl rfl))
  have htype : marks f.type.name.toList = 0 := marks_of_not_mem (not_mem_typeName _ (.inl rfl))
  have hskip : ∀ ds, marks (':' :: ds) = marks ds := fun ds =>
    marks_cons_of_not_marked (not_marked_of_ne (by decide))
  refine ⟨f.part.name.toList ++ ':' :: (f.name.toList ++ ':' :: f.type.name.toList), toList_text f,
    ⟨f.part, List.prefix_append _ _⟩, ?_⟩
  rw [marks_append (hcolon _), hpart, hskip, marks_append (hcolon _), hskip, htype, Nat.zero_add,
    Nat.add_zero]

theorem marks_text (f : Field) : marks f.text.toList = 1 + marks f.name.toList := by
  obtain ⟨cs, htext, hmarked, hmarks⟩ := f.exists_text
  rw [htext, marks_cons_of_marked hmarked, hmarks]

/-- A text is cut at its last colon in only one way. What stands behind has no colon. -/
theorem append_colon_inj {cs₁ cs₂ ds₁ ds₂ : List Char} (h₁ : ':' ∉ ds₁) (h₂ : ':' ∉ ds₂) :
    cs₁ ++ ':' :: ds₁ = cs₂ ++ ':' :: ds₂ ↔ cs₁ = cs₂ ∧ ds₁ = ds₂ := by
  have hlast : ∀ {ds₁ ds₂ part : List Char}, ':' ∉ ds₁ → ':' :: ds₁ = part ++ ':' :: ds₂ →
      part = [] ∧ ds₁ = ds₂ := by
    intro ds₁ ds₂ part h₁ h
    cases part with
    | nil =>
      cases h
      exact ⟨rfl, rfl⟩
    | cons c part =>
      cases h
      exact absurd (by simp) h₁
  constructor
  · intro h
    rcases List.append_eq_append_iff.mp h with ⟨part, rfl, hds⟩ | ⟨part, rfl, hds⟩
    · obtain ⟨rfl, rfl⟩ := hlast h₁ hds
      exact ⟨by simp, rfl⟩
    · obtain ⟨rfl, rfl⟩ := hlast h₂ hds
      exact ⟨by simp, rfl⟩
  · rintro ⟨rfl, rfl⟩
    rfl

theorem mark_append_colon_inj {part₁ part₂ : Part} {ds₁ ds₂ : List Char} :
    part₁.mark ++ ':' :: ds₁ = part₂.mark ++ ':' :: ds₂ ↔ part₁ = part₂ ∧ ds₁ = ds₂ := by
  cases part₁ <;> cases part₂ <;> simp [Part.mark, Part.name]

/-- A single field can be read off its text: no part has a colon, and no type has one. -/
theorem text_injective : Function.Injective text := by
  intro f g h
  have hchars := congrArg String.toList h
  rw [toList_text, toList_text, mark_append_colon_inj,
    append_colon_inj (not_mem_typeName _ (.inr rfl)) (not_mem_typeName _ (.inr rfl)),
    String.toList_inj, String.toList_inj] at hchars
  obtain ⟨hpart, hname, htype⟩ := hchars
  have hscalar : Function.Injective ScalarType.name := by
    intro a b
    cases a <;> cases b <;> decide
  cases f <;> cases g <;> cases hpart <;> cases hname
  · rw [ArtifactType.eq_of_name htype]
  · rw [ArtifactType.eq_of_name htype]
  · rw [hscalar htype]

/-! ### Several fields

A field is followed by the next one, or by nothing. Either is a separator, so where a field ends
there is no beginning that starts in it and ends behind it. -/

/-- Nothing is left, or the next field begins. -/
def Begins (cs : List Char) : Prop := cs = [] ∨ Marked cs

theorem Marked.append (h : Marked cs) (ds : List Char) : Marked (cs ++ ds) := by
  obtain ⟨part, hpart⟩ := h
  exact ⟨part, hpart.trans (List.prefix_append cs ds)⟩

theorem Begins.separated (h : Begins cs) : Separated cs := by
  rcases h with rfl | ⟨part, rest, rfl⟩
  · intro c hc
    cases hc
  · intro c hc
    exact .inl (Option.some.inj hc).symm

theorem text_ne_nil (f : Field) : f.text.toList ≠ [] := by
  obtain ⟨cs, htext, -⟩ := f.exists_text
  rw [htext]
  exact List.cons_ne_nil _ _

theorem begins_text_append (f : Field) (ds : List Char) : Begins (f.text.toList ++ ds) := by
  obtain ⟨cs, htext, hmarked, -⟩ := f.exists_text
  rw [htext]
  exact .inr (hmarked.append ds)

theorem begins_flatMap_text (fields : List Field) :
    Begins (fields.flatMap fun f => f.text.toList) := by
  cases fields with
  | nil => exact .inl rfl
  | cons f rest => exact f.begins_text_append _

/-- Where the first field begins: behind all that is free of beginnings. If two texts are cut in
this way, and are the same as a whole, the cuts are at one place. -/
theorem append_mark_inj {cs₁ cs₂ ds₁ ds₂ : List Char} (h₁ : marks cs₁ = 0) (h₂ : marks cs₂ = 0)
    (hds₁ : Begins ds₁) (hds₂ : Begins ds₂) :
    cs₁ ++ ds₁ = cs₂ ++ ds₂ ↔ cs₁ = cs₂ ∧ ds₁ = ds₂ := by
  have hlonger : ∀ {cs ds₁ ds₂ part : List Char}, marks (cs ++ part) = 0 → Begins ds₁ →
      Begins ds₂ → ds₁ = part ++ ds₂ → part = [] := by
    intro cs ds₁ ds₂ part hfree hds₁ hds₂ h
    cases part with
    | nil => rfl
    | cons c part =>
      have hmarked : Marked (c :: part) := by
        refine (marked_append_iff hds₂.separated).mp ?_
        rw [← h]
        exact hds₁.resolve_left (by rw [h]; simp)
      rw [marks_append (Begins.separated (.inr hmarked)), marks_cons_of_marked hmarked] at hfree
      omega
  constructor
  · intro h
    rcases List.append_eq_append_iff.mp h with ⟨part, rfl, hds⟩ | ⟨part, rfl, hds⟩
    · obtain rfl := hlonger h₂ hds₁ hds₂ hds
      exact ⟨by simp, by simpa using hds⟩
    · obtain rfl := hlonger h₁ hds₂ hds₁ hds
      exact ⟨by simp, by simpa using hds.symm⟩
  · rintro ⟨rfl, rfl⟩
    rfl

/-- Fields whose names are free of beginnings can be read off their text. One field is cut off at a
time, at the place where the next one begins. -/
theorem flatMap_text_inj {l₁ l₂ : List Field} (h₁ : ∀ f ∈ l₁, marks f.name.toList = 0)
    (h₂ : ∀ f ∈ l₂, marks f.name.toList = 0)
    (h : (l₁.flatMap fun f => f.text.toList) = l₂.flatMap fun f => f.text.toList) : l₁ = l₂ := by
  induction l₁ generalizing l₂ with
  | nil =>
    cases l₂ with
    | nil => rfl
    | cons g l₂ =>
      rw [List.flatMap_cons, List.flatMap_nil] at h
      exact absurd (List.append_eq_nil_iff.mp h.symm).1 g.text_ne_nil
  | cons f l₁ ih =>
    cases l₂ with
    | nil =>
      rw [List.flatMap_cons, List.flatMap_nil] at h
      exact absurd (List.append_eq_nil_iff.mp h).1 f.text_ne_nil
    | cons g l₂ =>
      obtain ⟨hf, hl₁⟩ := List.forall_mem_cons.mp h₁
      obtain ⟨hg, hl₂⟩ := List.forall_mem_cons.mp h₂
      obtain ⟨cs, hcs, -, hcsmarks⟩ := f.exists_text
      obtain ⟨ds, hds, -, hdsmarks⟩ := g.exists_text
      rw [List.flatMap_cons, List.flatMap_cons, hcs, hds, List.cons_append, List.cons_append,
        List.cons.injEq, append_mark_inj (hcsmarks.trans hf) (hdsmarks.trans hg)
          (begins_flatMap_text l₁) (begins_flatMap_text l₂)] at h
      obtain ⟨-, htext, hrest⟩ := h
      have hfg : f = g := by
        refine text_injective (String.toList_inj.mp ?_)
        rw [hcs, hds, htext]
      rw [hfg, ih hl₁ hl₂ hrest]

end Field

namespace Spec

open TypedPipeline.Field (marks)

/-! ### Whole declarations

The order of fields within a part is the order in which they were declared. So a declaration with
its fields exchanged is another one, and has another text. -/

/-- The fields in the order in which they are digested. -/
def ordered (s : Spec) : List Field :=
  (s.inputs.map fun f => .input f.1 f.2) ++ (s.outputs.map fun f => .output f.1 f.2) ++
    s.parameters.map fun f => .parameter f.1 f.2

/-- Two declarations are the same in kind, inputs, outputs and parameters. -/
def Same (s t : Spec) : Prop :=
  s.kind = t.kind ∧ s.inputs = t.inputs ∧ s.outputs = t.outputs ∧ s.parameters = t.parameters

/-- Neither the kind nor the name of a field holds the beginning of a field. Most names are such,
since a zero character is needed to spoil one. -/
def Legible (s : Spec) : Prop :=
  ∀ name ∈ s.kind :: s.ordered.map Field.name, ∀ part : Part, ¬ part.mark <:+: name.toList

/-- Two declarations differ in one place at most: in the kind, or in one field that has been
replaced, added or taken away. -/
inductive OneChange (s t : Spec) : Prop
  | kind (fields : s.ordered = t.ordered)
  | field (kind : s.kind = t.kind) (before behind : List Field) (old new : Option Field)
      (left : s.ordered = before ++ old.toList ++ behind)
      (right : t.ordered = before ++ new.toList ++ behind)

variable {s t : Spec}

theorem filter_ordered (s : Spec) :
    s.ordered.filter (·.part = .input) = (s.inputs.map fun f => .input f.1 f.2) ∧
      s.ordered.filter (·.part = .output) = (s.outputs.map fun f => .output f.1 f.2) ∧
      s.ordered.filter (·.part = .parameter) = s.parameters.map fun f => .parameter f.1 f.2 := by
  refine ⟨?_, ?_, ?_⟩ <;> simp [ordered, List.filter_map, Function.comp_def, Field.part]

/-- Declarations are the same if kinds and ordered fields are, since a field knows its part. -/
theorem same_iff : s.Same t ↔ s.kind = t.kind ∧ s.ordered = t.ordered := by
  refine and_congr_right fun _ => ⟨?_, fun h => ?_⟩
  · rintro ⟨hin, hout, hparam⟩
    rw [ordered, ordered, hin, hout, hparam]
  · obtain ⟨hin, hout, hparam⟩ := s.filter_ordered
    obtain ⟨hin', hout', hparam'⟩ := t.filter_ordered
    rw [h] at hin hout hparam
    refine ⟨List.map_injective_iff.mpr ?_ (hin.symm.trans hin'),
      List.map_injective_iff.mpr ?_ (hout.symm.trans hout'),
      List.map_injective_iff.mpr ?_ (hparam.symm.trans hparam')⟩
    all_goals
      intro f g hfg
      simpa [Prod.ext_iff] using hfg

theorem toList_digested (s : Spec) :
    s.digested.toList = s.kind.toList ++ s.ordered.flatMap fun f => f.text.toList := by
  simp [digested, ordered, String.toList_join, List.flatMap_map, Field.text, Field.part,
    Field.name, Field.type, FieldType.name]

/-- A text has one beginning for each field, and the others are in the names. The sum depends on the
text alone, whichever declaration it belongs to. -/
theorem marks_digested (s : Spec) :
    marks s.digested.toList = s.ordered.length +
      ((s.kind :: s.ordered.map Field.name).map fun name => marks name.toList).sum := by
  have hfields : ∀ l : List Field, marks (l.flatMap fun f => f.text.toList) =
      l.length + (l.map fun f => marks f.name.toList).sum := by
    intro l
    induction l with
    | nil => rfl
    | cons f l ih =>
      rw [List.flatMap_cons, Field.marks_append (Field.begins_flatMap_text l).separated, ih,
        f.marks_text, List.length_cons, List.map_cons, List.sum_cons]
      omega
  rw [toList_digested, Field.marks_append (Field.begins_flatMap_text _).separated, hfields,
    List.map_cons, List.sum_cons, List.map_map]
  show _ = _ + (_ + (s.ordered.map fun f => marks f.name.toList).sum)
  omega

theorem legible_iff_forall :
    s.Legible ↔ marks s.kind.toList = 0 ∧ ∀ f ∈ s.ordered, marks f.name.toList = 0 := by
  simp [Legible, Field.marks_eq_zero_iff]

/-- A declaration is legible exactly if its text has no beginnings besides those of its fields. This
is what makes legibility a matter of the text and the number of fields. -/
theorem legible_iff : s.Legible ↔ marks s.digested.toList = s.ordered.length := by
  rw [legible_iff_forall, marks_digested, Nat.add_eq_left, List.sum_eq_zero_iff_forall_eq_nat]
  simp

theorem eq_of_legible (hs : s.Legible) (ht : t.Legible)
    (h : s.digested.toList = t.digested.toList) : s.kind = t.kind ∧ s.ordered = t.ordered := by
  obtain ⟨hskind, hsnames⟩ := legible_iff_forall.mp hs
  obtain ⟨htkind, htnames⟩ := legible_iff_forall.mp ht
  rw [toList_digested, toList_digested, Field.append_mark_inj hskind htkind
    (Field.begins_flatMap_text _) (Field.begins_flatMap_text _)] at h
  exact ⟨String.toList_inj.mp h.1, Field.flatMap_text_inj hsnames htnames h.2⟩

/-- The text of a legible declaration is that of no other one, unless that one has fewer fields. -/
theorem same_of_legible (hs : s.Legible) (hle : s.ordered.length ≤ t.ordered.length)
    (h : s.digested.toList = t.digested.toList) : s.Same t := by
  refine same_iff.mpr (eq_of_legible hs (legible_iff.mpr ?_) h)
  have hmarks := legible_iff.mp hs
  rw [h, marks_digested] at hmarks
  rw [marks_digested]
  omega

/-- All that is the same in front of a change and behind it can be cancelled. What is left are the
two kinds, or one field on each side, and a single field can be read off its text. -/
theorem same_of_oneChange (hs : s.OneChange t) (h : s.digested.toList = t.digested.toList) :
    s.Same t := by
  rw [toList_digested, toList_digested] at h
  refine same_iff.mpr ?_
  cases hs with
  | kind fields =>
    rw [fields, List.append_cancel_right_eq] at h
    exact ⟨String.toList_inj.mp h, fields⟩
  | field kind before behind old new left right =>
    rw [left, right, kind] at h
    simp only [List.flatMap_append, List.append_cancel_left_eq, List.append_cancel_right_eq,
      List.append_assoc] at h
    have hone : old = new := by
      cases old with
      | none =>
        cases new with
        | none => rfl
        | some g => exact absurd (by simpa using h.symm) g.text_ne_nil
      | some f =>
        cases new with
        | none => exact absurd (by simpa using h) f.text_ne_nil
        | some g =>
          exact congrArg some (Field.text_injective (String.toList_inj.mp (by simpa using h)))
    exact ⟨kind, by rw [left, right, hone]⟩

/-- **Which changes of a declaration change its digested text.** A legible declaration shares its
text only with declarations of fewer fields, which are not legible. A single change of a declaration
is always seen, legible or not. -/
theorem digest_tracks_declaration (s t : Spec) :
    (s.Legible → s.ordered.length ≤ t.ordered.length →
        (s.digested.toUTF8 = t.digested.toUTF8 ↔ s.Same t)) ∧
      (s.Legible → t.Legible → (s.digested.toUTF8 = t.digested.toUTF8 ↔ s.Same t)) ∧
      (s.OneChange t → (s.digested.toUTF8 = t.digested.toUTF8 ↔ s.Same t)) := by
  have hbytes : s.digested.toUTF8 = t.digested.toUTF8 ↔
      s.digested.toList = t.digested.toList := by
    rw [String.toUTF8_eq_toByteArray, String.toUTF8_eq_toByteArray, String.toByteArray_inj,
      String.toList_inj]
  have hsame : s.Same t → s.digested.toList = t.digested.toList := by
    intro h
    obtain ⟨hkind, hordered⟩ := same_iff.mp h
    rw [toList_digested, toList_digested, hkind, hordered]
  simp only [hbytes]
  exact ⟨fun hs hle => ⟨same_of_legible hs hle, hsame⟩,
    fun hs ht => ⟨fun h => same_iff.mpr (eq_of_legible hs ht h), hsame⟩,
    fun hs => ⟨same_of_oneChange hs, hsame⟩⟩

end Spec

/-! ### A name that reads like two fields

The two declarations have one kind and one text, and a different number of inputs. -/

namespace Join

def column : ArtifactType := ⟨"Column", by decide⟩

def two : Spec := ⟨"join", [.input "a" column, .input "b" column], by decide⟩

/-- The name goes on behind a word with a type, the beginning of a field, and another word. -/
def one : Spec := ⟨"join", [.input "a:Column\x00input:b" column], by decide +kernel⟩

def renamed : Spec := ⟨"join", [.input "a:Column\x00input:c" column], by decide +kernel⟩

def split : Spec := ⟨"join", [.output "b" column, .input "a" column], by decide⟩

theorem legible_two : two.Legible := by
  rw [Spec.legible_iff]
  decide +kernel

end Join

namespace Spec

/-- A declaration with two inputs has the text of one with a single input, whose name is not
legible. It has not the text of one with an output in place of an input, and the single input cannot
be renamed without a trace. -/
theorem digest_tracks_join :
    Join.two.digested.toUTF8 = Join.one.digested.toUTF8 ∧ ¬ Join.two.Same Join.one ∧
      Join.two.Legible ∧ Join.two.digested.toUTF8 ≠ Join.split.digested.toUTF8 ∧
      Join.one.OneChange Join.renamed ∧
      Join.one.digested.toUTF8 ≠ Join.renamed.digested.toUTF8 := by
  have hchange : Join.one.OneChange Join.renamed :=
    .field rfl [] [] (some (.input "a:Column\x00input:b" Join.column))
      (some (.input "a:Column\x00input:c" Join.column)) rfl rfl
  have hsplit := (digest_tracks_declaration Join.two Join.split).1 Join.legible_two (by decide)
  have hrenamed := (digest_tracks_declaration Join.one Join.renamed).2.2 hchange
  refine ⟨by decide +kernel, fun h => absurd h.2.1 (by decide), Join.legible_two,
    fun h => absurd (hsplit.mp h).2.1 (by decide), hchange,
    fun h => absurd (hrenamed.mp h).2.1 (by decide)⟩

end Spec

end TypedPipeline
