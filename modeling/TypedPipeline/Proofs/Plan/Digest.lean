import TypedPipeline.Plan
import TypedPipeline.Proofs.Json.Distinct

/-!
# The digested text of kind and parameters

A kind and the parameters of a component are digested as one text, the parameters as an object right
behind the kind. A kind may be any text, also one that looks like the beginning of an object. Still
the text tells where the kind ends. Outside of quotes the text of an object of scalars has neither a
backslash nor a brace that opens. If a kind went on behind such a brace, the reader of the longer
object would stand inside quotes where the shorter object begins; but a text that one reader leaves
outside of quotes is not left outside by another who begins inside of them.

## Why this is not obvious

No separator stands between the kind and the object, and a kind is not restricted: it may hold
braces and quotes, in any number. So no character tells where the kind ends. What tells it is how
the text ends: there is only one brace from which a reader who begins outside of quotes comes to the
end outside of quotes.

Both readers go forward, which is easier to follow through the definitions. If two cuts were
possible, one kind would be longer, and its object would be read by both readers: by the one of the
longer kind from outside of quotes, by the other from inside, since it has passed a brace that opens
and is not allowed outside. Each quote of the rest moves both of them to the other side, so they
cannot both end outside.

## Implementation notes

A reader that meets a backslash or an opening brace outside of quotes fails, so `walk?` is partial.
That objects of scalars are walked through to the end is shown along the writer, for scalars one
kind at a time.

## Main definitions

* `Quoting`, `Quoting.walk?` — whether a reader stands outside of quotes, inside, or behind a
  backslash

## Main results

* `Quoting.not_walk?_of_outside` — a text does not end outside for both readers
* `Quoting.append_brace_inj` — where the object begins
* `Component.digested_eq_iff` — which components have one digested text
-/

namespace TypedPipeline

open Json (escapeChar quoted compactChars compactMembers)

/-- Where the reader of a text stands. -/
inductive Quoting where
  | outside
  | inside
  /-- Inside, behind a backslash. -/
  | escaped
deriving DecidableEq

namespace Quoting

/-- The place behind a character. Outside of quotes there is no backslash, and no brace opens. -/
def next? : Quoting → Char → Option Quoting
  | outside, c =>
    if c = '"' then some inside else if c = '\\' ∨ c = '{' then none else some outside
  | inside, c => if c = '"' then some outside else if c = '\\' then some escaped else some inside
  | escaped, _ => some inside

/-- The place behind a text. A text for which this is absent is not one that an object of scalars
ends with. -/
def walk? (p : Quoting) (cs : List Char) : Option Quoting := cs.foldlM next? p

variable {p : Quoting} {cs ds : List Char} {c : Char}

theorem walk?_cons : p.walk? (c :: cs) = (p.next? c).bind (walk? · cs) := rfl

theorem walk?_append : p.walk? (cs ++ ds) = (p.walk? cs).bind (walk? · ds) :=
  List.foldlM_append

/-! ### Two readers

The invariant is that the readers are on different sides of the quotes. A backslash inside of quotes
for one is outside for the other, who fails there. -/

/-- A text does not end outside for both readers: each quote changes their places, and nothing else
that stands outside of quotes does. The induction is on the text, and a quote exchanges the places
of the two readers. -/
theorem not_walk?_of_outside (h : outside.walk? cs = some outside) :
    inside.walk? cs ≠ some outside := by
  intro hinside
  induction cs with
  | nil => cases hinside
  | cons c cs ih =>
    simp only [walk?_cons, next?] at h hinside
    by_cases hquote : c = '"'
    · rw [if_pos hquote] at h hinside
      exact ih hinside h
    · rw [if_neg hquote] at h hinside
      by_cases hmark : c = '\\' ∨ c = '{'
      · rw [if_pos hmark] at h
        cases h
      · obtain ⟨hslash, -⟩ := not_or.mp hmark
        rw [if_neg hmark] at h
        rw [if_neg hslash] at hinside
        exact ih h hinside

/-- A text that goes on behind a brace is read there from inside of quotes. -/
theorem walk?_of_brace (h : outside.walk? (cs ++ '{' :: ds) = some outside) :
    inside.walk? ds = some outside := by
  rw [walk?_append] at h
  cases hp : outside.walk? cs with
  | none =>
    rw [hp] at h
    cases h
  | some p =>
    rw [hp] at h
    cases p with
    | outside => cases h
    | inside => exact h
    | escaped => exact h

/-- The brace behind which a text ends outside of quotes is found in only one way. -/
theorem append_brace_inj {cs₁ cs₂ ds₁ ds₂ : List Char} (h₁ : outside.walk? ds₁ = some outside)
    (h₂ : outside.walk? ds₂ = some outside) :
    cs₁ ++ '{' :: ds₁ = cs₂ ++ '{' :: ds₂ ↔ cs₁ = cs₂ ∧ ds₁ = ds₂ := by
  have hshorter : ∀ {ds₁ ds₂ part : List Char}, outside.walk? ds₁ = some outside →
      outside.walk? ds₂ = some outside → '{' :: ds₁ = part ++ '{' :: ds₂ →
      part = [] ∧ ds₁ = ds₂ := by
    intro ds₁ ds₂ part h₁ h₂ h
    cases part with
    | nil =>
      cases h
      exact ⟨rfl, rfl⟩
    | cons c part =>
      cases h
      exact absurd (walk?_of_brace h₁) (not_walk?_of_outside h₂)
  constructor
  · intro h
    rcases List.append_eq_append_iff.mp h with ⟨part, hcs, hds⟩ | ⟨part, hcs, hds⟩
    · obtain ⟨rfl, rfl⟩ := hshorter h₁ h₂ hds
      exact ⟨by simpa using hcs.symm, rfl⟩
    · obtain ⟨rfl, rfl⟩ := hshorter h₂ h₁ hds
      exact ⟨by simpa using hcs, rfl⟩
  · rintro ⟨rfl, rfl⟩
    rfl

/-! ### Objects of scalars

Only scalars stand in the object, so after the first brace there is no other one outside of quotes.
-/

theorem walk?_of_stays (h : ∀ c ∈ cs, p.next? c = some p) : p.walk? cs = some p := by
  induction cs with
  | nil => rfl
  | cons c cs ih =>
    obtain ⟨hc, hcs⟩ := List.forall_mem_cons.mp h
    rw [walk?_cons, hc, Option.bind_some, ih hcs]

theorem next?_hexDigit : ∀ n < 16, inside.next? (Json.hexDigit n) = some inside := by decide

theorem walk?_escapeChar (c : Char) : inside.walk? (escapeChar c) = some inside := by
  unfold escapeChar
  split
  case h_8 hquote hslash _ _ _ _ _ =>
    split
    · rename_i hcontrol
      have hhigh := next?_hexDigit (c.toNat / 16) (by omega)
      have hlow := next?_hexDigit (c.toNat % 16) (by omega)
      have hunit : inside.walk? ['\\', 'u', '0', '0'] = some inside := rfl
      have hdigits : inside.walk? [Json.hexDigit (c.toNat / 16), Json.hexDigit (c.toNat % 16)] =
          some inside := walk?_of_stays (by simp [hhigh, hlow])
      calc inside.walk? (['\\', 'u', '0', '0'] ++
            [Json.hexDigit (c.toNat / 16), Json.hexDigit (c.toNat % 16)])
          = inside.walk? [Json.hexDigit (c.toNat / 16), Json.hexDigit (c.toNat % 16)] := by
            rw [walk?_append, hunit, Option.bind_some]
        _ = some inside := hdigits
    · refine walk?_of_stays fun c' hc' => ?_
      rw [List.mem_singleton.mp hc', next?, if_neg hquote, if_neg hslash]
  all_goals rfl

theorem walk?_quoted (s : String) : outside.walk? (quoted s) = some outside := by
  have hinside : ∀ cs : List Char, inside.walk? (cs.flatMap escapeChar) = some inside := by
    intro cs
    induction cs with
    | nil => rfl
    | cons c cs ih => rw [List.flatMap_cons, walk?_append, walk?_escapeChar, Option.bind_some, ih]
  rw [quoted, List.cons_append, walk?_cons]
  have hquote : outside.next? '"' = some inside := rfl
  rw [hquote, Option.bind_some, walk?_append, hinside]
  rfl

/-- The characters of a number stand outside of quotes. No number has a quote in it. -/
theorem walk?_number {n : JsonNumber} (h : n.Sound) : outside.walk? n.chars = some outside := by
  have hplain : ∀ c : Char, c ≠ '"' ∧ c ≠ '\\' ∧ c ≠ '{' → outside.next? c = some outside := by
    rintro c ⟨hquote, hslash, hbrace⟩
    rw [next?, if_neg hquote, if_neg (not_or.mpr ⟨hslash, hbrace⟩)]
  have hdigit : ∀ c : Char, c.isDigit = true → outside.next? c = some outside := by
    intro c hc
    refine hplain c ⟨?_, ?_, ?_⟩
    all_goals
      rintro rfl
      cases hc
  have hdigits : ∀ ds, JsonNumber.IsDigits ds → outside.walk? ds = some outside :=
    fun ds hds => walk?_of_stays fun c hc => hdigit c (hds.2 c hc)
  have hplaces : outside.walk? (JsonNumber.placesChars n.places) = some outside := by
    cases hn : n.places with
    | none => rfl
    | some ds => exact hdigits ds (h.places ds hn)
  have hexponent : outside.walk? (JsonNumber.exponentChars n.exponent) = some outside := by
    match hn : n.exponent with
    | none => rfl
    | some (true, ds) => exact hdigits ds (h.exponent _ ds hn)
    | some (false, ds) => exact hdigits ds (h.exponent _ ds hn)
  have hsign : outside.walk? (if n.negative then ['-'] else []) = some outside := by
    cases n.negative <;> rfl
  rw [JsonNumber.chars, walk?_append, hsign, Option.bind_some, walk?_append,
    hdigits _ h.whole, Option.bind_some, walk?_append, hplaces, Option.bind_some, hexponent]

theorem walk?_ofScalar (v : Scalar) :
    outside.walk? (compactChars (.ofScalar v)) = some outside := by
  cases v with
  | boolean b => cases b <;> rfl
  | integer n =>
    have hchars : compactChars (.ofScalar (.integer n)) = (JsonNumber.ofInt n.toInt).chars :=
      (JsonNumber.chars_ofInt n.toInt).symm
    rw [hchars, walk?_number (JsonNumber.sound_ofInt _)]
  | float x =>
    have hchars : compactChars (.ofScalar (.float x)) = Json.floatChars x := rfl
    rw [hchars]
    by_cases hx : x.isFinite = true
    · rw [← JsonNumber.chars_ofFloat hx, walk?_number (JsonNumber.sound_ofFloat x)]
    · rw [Json.floatChars, if_neg hx]
      rfl
  | string s => exact walk?_quoted s

/-- The text of an object of scalars ends outside of quotes. Each quote that is opened is closed
again. -/
theorem walk?_compactMembers {l : List (String × Datum)}
    (h : ∀ e ∈ l, outside.walk? (compactChars e.2) = some outside) :
    outside.walk? (compactMembers l) = some outside := by
  induction l with
  | nil => rfl
  | cons e l ih =>
    obtain ⟨he, hl⟩ := List.forall_mem_cons.mp h
    have hends : ∀ c, c = ':' ∨ c = ',' ∨ c = '}' → outside.next? c = some outside := by
      rintro c (rfl | rfl | rfl) <;> rfl
    cases l with
    | nil =>
      rw [JsonTree.compactMembers_singleton, walk?_append, walk?_quoted, Option.bind_some,
        walk?_cons, hends _ (by decide), Option.bind_some, walk?_append, he]
      rfl
    | cons m l =>
      rw [JsonTree.compactMembers_cons, walk?_append, walk?_quoted, Option.bind_some, walk?_cons,
        hends _ (by decide), Option.bind_some, walk?_append, he, Option.bind_some, walk?_cons,
        hends _ (by decide), Option.bind_some, ih hl]

/-- The text of parameters is a brace and an object that ends outside of quotes. -/
theorem exists_compact_ofParameters (p : Parameters) :
    ∃ cs, (Json.compact (.ofParameters p)).toList = '{' :: cs ∧
      outside.walk? cs = some outside := by
  have htext : (Json.compact (.ofParameters p)).toList =
      '{' :: compactMembers (p.entries.map fun e => (e.1, .ofScalar e.2)) := String.toList_ofList
  refine ⟨_, htext, walk?_compactMembers fun m hm => ?_⟩
  obtain ⟨e, -, rfl⟩ := List.mem_map.mp hm
  exact walk?_ofScalar e.2

end Quoting

open Quoting (exists_compact_ofParameters append_brace_inj)

/-- The text tells where the kind ends. -/
theorem digestedParameters_eq_iff {k₁ k₂ : String} {p₁ p₂ : Parameters} :
    digestedParameters k₁ p₁ = digestedParameters k₂ p₂ ↔
      k₁ = k₂ ∧ Json.compact (.ofParameters p₁) = Json.compact (.ofParameters p₂) := by
  obtain ⟨cs₁, hcs₁, h₁⟩ := exists_compact_ofParameters p₁
  obtain ⟨cs₂, hcs₂, h₂⟩ := exists_compact_ofParameters p₂
  have hcut : k₁.toList ++ '{' :: cs₁ = k₂.toList ++ '{' :: cs₂ ↔
      k₁.toList = k₂.toList ∧ cs₁ = cs₂ := append_brace_inj h₁ h₂
  simp only [digestedParameters, String.ext_iff, String.toList_append, hcs₁, hcs₂, hcut,
    List.cons.injEq, true_and]

namespace Component

/-- **The digest sees all of kind and parameters.** Two components have the same bytes digested
exactly if they are of one kind and their parameters have the same names and the same values, of the
same variant and with the same bits, where all floats that are not finite are taken for one. -/
theorem digested_eq_iff (c d : Component) :
    c.digested.toUTF8 = d.digested.toUTF8 ↔
      c.spec.kind = d.spec.kind ∧
        c.parameters.map (fun _ => Scalar.written) = d.parameters.map fun _ => Scalar.written := by
  rw [String.toUTF8_eq_toByteArray, String.toUTF8_eq_toByteArray, String.toByteArray_inj, digested,
    digested, digestedParameters_eq_iff, Json.compact_ofParameters_eq_iff]

end Component

end TypedPipeline
