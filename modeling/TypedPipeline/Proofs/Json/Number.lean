import Mathlib.Data.List.Basic
import Mathlib.Data.List.TakeWhile
import TypedPipeline.Json
import TypedPipeline.Json.Read
import TypedPipeline.Proofs.Number.Shortest

/-!
# Numbers as they are written

Numbers are written as integers, or with a point or an exponent that tells that they are not. What
is written is read back digit by digit: the first character behind the digits ends them, and none of
the characters that may follow a value belongs to a number.

## Implementation notes

Between the writers and the reader stands `JsonNumber`, a number as it is written. The reader is
shown to give it back for any sound number (`number?_chars`), and the writers are shown to write the
text of one (`chars_ofInt`, `chars_ofFloat`). So the layout of floats, with its cases of positional
notation and of exponents, is opened once for soundness and once for the text, and reading never
meets it.

What follows a number matters: a digit behind it would belong to it. The condition is on the first
character that follows (`Ends`), and within a number the condition for digits alone (`EndsDigits`)
is enough.

## Main definitions

* `JsonNumber.chars`, `JsonNumber.Sound` — the text of a number, and what the grammar asks of it
* `JsonNumber.ofInt`, `JsonNumber.ofFloat` — the numbers that are written

## Main results

* `JsonTree.number?_chars` — the text of a number is read as that number
* `JsonNumber.chars_ofInt`, `JsonNumber.chars_ofFloat` — what is written is the text of a number
* `JsonNumber.sound_ofInt`, `JsonNumber.sound_ofFloat` — as the grammar asks for it
* `JsonNumber.value?_ofInt` — an integer keeps its value
-/

namespace TypedPipeline

namespace JsonNumber

/-! ### Texts of numbers -/

/-- The text of an exponent, with its sign. -/
def exponentChars : Option (Bool × List Char) → List Char
  | none => []
  | some (minus, ds) => 'e' :: (if minus then '-' else '+') :: ds

/-- The text of the digits behind a point. -/
def placesChars : Option (List Char) → List Char
  | none => []
  | some ds => '.' :: ds

/-- The text of a number, with a sign in its exponent. A reader takes an exponent without sign as
well, but no number is written so. -/
def chars (n : JsonNumber) : List Char :=
  (if n.negative then ['-'] else []) ++
    (n.whole ++ (placesChars n.places ++ exponentChars n.exponent))

/-- Digits, at least one. -/
def IsDigits (ds : List Char) : Prop := ds ≠ [] ∧ ∀ c ∈ ds, c.isDigit = true

/-- What the grammar asks of a number. Digits are asked for before the point, behind it and in the
exponent, and zeros in front of other digits are refused. -/
structure Sound (n : JsonNumber) : Prop where
  whole : IsDigits n.whole
  /-- No zero stands in front of other digits. -/
  zero : n.whole.head? = some '0' → n.whole.length ≤ 1
  places : ∀ ds, n.places = some ds → IsDigits ds
  exponent : ∀ minus ds, n.exponent = some (minus, ds) → IsDigits ds

/-- A text that goes on with something else than digits. -/
def EndsDigits (rest : List Char) : Prop := ∀ c ∈ rest.head?, c.isDigit = false

/-- A text that goes on with something that is not part of a number. -/
def Ends (rest : List Char) : Prop :=
  ∀ c ∈ rest.head?, c.isDigit = false ∧ c ≠ '.' ∧ c ≠ 'e' ∧ c ≠ 'E'

theorem Ends.endsDigits {rest : List Char} (h : Ends rest) : EndsDigits rest :=
  fun c hc => (h c hc).1

theorem endsDigits_exponentChars {e : Option (Bool × List Char)} {rest : List Char}
    (h : EndsDigits rest) : EndsDigits (exponentChars e ++ rest) := by
  cases e with
  | none => exact h
  | some e =>
    intro c hc
    cases hc
    rfl

theorem endsDigits_placesChars (ds : Option (List Char)) {rest : List Char}
    (h : EndsDigits rest) : EndsDigits (placesChars ds ++ rest) := by
  cases ds with
  | none => exact h
  | some ds =>
    intro c hc
    cases hc
    rfl

end JsonNumber

/-! ### Reading a number back -/

namespace JsonTree

open JsonNumber

variable {ds rest : List Char}

theorem digits?_append (h : IsDigits ds) (hrest : EndsDigits rest) :
    digits? (ds ++ rest) = some (ds, rest) := by
  have hends : rest.takeWhile Char.isDigit = [] ∧ rest.dropWhile Char.isDigit = rest := by
    cases rest with
    | nil => exact ⟨rfl, rfl⟩
    | cons c rest =>
      have hc : c.isDigit = false := hrest c rfl
      exact ⟨by simp [hc], by simp [hc]⟩
  rw [digits?, List.takeWhile_append_of_pos h.2, List.dropWhile_append_of_pos h.2, hends.1,
    hends.2, List.append_nil]
  simp [h.1]

theorem exponent?_append {e : Option (Bool × List Char)}
    (h : ∀ minus ds, e = some (minus, ds) → IsDigits ds) (hrest : Ends rest) :
    exponent? (exponentChars e ++ rest) = some (e, rest) := by
  cases e with
  | none =>
    cases rest with
    | nil => rfl
    | cons c rest =>
      obtain ⟨-, -, he, hE⟩ := hrest c rfl
      simp [exponentChars, exponent?, he, hE]
  | some e =>
    obtain ⟨minus, ds⟩ := e
    have hds := digits?_append (h minus ds rfl) hrest.endsDigits
    cases minus <;> simp [exponentChars, exponent?, exponentSign, hds]

theorem places?_append {places : Option (List Char)} (h : ∀ ds, places = some ds → IsDigits ds)
    (hrest : EndsDigits rest) (hpoint : rest.head? ≠ some '.') :
    places? (placesChars places ++ rest) = some (places, rest) := by
  cases places with
  | none =>
    rw [placesChars, List.nil_append, places?]
    rintro more rfl
    exact hpoint rfl
  | some ds => simp [placesChars, places?, digits?_append (h ds rfl) hrest]

theorem magnitude?_append {n : JsonNumber} (h : n.Sound) (hrest : Ends rest) :
    magnitude? n.negative
      (n.whole ++ (placesChars n.places ++ exponentChars n.exponent) ++ rest) =
        some (n, rest) := by
  have hexponent := exponent?_append h.exponent hrest
  have hends := endsDigits_exponentChars (e := n.exponent) hrest.endsDigits
  have hpoint : (exponentChars n.exponent ++ rest).head? ≠ some '.' := by
    cases n.exponent with
    | none => exact fun hc => (hrest '.' hc).2.1 rfl
    | some e => simp [exponentChars]
  have hplaces := places?_append h.places hends hpoint
  have hwhole := digits?_append h.whole (endsDigits_placesChars n.places hends)
  have hzero : ¬ ((n.whole.head? == some '0' && decide (1 < n.whole.length)) = true) := by
    simpa using h.zero
  simp only [List.append_assoc, magnitude?]
  rw [hwhole]
  simp only [Option.bind_eq_bind, Option.bind_some, if_neg hzero]
  rw [hplaces]
  simp [hexponent]

/-- The text of a number is read as that number. All of it is taken, and what follows is left
over. -/
theorem number?_chars {n : JsonNumber} (h : n.Sound) (hrest : Ends rest) :
    number? (n.chars ++ rest) = some (n, rest) := by
  have hmagnitude := magnitude?_append h hrest
  rw [chars, List.append_assoc]
  cases hn : n.negative with
  | true =>
    rw [hn] at hmagnitude
    exact hmagnitude
  | false =>
    rw [hn] at hmagnitude
    obtain ⟨c, ds, hds⟩ := List.exists_cons_of_ne_nil h.whole.1
    have hc : c.isDigit = true := h.whole.2 c (by simp [hds])
    rw [if_neg Bool.false_ne_true, List.nil_append, number?]
    · exact hmagnitude
    · intro more heq
      rw [hds] at heq
      cases heq
      exact absurd hc (by decide)

end JsonTree

/-! ### Digits

The decimal digits of a natural come from core. All that is used of them is that they are digits,
that none but zero begins with a zero, and what their value is. -/

namespace Decimal

theorem digitChars_eq (n : Nat) : digitChars n = Nat.toDigits 10 n := by
  simp [digitChars, Nat.repr_eq_ofList_toDigits]

theorem isDigits_digitChars (n : Nat) : JsonNumber.IsDigits (digitChars n) := by
  rw [digitChars_eq]
  exact ⟨Nat.toDigits_ne_nil, fun c hc => Nat.isDigit_of_mem_toDigits (by decide) (by decide) hc⟩

theorem head?_digitChars_ne {n : Nat} (hn : n ≠ 0) : (digitChars n).head? ≠ some '0' := by
  rw [digitChars_eq]
  induction n using Nat.strongRecOn with
  | _ n ih =>
    rw [Nat.toDigits_eq_if (by decide)]
    split
    · rename_i hlt
      have hchar : ∀ m < 10, m ≠ 0 → Nat.digitChar m ≠ '0' := by decide
      simpa using hchar n hlt hn
    · have hhead := ih (n / 10) (by omega) (by omega)
      have hne : Nat.toDigits 10 (n / 10) ≠ [] := Nat.toDigits_ne_nil
      obtain ⟨c, ds, hds⟩ := List.exists_cons_of_ne_nil hne
      rw [hds] at hhead ⊢
      exact hhead

theorem digitsValue_digitChars (n : Nat) : digitsValue (digitChars n) = n := by
  have hvalue : digitsValue (digitChars n) = Nat.ofDigitChars 10 (digitChars n) 0 :=
    Nat.ofDigitChars_eq_foldl.symm
  rw [hvalue, digitChars_eq, Nat.ofDigitChars_ten_toDigits]

end Decimal

/-! ### Integers -/

namespace JsonNumber

/-- An integer as it is written. -/
def ofInt (n : Int) : JsonNumber := ⟨n < 0, Decimal.digitChars n.natAbs, none, none⟩

theorem sound_ofInt (n : Int) : (ofInt n).Sound where
  whole := Decimal.isDigits_digitChars _
  zero h := by
    have hn : n.natAbs = 0 := by
      by_contra hne
      exact Decimal.head?_digitChars_ne hne h
    simp [ofInt, hn, Decimal.digitChars_eq]
  places _ h := by cases h
  exponent _ _ h := by cases h

theorem chars_ofInt (n : Int) : (ofInt n).chars = (toString n).toList := by
  cases n with
  | ofNat n =>
    have htext : (toString (Int.ofNat n)).toList = Decimal.digitChars n := rfl
    have hsign : decide (Int.ofNat n < 0) = false :=
      decide_eq_false (Int.not_lt.mpr (Int.natCast_nonneg n))
    rw [htext, ofInt, hsign]
    simp [chars, placesChars, exponentChars]
  | negSucc n =>
    have htext : toString (Int.negSucc n) = "-" ++ toString (n + 1) := rfl
    have hsign : decide (Int.negSucc n < 0) = true := decide_eq_true (Int.negSucc_lt_zero n)
    rw [htext, ofInt, hsign]
    simp [chars, placesChars, exponentChars, Decimal.digitChars]

/-- An integer of 64 bits, with or without sign, keeps its value. Beyond that range the reader would
take it for a float. -/
theorem value?_ofInt {n : Int} (hlow : -2 ^ 63 ≤ n) (hhigh : n < 2 ^ 64) :
    (ofInt n).value? = some (.integer n) := by
  have hdigits : Decimal.digitsValue (ofInt n).whole = n.natAbs :=
    Decimal.digitsValue_digitChars _
  have hgreatest : ¬ greatest < n.natAbs := by
    simp only [greatest]
    omega
  have hinteger : ((ofInt n).places.isNone && (ofInt n).exponent.isNone) = true := rfl
  rw [value?, if_pos hinteger, hdigits]
  simp only [if_neg hgreatest]
  by_cases hsign : n < 0
  · have hnegative : (ofInt n).negative = true := decide_eq_true hsign
    rw [if_pos hnegative, if_neg (by omega), if_pos (by omega)]
    congr 2
    omega
  · have hnegative : ¬ (ofInt n).negative = true := by simpa [ofInt] using hsign
    rw [if_neg hnegative]
    congr 2
    omega

end JsonNumber

/-! ### Floats

The fields of `ofFloat` are those of the number that the reader finds, with the window of exponents
that are written positionally. -/

namespace JsonNumber

/-- A decimal in positional notation, with a zero behind the point of a whole number. -/
def ofPositional (negative : Bool) (d : Decimal) : JsonNumber where
  negative
  whole := d.placed.1
  places := some (if d.placed.2.isEmpty then ['0'] else d.placed.2)
  exponent := none

/-- A decimal with one digit before the point, and its exponent. -/
def ofScientific (negative : Bool) (d : Decimal) : JsonNumber :=
  let ds := Decimal.digitChars d.digits
  let e := d.exponent + ds.length - 1
  { negative
    whole := ds.take 1
    places := if ds.length ≤ 1 then none else some (ds.drop 1)
    exponent := some (decide (e < 0), Decimal.digitChars e.natAbs) }

/-- A float as it is written. -/
def ofFloat (x : Binary64) : JsonNumber :=
  if x.isZero then ofPositional x.negative ⟨0, 0⟩
  else
    let d := Decimal.shortest .toEven x
    let e := d.exponent + (Decimal.digitChars d.digits).length - 1
    if -5 ≤ e && e ≤ 15 then ofPositional x.negative d else ofScientific x.negative d

theorem chars_ofPositional (negative : Bool) (d : Decimal) :
    (ofPositional negative d).chars =
      (if negative then ['-'] else []) ++ Decimal.positional true d := by
  rw [chars, ofPositional, Decimal.positional]
  obtain ⟨whole, places⟩ := d.placed
  cases places <;> simp [placesChars, exponentChars]

theorem chars_ofScientific (negative : Bool) (d : Decimal) :
    (ofScientific negative d).chars =
      (if negative then ['-'] else []) ++ Decimal.scientific true d := by
  rw [chars, ofScientific, Decimal.scientific]
  generalize hds : Decimal.digitChars d.digits = ds
  have hne : ds ≠ [] := hds ▸ (Decimal.isDigits_digitChars _).1
  have hexponent : ∀ e : Int, exponentChars (some (decide (e < 0), Decimal.digitChars e.natAbs)) =
      'e' :: (if e < 0 then '-' :: Decimal.digitChars (-e).toNat
        else ['+'] ++ Decimal.digitChars e.toNat) := by
    intro e
    by_cases he : e < 0
    · have habs : e.natAbs = (-e).toNat := by omega
      simp [exponentChars, he, habs]
    · have habs : e.natAbs = e.toNat := by omega
      simp [exponentChars, he, habs]
  dsimp only
  rw [hexponent]
  match ds, hne with
  | [c], _ => simp [placesChars]
  | c :: c' :: rest, _ => simp [placesChars]

/-- A finite float is written as the text of a number. -/
theorem chars_ofFloat {x : Binary64} (hx : x.isFinite = true) :
    (ofFloat x).chars = Json.floatChars x := by
  have hexponent : x.exponent.val ≠ 2047 := by simpa [Binary64.isFinite] using hx
  have hnan : ¬ x.isNaN = true := by simp [Binary64.isNaN, hexponent]
  have hinfinite : ¬ x.isInfinite = true := by simp [Binary64.isInfinite, hexponent]
  have hsign : ∀ cs : List Char, (if x.negative then '-' :: cs else cs) =
      (if x.negative then ['-'] else []) ++ cs := by
    intro cs
    cases x.negative <;> rfl
  rw [Json.floatChars, if_pos hx, FloatStyle.render, if_neg hnan, if_neg hinfinite,
    String.toList_ofList, hsign, FloatStyle.magnitudeChars, ofFloat]
  split
  · exact chars_ofPositional _ _
  · dsimp only [Json.floatStyle]
    rw [apply_ite chars, chars_ofPositional, chars_ofScientific,
      ← apply_ite (HAppend.hAppend (if x.negative then ['-'] else []))]

theorem isDigits_take {ds : List Char} (h : ∀ c ∈ ds, c.isDigit = true) {n : Nat}
    (hn : ds.take n ≠ []) : IsDigits (ds.take n) :=
  ⟨hn, fun c hc => h c (List.mem_of_mem_take hc)⟩

theorem isDigits_drop {ds : List Char} (h : ∀ c ∈ ds, c.isDigit = true) {n : Nat}
    (hn : ds.drop n ≠ []) : IsDigits (ds.drop n) :=
  ⟨hn, fun c hc => h c (List.mem_of_mem_drop hc)⟩

theorem isDigit_of_zeros {ds cs : List Char} (h : ∀ c ∈ ds, c.isDigit = true) {n : Nat}
    (hcs : cs = List.replicate n '0' ++ ds ∨ cs = ds ++ List.replicate n '0') :
    ∀ c ∈ cs, c.isDigit = true := by
  intro c hc
  have hmem : c ∈ List.replicate n '0' ∨ c ∈ ds := by
    rcases hcs with rfl | rfl
    · exact List.mem_append.mp hc
    · exact (List.mem_append.mp hc).symm
  rcases hmem with hzero | hdigit
  · rw [List.eq_of_mem_replicate hzero]
    rfl
  · exact h c hdigit

/-- The digits in front of the point, and those behind it. In front there is always one, which may
be a zero. -/
theorem isDigits_placed {d : Decimal} (hd : d.digits = 0 → d.exponent = 0) :
    IsDigits d.placed.1 ∧ (d.placed.1.head? = some '0' → d.placed.1.length ≤ 1) ∧
      ∀ c ∈ d.placed.2, c.isDigit = true := by
  have hdigits := Decimal.isDigits_digitChars d.digits
  have hlength := List.length_pos_iff.mpr hdigits.1
  have hhead : d.digits ≠ 0 → (Decimal.digitChars d.digits).head? ≠ some '0' :=
    Decimal.head?_digitChars_ne
  by_cases hexponent : 0 ≤ d.exponent
  · rw [Decimal.placed, if_pos hexponent]
    refine ⟨⟨by simp [hdigits.1], isDigit_of_zeros hdigits.2 (.inr rfl)⟩, fun hzero => ?_, by simp⟩
    rw [List.head?_append_of_ne_nil _ hdigits.1] at hzero
    have hnone : d.digits = 0 := by
      by_contra hne
      exact hhead hne hzero
    simp [hnone, hd hnone, Decimal.digitChars_eq]
  · rw [Decimal.placed, if_neg hexponent]
    dsimp only
    have hne : d.digits ≠ 0 := fun h => hexponent (Int.le_of_eq (hd h).symm)
    generalize hpadded : List.replicate ((-d.exponent).toNat + 1 -
      (Decimal.digitChars d.digits).length) '0' ++ Decimal.digitChars d.digits = padded
    have hall : ∀ c ∈ padded, c.isDigit = true := isDigit_of_zeros hdigits.2 (.inl hpadded.symm)
    have hlong : (-d.exponent).toNat + 1 ≤ padded.length := by
      simp only [← hpadded, List.length_append, List.length_replicate]
      omega
    refine ⟨isDigits_take hall ?_, fun hzero => ?_, fun c hc => hall c (List.mem_of_mem_drop hc)⟩
    · rw [← List.length_pos_iff, List.length_take]
      omega
    · -- a zero in front has been put there, and only one is put before the point
      have hshort : (Decimal.digitChars d.digits).length ≤ (-d.exponent).toNat := by
        by_contra hlt
        have hno : (-d.exponent).toNat + 1 - (Decimal.digitChars d.digits).length = 0 := by omega
        rw [hno, List.replicate_zero, List.nil_append] at hpadded
        rw [List.head?_take, if_neg (by omega), ← hpadded] at hzero
        exact hhead hne hzero
      have hexact : padded.length = (-d.exponent).toNat + 1 := by
        simp only [← hpadded, List.length_append, List.length_replicate]
        omega
      rw [List.length_take]
      omega

theorem sound_ofPositional (negative : Bool) {d : Decimal} (hd : d.digits = 0 → d.exponent = 0) :
    (ofPositional negative d).Sound where
  whole := (isDigits_placed hd).1
  zero := (isDigits_placed hd).2.1
  places ds h := by
    cases h
    split
    · exact ⟨by simp, by simp⟩
    · rename_i hne
      exact ⟨by simpa using hne, (isDigits_placed hd).2.2⟩
  exponent _ _ h := by cases h

theorem sound_ofScientific (negative : Bool) (d : Decimal) :
    (ofScientific negative d).Sound where
  whole := by
    have hdigits := Decimal.isDigits_digitChars d.digits
    exact isDigits_take hdigits.2 (by simp [hdigits.1])
  zero _ := by
    rw [ofScientific, List.length_take]
    exact Nat.min_le_left _ _
  places ds h := by
    have hdigits := Decimal.isDigits_digitChars d.digits
    dsimp only [ofScientific] at h
    split at h
    · cases h
    · rename_i hlong
      cases h
      refine isDigits_drop hdigits.2 ?_
      rw [← List.length_pos_iff, List.length_drop]
      omega
  exponent minus ds h := by
    cases h
    exact Decimal.isDigits_digitChars _

/-- A float other than zero has digits other than zero, so no digits follow a zero in front. -/
theorem sound_ofFloat (x : Binary64) : (ofFloat x).Sound := by
  rw [ofFloat]
  split
  · exact sound_ofPositional _ fun _ => rfl
  · rename_i hzero
    have hdigits : (Decimal.shortest .toEven x).digits ≠ 0 :=
      Decimal.digits_shortest_ne_zero _ (mt (Binary64.significand_eq_zero_iff x).mp hzero)
    dsimp only
    split
    · exact sound_ofPositional _ fun h => absurd h hdigits
    · exact sound_ofScientific _ _

end JsonNumber

end TypedPipeline
