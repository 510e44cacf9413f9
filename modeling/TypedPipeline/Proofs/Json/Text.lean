import TypedPipeline.Json
import TypedPipeline.Json.Read

/-!
# Texts as they are written

A text stands between quotes. Quotes, backslashes and control characters are written as escapes, so
the first quote that is not part of an escape ends the text, and each escape is read as the one
character for which it stands.

## Implementation notes

The reader keeps what it has read in reverse, so statements are made for any such beginning and the
induction is on what is still to be read. It uses one unit of fuel for each character that is read,
escapes included, and an escape is longer than the character for which it stands; so the length of
the quoted text is enough.

Which escapes there are is known to the writer only. That each is read as its character is one lemma
with a case for each kind of escape, and no other statement looks at escapes.

## Main results

* `JsonTree.textTail?_escapeChar` — one character
* `JsonTree.text?_quoted` — a whole text
-/

namespace TypedPipeline.JsonTree

open Json (hexDigit escapeChar quoted)

theorem hexValue?_hexDigit : ∀ n < 16, hexValue? (hexDigit n) = some n := by decide

/-- A control character behind `\u`. It has four digits, of which the first two are zeros. -/
theorem unit?_control {n : Nat} (hn : n < 0x20) (rest : List Char) :
    unit? ('0' :: '0' :: hexDigit (n / 16) :: hexDigit (n % 16) :: rest) = some (n, rest) := by
  have hzero : hexValue? '0' = some 0 := by decide
  have hhigh := hexValue?_hexDigit (n / 16) (by omega)
  have hlow := hexValue?_hexDigit (n % 16) (by omega)
  have hn' : 16 * (n / 16) + n % 16 = n := by omega
  simp [unit?, hzero, hhigh, hlow, hn']

/-- What stands for a character is read as this character. -/
theorem textTail?_escapeChar (fuel : Nat) (sound : Bool) (text : List Char) (c : Char)
    (rest : List Char) :
    textTail? (fuel + 1) sound text (escapeChar c ++ rest) =
      textTail? fuel sound (c :: text) rest := by
  unfold escapeChar
  split
  case h_8 hquote hslash _ _ _ _ _ =>
    split
    · rename_i hcontrol
      have hunit := unit?_control hcontrol rest
      have hhigh : isHighHalf c.toNat = false := by
        simp [isHighHalf]
        omega
      have hlow : isLowHalf c.toNat = false := by
        simp [isLowHalf]
        omega
      simp [textTail?, hunit, hhigh, hlow]
    · rename_i hcontrol
      have hquote' : c ≠ '"' := hquote
      have hslash' : c ≠ '\\' := hslash
      simp [textTail?, hquote', hslash', hcontrol]
  all_goals simp [textTail?, shortEscape?]

theorem length_le_flatMap_escapeChar (cs : List Char) :
    cs.length ≤ (cs.flatMap escapeChar).length := by
  have hpos : ∀ c, 1 ≤ (escapeChar c).length := by
    intro c
    unfold escapeChar
    split <;> try split
    all_goals simp
  induction cs with
  | nil => exact Nat.le_refl 0
  | cons c cs ih =>
    have hc := hpos c
    rw [List.flatMap_cons, List.length_append, List.length_cons]
    omega

/-- Character by character, what was read before being kept in reverse. -/
theorem textTail?_flatMap {fuel : Nat} {cs : List Char} (hfuel : cs.length < fuel)
    (text rest : List Char) :
    textTail? fuel true text (cs.flatMap escapeChar ++ '"' :: rest) =
      some (some (String.ofList (text.reverse ++ cs)), rest) := by
  induction cs generalizing fuel text with
  | nil =>
    obtain ⟨fuel, rfl⟩ := Nat.exists_eq_add_of_lt hfuel
    simp [textTail?]
  | cons c cs ih =>
    rw [List.length_cons] at hfuel
    obtain ⟨fuel, rfl⟩ : ∃ n, fuel = n + 1 := ⟨fuel - 1, by omega⟩
    rw [List.flatMap_cons, List.append_assoc, textTail?_escapeChar, ih (by omega)]
    simp

/-- A text in quotes is read as this text, and what stands behind the closing quote is left over. No
condition is put on what follows. -/
theorem text?_quoted (s : String) (rest : List Char) :
    text? (s.toList.flatMap escapeChar ++ '"' :: rest) = some (some s, rest) := by
  have hlength := length_le_flatMap_escapeChar s.toList
  rw [text?, textTail?_flatMap (by rw [List.length_append]; omega)]
  simp

end TypedPipeline.JsonTree
