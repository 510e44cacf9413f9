import Mathlib.Data.List.TakeWhile
import Mathlib.Data.Set.Card
import TypedPipeline.Number.Arithmetic
import TypedPipeline.Proofs.Text.Lines
import TypedPipeline.Text.Blank

/-!
# Words of a text

A word is a run of characters that are not blank, and that cannot be made longer: on both of its
sides there is a blank or an end of the text. Words are counted by going through the text once and
counting the places where one begins. Here they are described by the place at which they stand,
which tells apart two words that have the same characters, and it is shown that there are as many.

The end of a line is left out when its words are counted. That makes no difference, since line feeds
and carriage returns are blank, so that the words of some lines are the words of their part of the
text.

## Implementation notes

The count of the program remembers whether the character before belonged to a word. The counterpart
of this bit on the side of the description is `wordsAfter`: the words of a text, without the run at
its beginning if that run goes on with a word. The induction is over the text and for both values of
the bit at once.

Behind one more character every place moves by one (`Place.push`). The words of the longer text are
the pushed words of the shorter one, and one new word if the character begins one. The two sets are
disjoint and pushing is injective, so cardinalities add up. `Set.encard` is used instead of a finite
cardinality, so that nothing has to be said about finiteness on the way.

## Main definitions

* `Text.Place`, `Text.words` — the places at which words stand

## Main results

* `Text.encard_words` — words are counted
* `Text.wordCount_append_cons` — a blank divides the words of a text
* `Text.sum_wordCount_lines` — the words of the first lines
-/

namespace TypedPipeline.Text

/-- A place in a text: what stands before it, at it and behind it. -/
structure Place where
  before : List Char
  run : List Char
  behind : List Char

/-- At the place there is a maximal run of characters that are not blank. -/
structure Place.IsWord (p : Place) (cs : List Char) : Prop where
  whole : p.before ++ p.run ++ p.behind = cs
  nonempty : p.run ≠ []
  solid : ∀ c ∈ p.run, isBlank c = false
  left : ∀ c, p.before.getLast? = some c → isBlank c = true
  right : ∀ c, p.behind.head? = some c → isBlank c = true

/-- The places at which words stand. Two words with the same characters stand at different places,
so this is a set that has as many members as there are words. -/
def words (cs : List Char) : Set Place := {p | p.IsWord cs}

/-- The words that begin in a text. If the character before the text belongs to a word, a run at the
beginning of the text is the rest of that word. -/
def wordsAfter (inWord : Bool) (cs : List Char) : Set Place :=
  {p | p.IsWord cs ∧ (inWord = true → p.before ≠ [])}

/-- The place in the text with one more character in front. -/
def Place.push (c : Char) (p : Place) : Place := { p with before := c :: p.before }

/-- The place of the first word of a text that does not begin with a blank. -/
def Place.first (c : Char) (cs : List Char) : Place where
  before := []
  run := c :: cs.takeWhile fun d => !isBlank d
  behind := cs.dropWhile fun d => !isBlank d

variable {c : Char} {cs : List Char} {p : Place}

theorem Place.push_injective (c : Char) : Function.Injective (Place.push c) := by
  rintro ⟨_, _, _⟩ ⟨_, _, _⟩ h
  simpa [push] using h

/-- Behind one more character the words are the same, unless a run that began the text now goes on
from that character. In that case the character is not blank. -/
theorem Place.isWord_push_iff : (p.push c).IsWord (c :: cs) ↔
    p.IsWord cs ∧ ((!isBlank c) = true → p.before ≠ []) := by
  constructor
  · intro h
    refine ⟨⟨List.cons.inj h.whole |>.2, h.nonempty, h.solid, fun d hd => h.left d ?_, h.right⟩, ?_⟩
    · rw [push, List.getLast?_cons, hd]
      rfl
    · intro hc hbefore
      have hblank := h.left c (by simp [push, hbefore])
      simp [hblank] at hc
  · rintro ⟨h, hc⟩
    refine ⟨congrArg (c :: ·) h.whole, h.nonempty, h.solid, fun d hd => ?_, h.right⟩
    rw [push, List.getLast?_cons] at hd
    cases hlast : p.before.getLast? with
    | some e =>
      rw [hlast] at hd
      cases hd
      exact h.left _ hlast
    | none =>
      rw [hlast] at hd
      cases hd
      rw [List.getLast?_eq_none_iff] at hlast
      simpa [hlast] using hc

/-- A text that does not begin with a blank begins with one word. -/
theorem Place.isWord_iff_first (hc : isBlank c = false) :
    p.IsWord (c :: cs) ∧ p.before = [] ↔ p = .first c cs := by
  constructor
  · rintro ⟨h, hbefore⟩
    obtain ⟨before, run, behind⟩ := p
    obtain rfl : before = [] := hbefore
    obtain ⟨d, run, rfl⟩ := List.exists_cons_of_ne_nil h.nonempty
    obtain ⟨rfl, hwhole⟩ := List.cons.inj (show d :: (run ++ behind) = c :: cs from h.whole)
    have hsolid : ∀ e ∈ run, (!isBlank e) = true := fun e he => by
      simpa using h.solid e (List.mem_cons_of_mem _ he)
    have hstop : behind.takeWhile (fun e => !isBlank e) = [] ∧
        behind.dropWhile (fun e => !isBlank e) = behind := by
      cases behind with
      | nil => simp
      | cons e behind => simp [h.right e rfl]
    simp [first, ← hwhole, List.takeWhile_append_of_pos hsolid, List.dropWhile_append_of_pos hsolid,
      hstop]
  · rintro rfl
    refine ⟨⟨by simp [first], by simp [first], ?_, by simp [first], fun d hd => ?_⟩, rfl⟩
    · rw [first, List.forall_mem_cons]
      exact ⟨hc, fun d hd => by simpa using List.mem_takeWhile_imp hd⟩
    · have hstop := List.head?_dropWhile_not (fun d => !isBlank d) cs
      rw [show cs.dropWhile (fun d => !isBlank d) = (first c cs).behind from rfl, hd] at hstop
      simpa using hstop

/-- The words of a text are those behind its first character, and one that begins there if that
character is not blank and does not go on with a word. -/
theorem wordsAfter_cons (inWord : Bool) :
    wordsAfter inWord (c :: cs) = {p | p = .first c cs ∧ isBlank c = false ∧ inWord = false} ∪
      Place.push c '' wordsAfter (!isBlank c) cs := by
  ext p
  constructor
  · rintro ⟨h, hafter⟩
    cases hbefore : p.before with
    | nil =>
      obtain ⟨d, run, hrun⟩ := List.exists_cons_of_ne_nil h.nonempty
      have hwhole := h.whole
      rw [hbefore, hrun] at hwhole
      obtain ⟨rfl, -⟩ := List.cons.inj hwhole
      have hc : isBlank d = false := h.solid d (by simp [hrun])
      exact .inl ⟨(Place.isWord_iff_first hc).mp ⟨h, hbefore⟩, hc, by
        simpa [hbefore] using hafter⟩
    | cons d before =>
      have hwhole := h.whole
      rw [hbefore] at hwhole
      obtain ⟨rfl, -⟩ := List.cons.inj hwhole
      have hp : p = Place.push d ⟨before, p.run, p.behind⟩ := by
        rw [Place.push, ← hbefore]
      rw [hp] at h ⊢
      exact .inr ⟨_, Place.isWord_push_iff.mp h, rfl⟩
  · rintro (⟨rfl, hc, rfl⟩ | ⟨q, hq, rfl⟩)
    · exact ⟨((Place.isWord_iff_first hc).mpr rfl).1, by simp⟩
    · exact ⟨Place.isWord_push_iff.mpr hq, fun _ => by simp [Place.push]⟩

theorem encard_wordsAfter (inWord : Bool) (cs : List Char) :
    (wordsAfter inWord cs).encard = wordStarts inWord cs := by
  induction cs generalizing inWord with
  | nil =>
    have hnone : wordsAfter inWord [] = ∅ := by
      rw [Set.eq_empty_iff_forall_notMem]
      rintro p ⟨h, -⟩
      have hwhole := h.whole
      simp only [List.append_eq_nil_iff] at hwhole
      exact h.nonempty hwhole.1.2
    rw [hnone, Set.encard_empty, wordStarts, Nat.cast_zero]
  | cons c cs ih =>
    have hapart : Disjoint {p | p = Place.first c cs ∧ isBlank c = false ∧ inWord = false}
        (Place.push c '' wordsAfter (!isBlank c) cs) := by
      rw [Set.disjoint_left]
      rintro p ⟨rfl, -⟩ ⟨q, -, hq⟩
      cases congrArg Place.before hq
    rw [wordsAfter_cons, Set.encard_union_eq hapart, (Place.push_injective c).injOn.encard_image,
      ih, wordStarts]
    cases isBlank c <;> cases inWord <;> simp

/-- Words are counted. The count of a single pass is the number of maximal runs of characters that
are not blank. -/
theorem encard_words (cs : List Char) : (words cs).encard = wordCount cs := by
  have hall : words cs = wordsAfter false cs := by
    ext p
    simp [words, wordsAfter]
  rw [hall, encard_wordsAfter, wordCount]

/-! ### Counting -/

/-- A blank divides the words of a text. So the words before and behind it can be counted by
themselves. -/
theorem wordStarts_append_cons (hc : isBlank c = true) (inWord : Bool) (cs rest : List Char) :
    wordStarts inWord (cs ++ c :: rest) = wordStarts inWord cs + wordCount rest := by
  induction cs generalizing inWord with
  | nil => simp [wordStarts, wordCount, hc]
  | cons d cs ih =>
    rw [List.cons_append, wordStarts, wordStarts]
    split
    · exact ih false
    · rw [ih true, Nat.add_assoc]

theorem wordCount_append_cons (hc : isBlank c = true) (cs rest : List Char) :
    wordCount (cs ++ c :: rest) = wordCount cs + wordCount rest :=
  wordStarts_append_cons hc false cs rest

/-- A blank at the end of a text does not matter. A word ends there as it would at the end of the
text. -/
theorem wordCount_concat_blank (hc : isBlank c = true) (cs : List Char) :
    wordCount (cs ++ [c]) = wordCount cs := wordCount_append_cons hc cs []

/-! ### Sizes

Counts are written to files as numbers of 64 bits, so it matters that they are bounded by the size
of what was read. -/

theorem wordStarts_le (inWord : Bool) (cs : List Char) : wordStarts inWord cs ≤ cs.length := by
  induction cs generalizing inWord with
  | nil => exact Nat.le_refl _
  | cons c cs ih =>
    rw [wordStarts, List.length_cons]
    split
    · exact Nat.le_succ_of_le (ih false)
    · have hrest := ih true
      split <;> omega

theorem length_le_utf8ByteSize (s : String) : s.toList.length ≤ s.utf8ByteSize := by
  have hlen : ∀ cs : List Char, cs.length ≤ cs.utf8Encode.size := by
    intro cs
    induction cs with
    | nil => exact Nat.zero_le _
    | cons c cs ih =>
      have hc := c.utf8Size_pos
      have hsize : [c].utf8Encode.size = c.utf8Size := by
        rw [List.utf8Encode_singleton, List.size_toByteArray, String.length_utf8EncodeChar]
      rw [List.length_cons, List.utf8Encode_cons, ByteArray.size_append]
      omega
  calc s.toList.length ≤ s.toList.utf8Encode.size := hlen _
    _ = s.utf8ByteSize := by
      rw [← String.toByteArray_ofList, String.ofList_toList, String.size_toByteArray]

/-! ### Words of lines

The count is taken line by line and each line is stripped of its end first. Neither makes a
difference to the words, since ends of lines are blank and no word reaches across one. -/

/-- The end of a line is blank. So it makes no difference whether it is counted with the line. -/
theorem wordCount_lineText (line : List Char) : wordCount (lineText line) = wordCount line := by
  rw [lineText]
  split
  · rename_i rest hrest
    have hline : line = rest.reverse ++ ['\r'] ++ ['\n'] := by
      rw [← List.reverse_reverse line, hrest, List.reverse_cons, List.reverse_cons]
    rw [hline, wordCount_concat_blank (by decide), wordCount_concat_blank (by decide)]
  · rename_i rest _ hrest
    have hline : line = rest.reverse ++ ['\n'] := by
      rw [← List.reverse_reverse line, hrest, List.reverse_cons]
    rw [hline, wordCount_concat_blank (by decide)]
  · rfl

/-- The words of the first lines of a text, counted line by line, are those of their part of it. -/
theorem sum_wordCount_lines (k : Nat) (cs : List Char) :
    (((lines cs).take k).map wordCount).sum = wordCount (firstLines k cs) := by
  induction cs using linesInduction generalizing k with
  | nil =>
    rw [lines, firstLines, linesWithEnds, List.map_nil, List.take_nil]
    rfl
  | last cs hne h =>
    rw [lines, firstLines, linesWithEnds_of_not_mem hne h]
    cases k with
    | zero => rfl
    | succ k =>
      rw [List.map_singleton, List.take_succ_cons, List.take_nil, List.map_singleton,
        List.sum_singleton, wordCount_lineText, List.take_succ_cons, List.take_nil,
        List.flatten_singleton]
  | line cs rest h ih =>
    cases k with
    | zero => rfl
    | succ k =>
      rw [firstLines_append_cons h, wordCount_append_cons (by decide), ← ih, lines,
        linesWithEnds_append_cons h, List.map_cons, List.take_succ_cons, List.map_cons,
        List.sum_cons, wordCount_lineText, wordCount_concat_blank (by decide), ← lines]

end TypedPipeline.Text
