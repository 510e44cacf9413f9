import Mathlib.Data.List.Basic
import TypedPipeline.Text.Line

/-!
# Lines of a text

A text is cut into lines by reading it from its end. Here its lines are described by its line feeds:
there are as many as there are line feeds, and one more if something stands behind the last one. The
first lines of a text are the part of it that has that many lines and does not end within one.

## Implementation notes

`Closed` is the notion that makes texts fit together. Behind a closed text a line begins, so lines
of a closed text and of what follows it are simply put one after the other: counts add up
(`lineCount_append`) and the lists of lines are joined (`linesWithEnds_append`). Behind a text that
is not closed the first of the following lines goes on with its last one.

The recursion of the program cuts off characters, and statements about lines want to cut off lines.
`linesInduction` bridges the two and is proved once; every induction below uses it.

Empty lines count, but there is none behind a line feed at the end of a text. This is what the
second summand of `lineCount` says.

## Main definitions

* `Text.lineCount` — how many lines a text has
* `Text.IsFirstLines`, `Text.firstLines` — the part of a text that its first lines make up

## Main results

* `Text.linesInduction` — a text is a line with a text behind it
* `Text.length_linesWithEnds` — the lines are as many as there are
* `Text.isFirstLines_iff` — the first lines make up one part
-/

namespace TypedPipeline.Text

/-- No line is left open at the end of a text: it is empty or ends with a line feed. -/
def Closed (cs : List Char) : Prop := ∀ c, cs.getLast? = some c → c = '\n'

instance (cs : List Char) : Decidable (Closed cs) :=
  decidable_of_iff (cs.getLast?.all (· = '\n')) (by simp [Closed, Option.all_eq_true])

/-- The number of lines: one for each line feed, and one for what stands behind the last of them, if
anything does. -/
def lineCount (cs : List Char) : Nat := cs.count '\n' + if Closed cs then 0 else 1

/-- The part of a text that its first lines make up. -/
structure IsFirstLines (k : Nat) (cs part : List Char) : Prop where
  begins : part <+: cs
  count : lineCount part = k
  /-- The last line is not cut. -/
  closed : part = cs ∨ Closed part

variable {cs rest : List Char} {k : Nat}

theorem closed_nil : Closed [] := by
  intro c hc
  cases hc

theorem closed_concat (cs : List Char) : Closed (cs ++ ['\n']) := by
  intro c hc
  rw [List.getLast?_concat] at hc
  exact (Option.some.inj hc).symm

/-- Of texts without a line feed, only the empty one is closed. -/
theorem closed_iff_of_not_mem (h : '\n' ∉ cs) : Closed cs ↔ cs = [] := by
  constructor
  · intro hclosed
    cases hlast : cs.getLast? with
    | none => exact List.getLast?_eq_none_iff.mp hlast
    | some c =>
      obtain rfl := hclosed c hlast
      exact absurd (List.mem_of_getLast? hlast) h
  · rintro rfl
    exact closed_nil

theorem closed_append_iff (h : Closed cs) : Closed (cs ++ rest) ↔ Closed rest := by
  cases rest with
  | nil => simp [h, closed_nil]
  | cons c rest => rw [Closed, Closed, List.getLast?_append_of_ne_nil _ (List.cons_ne_nil c rest)]

theorem lineCount_append (h : Closed cs) (rest : List Char) :
    lineCount (cs ++ rest) = lineCount cs + lineCount rest := by
  simp only [lineCount, List.count_append, closed_append_iff h, h, if_true]
  omega

/-- A line feed ends a line. So the lines before and behind it can be counted by themselves. -/
theorem lineCount_append_cons (h : '\n' ∉ cs) (rest : List Char) :
    lineCount (cs ++ '\n' :: rest) = lineCount rest + 1 := by
  have hone : lineCount (cs ++ ['\n']) = 1 := by
    simp [lineCount, closed_concat, List.count_eq_zero_of_not_mem h]
  rw [List.append_cons, lineCount_append (closed_concat cs), hone, Nat.add_comm]

/-- What has no line feed is one line, unless it is empty. The empty text has no line. -/
theorem lineCount_of_not_mem (hne : cs ≠ []) (h : '\n' ∉ cs) : lineCount cs = 1 := by
  rw [lineCount, List.count_eq_zero_of_not_mem h, if_neg (mt (closed_iff_of_not_mem h).mp hne)]

/-! ### Line by line -/

/-- A text is empty, or a line without end, or a line with a text behind it. The three cases exclude
each other, since a line has no line feed and the middle case no empty text. -/
@[elab_as_elim]
theorem linesInduction {motive : List Char → Prop} (nil : motive [])
    (last : ∀ cs, cs ≠ [] → '\n' ∉ cs → motive cs)
    (line : ∀ cs rest, '\n' ∉ cs → motive rest → motive (cs ++ '\n' :: rest)) (cs : List Char) :
    motive cs := by
  -- what has been read of a line is carried along
  have hfront : ∀ front, '\n' ∉ front → motive (front ++ cs) := by
    induction cs with
    | nil =>
      intro front hfront
      rw [List.append_nil]
      by_cases hne : front = []
      · rw [hne]
        exact nil
      · exact last front hne hfront
    | cons c cs ih =>
      intro front hfront
      by_cases hc : c = '\n'
      · rw [hc]
        exact line front cs hfront (ih [] List.not_mem_nil)
      · rw [List.append_cons]
        exact ih (front ++ [c]) (by simp [hfront, Ne.symm hc])
  exact hfront [] List.not_mem_nil

theorem lineCount_le (cs : List Char) : lineCount cs ≤ cs.length := by
  induction cs using linesInduction with
  | nil => exact Nat.le_refl _
  | last cs hne h =>
    rw [lineCount_of_not_mem hne h]
    exact List.length_pos_of_ne_nil hne
  | line cs rest h ih =>
    rw [lineCount_append_cons h, List.length_append, List.length_cons]
    omega

theorem linesWithEnds_append_cons (h : '\n' ∉ cs) (rest : List Char) :
    linesWithEnds (cs ++ '\n' :: rest) = (cs ++ ['\n']) :: linesWithEnds rest := by
  induction cs with
  | nil => rfl
  | cons c cs ih =>
    rw [List.mem_cons, not_or] at h
    rw [List.cons_append, linesWithEnds, if_neg (Ne.symm h.1), ih h.2]
    rfl

theorem linesWithEnds_of_not_mem (hne : cs ≠ []) (h : '\n' ∉ cs) : linesWithEnds cs = [cs] := by
  induction cs with
  | nil => exact absurd rfl hne
  | cons c cs ih =>
    rw [List.mem_cons, not_or] at h
    rw [linesWithEnds, if_neg (Ne.symm h.1)]
    cases cs with
    | nil => rfl
    | cons d cs => rw [ih (List.cons_ne_nil d cs) h.2]

/-- There are as many lines as the line feeds tell. -/
theorem length_linesWithEnds (cs : List Char) : (linesWithEnds cs).length = lineCount cs := by
  induction cs using linesInduction with
  | nil => rfl
  | last cs hne h => rw [linesWithEnds_of_not_mem hne h, lineCount_of_not_mem hne h]; rfl
  | line cs rest h ih =>
    rw [linesWithEnds_append_cons h, List.length_cons, ih, lineCount_append_cons h]

/-- The lines of a text that is not left open are not changed by what stands behind it. -/
theorem linesWithEnds_append (hclosed : Closed cs) (rest : List Char) :
    linesWithEnds (cs ++ rest) = linesWithEnds cs ++ linesWithEnds rest := by
  induction cs using linesInduction with
  | nil => rfl
  | last cs hne h => exact absurd ((closed_iff_of_not_mem h).mp hclosed) hne
  | line cs behind h ih =>
    rw [List.append_cons, closed_append_iff (closed_concat cs)] at hclosed
    rw [List.append_assoc, List.cons_append, linesWithEnds_append_cons h,
      linesWithEnds_append_cons h, ih hclosed, List.cons_append]

/-! ### First lines

The first `k` lines are a prefix of the text. The definition takes them from the list of lines, and
the predicate describes the prefix without that list. -/

/-- The part of a text that its first lines make up. -/
def firstLines (k : Nat) (cs : List Char) : List Char := ((linesWithEnds cs).take k).flatten

theorem isPrefix_firstLines (k : Nat) (cs : List Char) : firstLines k cs <+: cs := by
  refine ⟨((linesWithEnds cs).drop k).flatten, ?_⟩
  rw [firstLines, ← List.flatten_append, List.take_append_drop, flatten_linesWithEnds]

theorem firstLines_append_cons (h : '\n' ∉ cs) (k : Nat) (rest : List Char) :
    firstLines (k + 1) (cs ++ '\n' :: rest) = cs ++ '\n' :: firstLines k rest := by
  rw [firstLines, linesWithEnds_append_cons h, List.take_succ_cons, List.flatten_cons, ← firstLines,
    List.append_assoc, List.singleton_append]

theorem firstLines_eq_self (h : lineCount cs ≤ k) : firstLines k cs = cs := by
  rw [firstLines, List.take_of_length_le (by rwa [length_linesWithEnds]), flatten_linesWithEnds]

/-- More lines than there are make up the whole text. -/
theorem firstLines_min (k : Nat) (cs : List Char) :
    firstLines (min (lineCount cs) k) cs = firstLines k cs := by
  rcases Nat.le_total (lineCount cs) k with h | h
  · rw [Nat.min_eq_left h, firstLines_eq_self (Nat.le_refl _), firstLines_eq_self h]
  · rw [Nat.min_eq_right h]

theorem lineCount_firstLines (h : k ≤ lineCount cs) : lineCount (firstLines k cs) = k := by
  induction cs using linesInduction generalizing k with
  | nil =>
    rw [Nat.le_zero.mp h]
    rfl
  | last cs hne hmem =>
    have hone := lineCount_of_not_mem hne hmem
    rw [hone] at h
    rcases Nat.le_one_iff_eq_zero_or_eq_one.mp h with rfl | rfl
    · rfl
    · rw [firstLines_eq_self (Nat.le_of_eq hone), hone]
  | line cs rest hmem ih =>
    cases k with
    | zero => rfl
    | succ k =>
      rw [lineCount_append_cons hmem, Nat.add_le_add_iff_right] at h
      rw [firstLines_append_cons hmem, lineCount_append_cons hmem, ih h]

/-- Fewer lines than there are do not end within a line. The line feed of the last one belongs to
them. -/
theorem closed_firstLines (h : k < lineCount cs) : Closed (firstLines k cs) := by
  induction cs using linesInduction generalizing k with
  | nil => exact absurd h (Nat.not_lt_zero k)
  | last cs hne hmem =>
    rw [lineCount_of_not_mem hne hmem, Nat.lt_one_iff] at h
    rw [h]
    exact closed_nil
  | line cs rest hmem ih =>
    cases k with
    | zero => exact closed_nil
    | succ k =>
      rw [lineCount_append_cons hmem, Nat.add_lt_add_iff_right] at h
      rw [firstLines_append_cons hmem, List.append_cons, closed_append_iff (closed_concat cs)]
      exact ih h

/-- There is one part of a text that its first lines make up, if there are so many. So it is right
to speak of the part. -/
theorem isFirstLines_iff {part : List Char} :
    IsFirstLines k cs part ↔ k ≤ lineCount cs ∧ part = firstLines k cs := by
  constructor
  · rintro ⟨hbegins, rfl, rfl | hclosed⟩
    · exact ⟨Nat.le_refl _, (firstLines_eq_self (Nat.le_refl _)).symm⟩
    · obtain ⟨rest, rfl⟩ := hbegins
      rw [lineCount_append hclosed, firstLines, linesWithEnds_append hclosed,
        ← length_linesWithEnds part, List.take_left, flatten_linesWithEnds]
      exact ⟨Nat.le_add_right _ _, rfl⟩
  · rintro ⟨hk, rfl⟩
    refine ⟨isPrefix_firstLines k cs, lineCount_firstLines hk, ?_⟩
    rcases Nat.lt_or_eq_of_le hk with hlt | rfl
    · exact .inr (closed_firstLines hlt)
    · exact .inl (firstLines_eq_self (Nat.le_refl _))

end TypedPipeline.Text
