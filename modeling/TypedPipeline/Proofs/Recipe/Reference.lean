import Mathlib.Data.List.TakeWhile
import TypedPipeline.Recipe.Reference

/-!
# What references say

A text without blanks at its ends is a reference to an input if it has no point, and one to an
output if it has one point that is neither its first character nor its last one.

Reading a reference is a matter of its text alone. What it means in a recipe, and whether it means
anything, is decided later, by looking the names up.

## Main definitions

* `Reference.NamesInput`, `Reference.NamesOutput` — the two kinds of texts

## Main results

* `Reference.ofText?_input_iff`, `Reference.ofText?_output_iff` — they are what is read
-/

namespace TypedPipeline.Reference

/-- Without the blanks at its ends, a text is a name that is not empty and has no point. -/
def NamesInput (s name : String) : Prop := Text.trim s = name ∧ name ≠ "" ∧ '.' ∉ name.toList

/-- Without the blanks at its ends, a text is two names with a point between them; none of them is
empty or has a point. -/
def NamesOutput (s component output : String) : Prop :=
  Text.trim s = component ++ "." ++ output ∧
    (component ≠ "" ∧ '.' ∉ component.toList) ∧ output ≠ "" ∧ '.' ∉ output.toList

instance {s name : String} : Decidable (NamesInput s name) :=
  inferInstanceAs (Decidable (_ ∧ _ ∧ _))

instance {s component output : String} : Decidable (NamesOutput s component output) :=
  inferInstanceAs (Decidable (_ ∧ (_ ∧ _) ∧ _ ∧ _))

variable {cs before behind : List Char}

theorem ofChars?_of_not_mem (h : '.' ∉ cs) :
    ofChars? cs = if cs.isEmpty then none else some (.input (String.ofList cs)) := by
  have hall : ∀ c ∈ cs, (c != '.') = true := by
    intro c hc
    simp only [bne_iff_ne, ne_eq]
    rintro rfl
    exact h hc
  have htake : cs.takeWhile (· != '.') = cs := List.takeWhile_eq_self_iff.mpr hall
  have hdrop : cs.dropWhile (· != '.') = [] := List.dropWhile_eq_nil_iff.mpr hall
  rw [ofChars?, htake, hdrop]

theorem ofChars?_append (h : '.' ∉ before) :
    ofChars? (before ++ '.' :: behind) =
      if before.isEmpty || behind.isEmpty || behind.contains '.' then none
      else some (.output (String.ofList before) (String.ofList behind)) := by
  have hall : ∀ c ∈ before, (c != '.') = true := by
    intro c hc
    simp only [bne_iff_ne, ne_eq]
    rintro rfl
    exact h hc
  have htake : (before ++ '.' :: behind).takeWhile (· != '.') = before := by
    rw [List.takeWhile_append_of_pos hall]
    simp
  have hdrop : (before ++ '.' :: behind).dropWhile (· != '.') = '.' :: behind := by
    rw [List.dropWhile_append_of_pos hall]
    simp
  rw [ofChars?, htake, hdrop]

/-- A reference to an input is a text without point. -/
theorem ofText?_input_iff {s name : String} :
    ofText? s = some (.input name) ↔ NamesInput s name := by
  rw [ofText?, NamesInput, Text.trim]
  generalize Text.trimChars s.toList = cs
  by_cases hpoint : '.' ∈ cs
  · obtain ⟨before, behind, rfl, hbefore⟩ := List.eq_append_cons_of_mem hpoint
    rw [ofChars?_append hbefore]
    constructor
    · intro h
      split at h <;> cases h
    · rintro ⟨rfl, -, hnone⟩
      simp at hnone
  · rw [ofChars?_of_not_mem hpoint]
    constructor
    · intro h
      split at h
      · cases h
      · rename_i hempty
        cases h
        exact ⟨rfl, by simpa using hempty, by simpa using hpoint⟩
    · rintro ⟨rfl, hempty, -⟩
      rw [if_neg (by simpa using hempty)]

/-- A reference to an output is a text with one point inside it. The two names may have any
characters but points, so a name that no component can have is read as well and is found to be
unknown later. -/
theorem ofText?_output_iff {s component output : String} :
    ofText? s = some (.output component output) ↔ NamesOutput s component output := by
  rw [ofText?, NamesOutput, Text.trim]
  generalize Text.trimChars s.toList = cs
  constructor
  · intro h
    by_cases hpoint : '.' ∈ cs
    · obtain ⟨before, behind, rfl, hbefore⟩ := List.eq_append_cons_of_mem hpoint
      rw [ofChars?_append hbefore] at h
      split at h
      · cases h
      · rename_i hsides
        cases h
        simp only [Bool.or_eq_true, not_or, List.isEmpty_iff, List.contains_iff_mem] at hsides
        refine ⟨?_, ⟨by simpa using hsides.1.1, by simpa using hbefore⟩,
          by simpa using hsides.1.2, by simpa using hsides.2⟩
        exact String.toList_injective (by simp)
    · rw [ofChars?_of_not_mem hpoint] at h
      split at h <;> cases h
  · rintro ⟨htext, ⟨hcomponent, hbefore⟩, houtput, hbehind⟩
    have hcs : cs = component.toList ++ '.' :: output.toList := by
      have := congrArg String.toList htext
      simpa using this
    rw [hcs, ofChars?_append hbefore, if_neg]
    · simp
    · simpa [hcomponent, houtput] using hbehind

end TypedPipeline.Reference
