/-!
# Cutting a text at a separator

A text is read from its end. The empty text is one empty piece; a separator opens a new piece in
front of those behind it, and any other character goes to the front of the first one. So pieces may
be empty, at the ends as well as between two separators, and there is always at least one.

Joining puts separators between the parts only. It does not look into them, so parts that hold the
separator are not found again by cutting.

## Main definitions

* `Text.pieces` — the pieces between the separators; one more than there are separators
* `Text.joinWith` — the pieces joined again

## Main results

* `Text.joinWith_pieces` — joining undoes cutting
-/

namespace TypedPipeline.Text

/-- The pieces of a text between the occurrences of `sep`. The empty text is one empty piece. -/
def pieces (sep : Char) : List Char → List (List Char)
  | [] => [[]]
  | c :: rest =>
    if c = sep then [] :: pieces sep rest
    else
      match pieces sep rest with
      | [] => [[c]]
      | piece :: others => (c :: piece) :: others

/-- The pieces one after the other, with `sep` between them. -/
def joinWith (sep : Char) : List (List Char) → List Char
  | [] => []
  | [piece] => piece
  | piece :: others => piece ++ sep :: joinWith sep others

/-- There is always a piece, which is why the second case of the inner match of `pieces` is the one
that happens. -/
theorem pieces_ne_nil (sep : Char) (cs : List Char) : pieces sep cs ≠ [] := by
  cases cs with
  | nil => simp [pieces]
  | cons c rest =>
    simp only [pieces]
    split
    · simp
    · split <;> simp

theorem joinWith_cons_cons (sep c : Char) (piece : List Char) (others : List (List Char)) :
    joinWith sep ((c :: piece) :: others) = c :: joinWith sep (piece :: others) := by
  cases others <;> simp [joinWith]

/-- Joining undoes cutting. -/
theorem joinWith_pieces (sep : Char) (cs : List Char) : joinWith sep (pieces sep cs) = cs := by
  induction cs with
  | nil => rfl
  | cons c rest ih =>
    simp only [pieces]
    split
    · rename_i h
      cases hp : pieces sep rest with
      | nil => exact absurd hp (pieces_ne_nil sep rest)
      | cons piece others =>
        rw [hp] at ih
        simp [joinWith, ih, h]
    · split
      · rename_i h; exact absurd h (pieces_ne_nil sep rest)
      · rename_i h
        rw [h] at ih
        rw [joinWith_cons_cons, ih]

/-- The pieces of a text, as texts. -/
def splitText (sep : Char) (s : String) : List String := (pieces sep s.toList).map String.ofList

end TypedPipeline.Text
