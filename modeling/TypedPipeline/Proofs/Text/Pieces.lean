import TypedPipeline.Proofs.Text.Words
import TypedPipeline.Text.Pieces

/-!
# Pieces of a text

A text is cut at every occurrence of a separator. Cutting goes through the text from its end and
puts one character after the other in front of the first piece; here a piece is described by the
place at which it stands, as a part of the text without a separator that a separator or an end of
the text bounds on both sides.

Joining undoes cutting, whatever the text is. Cutting undoes joining only if there is a part to
begin with, since no text is cut into nothing, and if the separator is in none of the parts.

## Implementation notes

Places are the ones by which words are described too (`Text.Place`), with another condition on the
characters at the two sides and in between. Pieces may be empty, so two places can hold the same
empty piece; words never do.

The two directions of `mem_pieces_iff` are proved in different ways. That a piece is found goes by
`pieces_append_cons`, with the separators at its sides as the places where the text is divided. That
a piece that is found has a place goes along the recursion.

## Main definitions

* `Text.Place.IsPiece` — at the place there is a piece

## Main results

* `Text.pieces_append_cons` — a separator divides the pieces of a text
* `Text.pieces_joinWith` — parts without separators are found again
* `Text.mem_pieces_iff` — the pieces are what stands at the places of pieces
-/

namespace TypedPipeline.Text

variable {sep : Char} {cs piece : List Char}

/-! ### Cutting and joining -/

/-- A separator divides a text: the pieces are those before it and those behind it. -/
theorem pieces_append_cons (before behind : List Char) :
    pieces sep (before ++ sep :: behind) = pieces sep before ++ pieces sep behind := by
  induction before with
  | nil => simp [pieces]
  | cons c before ih =>
    rw [List.cons_append, pieces, pieces, ih]
    by_cases hc : c = sep
    · simp [hc]
    · cases hpieces : pieces sep before with
      | nil => exact absurd hpieces (pieces_ne_nil sep before)
      | cons first others => simp [hc]

theorem pieces_of_not_mem (h : sep ∉ cs) : pieces sep cs = [cs] := by
  induction cs with
  | nil => rfl
  | cons c cs ih =>
    rw [List.mem_cons, not_or] at h
    rw [pieces, if_neg (Ne.symm h.1), ih h.2]

theorem not_mem_of_mem_pieces (h : piece ∈ pieces sep cs) : sep ∉ piece := by
  induction cs generalizing piece with
  | nil => simp [List.mem_singleton.mp h]
  | cons c cs ih =>
    rw [pieces] at h
    by_cases hc : c = sep
    · rw [if_pos hc] at h
      rcases List.mem_cons.mp h with rfl | h
      · exact List.not_mem_nil
      · exact ih h
    · rw [if_neg hc] at h
      cases hpieces : pieces sep cs with
      | nil => exact absurd hpieces (pieces_ne_nil sep cs)
      | cons first others =>
        rw [hpieces] at h ih
        rcases List.mem_cons.mp h with rfl | h
        · exact List.not_mem_cons_of_ne_of_not_mem (Ne.symm hc) (ih List.mem_cons_self)
        · exact ih (List.mem_cons_of_mem _ h)

theorem joinWith_cons (part : List Char) {parts : List (List Char)} (h : parts ≠ []) :
    joinWith sep (part :: parts) = part ++ sep :: joinWith sep parts := by
  cases parts with
  | nil => exact absurd rfl h
  | cons next parts => rfl

/-- Where two lists of parts meet, there is a separator. Neither list may be empty. -/
theorem joinWith_append {parts others : List (List Char)} (hparts : parts ≠ [])
    (hothers : others ≠ []) :
    joinWith sep (parts ++ others) = joinWith sep parts ++ sep :: joinWith sep others := by
  induction parts with
  | nil => exact absurd rfl hparts
  | cons part parts ih =>
    by_cases hrest : parts = []
    · rw [hrest, List.singleton_append, joinWith_cons part hothers]
      rfl
    · rw [List.cons_append, joinWith_cons part (List.append_ne_nil_of_left_ne_nil hrest others),
        ih hrest, joinWith_cons part hrest, List.append_assoc, List.cons_append]

/-- Cutting undoes joining, if there are parts and none of them has a separator. Both conditions are
needed: no text is cut into nothing, and a part with a separator would come out as two. -/
theorem pieces_joinWith {parts : List (List Char)} (hne : parts ≠ [])
    (h : ∀ part ∈ parts, sep ∉ part) : pieces sep (joinWith sep parts) = parts := by
  induction parts with
  | nil => exact absurd rfl hne
  | cons part parts ih =>
    rw [List.forall_mem_cons] at h
    by_cases hrest : parts = []
    · rw [hrest]
      exact pieces_of_not_mem h.1
    · rw [joinWith_cons part hrest, pieces_append_cons, pieces_of_not_mem h.1, ih hrest h.2,
        List.singleton_append]

theorem joinWith_ne_nil {part : List Char} (h : part ≠ []) (others : List (List Char)) :
    joinWith sep (part :: others) ≠ [] := by
  cases others <;> simp [joinWith, h]

/-! ### Places of pieces

This description does not say in which order the pieces come, and it is not needed where lists of
names are read: there only membership matters. -/

/-- At the place there is a piece: no separator is in it, and on both of its sides there is one or
an end of the text. -/
structure Place.IsPiece (sep : Char) (p : Place) (cs : List Char) : Prop where
  whole : p.before ++ p.run ++ p.behind = cs
  solid : sep ∉ p.run
  left : ∀ c, p.before.getLast? = some c → c = sep
  right : ∀ c, p.behind.head? = some c → c = sep

/-- What stands at the place of a piece is found when the text is cut. -/
theorem Place.IsPiece.mem_pieces {p : Place} (h : p.IsPiece sep cs) : p.run ∈ pieces sep cs := by
  obtain ⟨before, run, behind⟩ := p
  obtain ⟨rfl, hsolid, hleft, hright⟩ := h
  -- first the text behind is cut off, then the text before
  have hfirst : run ∈ pieces sep (run ++ behind) := by
    cases behind with
    | nil => simp [pieces_of_not_mem hsolid]
    | cons c behind =>
      obtain rfl := hright c rfl
      simp [pieces_append_cons, pieces_of_not_mem hsolid]
  rcases List.eq_nil_or_concat before with rfl | ⟨before, c, rfl⟩
  · exact hfirst
  · obtain rfl := hleft c (by simp)
    simpa [pieces_append_cons] using .inr hfirst

/-- What is found when a text is cut stands at the place of a piece. -/
theorem exists_isPiece_of_mem (h : piece ∈ pieces sep cs) :
    ∃ p : Place, p.IsPiece sep cs ∧ p.run = piece := by
  obtain ⟨before, behind, hpieces⟩ := List.append_of_mem h
  obtain ⟨front, hfront, hleft⟩ : ∃ front, joinWith sep (before ++ piece :: behind) =
      front ++ joinWith sep (piece :: behind) ∧ ∀ c, front.getLast? = some c → c = sep := by
    by_cases hbefore : before = []
    · exact ⟨[], by rw [hbefore]; rfl, by simp⟩
    · exact ⟨joinWith sep before ++ [sep],
        by rw [joinWith_append hbefore (List.cons_ne_nil _ _), List.append_cons], by simp⟩
  obtain ⟨rear, hrear, hright⟩ : ∃ rear, joinWith sep (piece :: behind) = piece ++ rear ∧
      ∀ c, rear.head? = some c → c = sep := by
    by_cases hbehind : behind = []
    · exact ⟨[], by rw [hbehind, List.append_nil]; rfl, by simp⟩
    · exact ⟨sep :: joinWith sep behind, joinWith_cons piece hbehind, by simp⟩
  refine ⟨⟨front, piece, rear⟩, ⟨?_, not_mem_of_mem_pieces h, hleft, hright⟩, rfl⟩
  rw [List.append_assoc, ← hrear, ← hfront, ← hpieces, joinWith_pieces]

/-- The pieces of a text are what stands at the places of pieces. -/
theorem mem_pieces_iff : piece ∈ pieces sep cs ↔ ∃ p : Place, p.IsPiece sep cs ∧ p.run = piece := by
  constructor
  · exact exists_isPiece_of_mem
  · rintro ⟨p, hp, rfl⟩
    exact hp.mem_pieces

end TypedPipeline.Text
