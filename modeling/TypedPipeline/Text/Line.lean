/-!
# Lines of a text

A line ends with a line feed, which belongs to it; the last line may lack one. The text of a line
leaves out the line feed and one carriage return before it.

## Implementation notes

Lines are kept with their ends, and the ends are taken off in a second step. So a text that ends
with a line feed is told apart from one that does not, and it has no empty line behind the last line
feed. A carriage return ends a line only together with the line feed behind it; anywhere else it is
a character of the line, and so is the one at the very end of a text.

## Main definitions

* `Text.linesWithEnds` — the lines, with their ends
* `Text.lineText` — a line without its end
* `Text.lines` — the texts of the lines

## Main results

* `Text.flatten_linesWithEnds` — the lines with their ends are the whole text
-/

namespace TypedPipeline.Text

/-- The lines of a text, each with its line end. -/
def linesWithEnds : List Char → List (List Char)
  | [] => []
  | c :: rest =>
    if c = '\n' then ['\n'] :: linesWithEnds rest
    else
      match linesWithEnds rest with
      | [] => [[c]]
      | line :: others => (c :: line) :: others

/-- Nothing is lost when a text is cut into lines. -/
theorem flatten_linesWithEnds (cs : List Char) : (linesWithEnds cs).flatten = cs := by
  induction cs with
  | nil => rfl
  | cons c rest ih =>
    simp only [linesWithEnds]
    split
    · rename_i h; simp [h, ih]
    · split
      · rename_i h; rw [h] at ih; simpa using ih
      · rename_i h; rw [h] at ih; simpa using ih

/-- A line without its end: without a final line feed and one carriage return before that. A line
without line feed is left as it is. -/
def lineText (line : List Char) : List Char :=
  match line.reverse with
  | '\n' :: '\r' :: rest => rest.reverse
  | '\n' :: rest => rest.reverse
  | _ => line

/-- The texts of the lines. -/
def lines (cs : List Char) : List (List Char) := (linesWithEnds cs).map lineText

end TypedPipeline.Text
