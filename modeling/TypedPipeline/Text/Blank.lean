/-!
# Blank characters, trimming and words

A character is blank when it has the Unicode property `White_Space`. Names are tested for being
blank, references are trimmed, and words are counted by this one class.

## Implementation notes

The class is listed as ranges of code points instead of being taken from a library, since ASCII
blanks are not enough: a name of a no-break space alone is blank, and an ideographic space divides
two words.

Words are counted in one pass that remembers whether the character before belonged to a word. No
list of words is built, and what a word is does not appear in the definition.

## Main definitions

* `Text.isBlank` — the class
* `Text.trim`, `Text.isBlankText` — a text without its blank ends; a text of blanks only
* `Text.wordCount` — how many words a text has
-/

namespace TypedPipeline.Text

/-- The ranges of code points with the property `White_Space`. -/
def blankRanges : List (Nat × Nat) :=
  [(0x9, 0xD), (0x20, 0x20), (0x85, 0x85), (0xA0, 0xA0), (0x1680, 0x1680), (0x2000, 0x200A),
    (0x2028, 0x2029), (0x202F, 0x202F), (0x205F, 0x205F), (0x3000, 0x3000)]

/-- Whether `c` has the property `White_Space`. -/
def isBlank (c : Char) : Bool :=
  blankRanges.any fun r => r.1 ≤ c.toNat && c.toNat ≤ r.2

/-- The characters without the blanks at both ends. -/
def trimChars (cs : List Char) : List Char :=
  ((cs.dropWhile isBlank).reverse.dropWhile isBlank).reverse

/-- The text without the blanks at both ends. -/
def trim (s : String) : String := String.ofList (trimChars s.toList)

/-- Whether nothing is left of the text when it is trimmed. The empty text is blank. -/
def isBlankText (s : String) : Bool := s.toList.all isBlank

/-- Counts the places where a word begins. `inWord` says whether the character before belongs to a
word. -/
def wordStarts (inWord : Bool) : List Char → Nat
  | [] => 0
  | c :: rest =>
    if isBlank c then wordStarts false rest
    else (if inWord then 0 else 1) + wordStarts true rest

/-- The number of words: maximal runs of characters that are not blank. -/
def wordCount (cs : List Char) : Nat := wordStarts false cs

end TypedPipeline.Text
