import TypedPipeline.Fault
import TypedPipeline.Host
import TypedPipeline.Path
import TypedPipeline.Text.Pieces

/-!
# Patterns for paths

In a part of a pattern `?` stands for one character, `*` for any characters, `[…]` for one character
of a set and `[!…]` for one character outside of it. The part `**` stands for any number of
directories, and must not be mixed with anything else. A name that begins with a point is matched
like any other.

## Implementation notes

A pattern is read in two ways. Its pieces are scanned as one text, which finds its flaws and their
places. Then the text is cut at slashes, and each part is scanned by itself and compared with names.
So a flaw is found before any directory is looked at.

Whether a part stands for a name is decided by recursion over the part. A star tries all ends of the
name.

What is found in a directory is put in order by names, and the results of subdirectories stand where
these stand. Directories that cannot be listed end the search with a failure. A name that a pattern
spells out is looked up and not searched for, so its directory need not be listed.

## Main definitions

* `Glob.Part`, `Glob.Part.accepts` — a part of a pattern, and the names that it stands for
* `Glob.Pattern.ofText` — the pattern that a text describes, or why there is none
* `Glob.find` — the paths that fit a pattern, in the order of their names
-/

namespace TypedPipeline.Glob

/-! ### Patterns

Brackets, stars and question marks are special, and there is no escape for them. A bracket that
stands alone can be written as a set of one character. -/

/-- A piece of a pattern. -/
inductive Token where
  | char (c : Char)
  | anyChar
  | anyText
  /-- Any number of directories. -/
  | directories
  /-- One character of a set, which is given by its ranges. -/
  | oneOf (ranges : List (Char × Char))
  /-- One character outside of a set. -/
  | noneOf (ranges : List (Char × Char))
deriving DecidableEq

/-- Why a text is no pattern. -/
inductive Flaw where
  | wildcards
  | recursion
  | range
deriving DecidableEq

/-- The text of a flaw. -/
def Flaw.message : Flaw → String
  | wildcards => "wildcards are either regular `*` or recursive `**`"
  | recursion => "recursive wildcards must form a single path component"
  | range => "invalid range pattern"

/-- A flaw and its place in the text. -/
structure PatternError where
  position : Nat
  flaw : Flaw
deriving DecidableEq

/-- The text of a failure. -/
def PatternError.message (e : PatternError) : String :=
  s!"Pattern syntax error near position {e.position}: {e.flaw.message}"

/-- The ranges of a set: `a-z` is a range, any other character is a range of its own. -/
def ranges : List Char → List (Char × Char)
  | a :: '-' :: z :: rest => (a, z) :: ranges rest
  | c :: rest => (c, c) :: ranges rest
  | [] => []

/-- Cuts a text behind the next closing bracket; `first` belongs to the set whatever it is. -/
def closeSet (first : Char) (cs : List Char) : Option (List Char × List Char) :=
  match cs.dropWhile (· != ']') with
  | [] => none
  | _ :: rest => some (first :: cs.takeWhile (· != ']'), rest)

/-- The set that begins behind an opening bracket, and the text behind it. -/
def set? : List Char → Option (Token × List Char)
  | '!' :: first :: cs => (closeSet first cs).map fun r => (.noneOf (ranges r.1), r.2)
  | ['!'] => none
  | first :: cs => (closeSet first cs).map fun r => (.oneOf (ranges r.1), r.2)
  | [] => none

/-- Cuts off stars: whether they stand for text or for directories, and how many characters are
done. A slash behind two stars belongs to them. -/
def stars (position : Nat) (before : Option Char) (count : Nat) (rest : List Char) :
    Except PatternError (Token × Nat) :=
  if 2 < count then .error ⟨position + 2, .wildcards⟩
  else if count < 2 then .ok (.anyText, 1)
  else if before.getD '/' != '/' then .error ⟨position - 1, .recursion⟩
  else
    match rest with
    | [] => .ok (.directories, 2)
    | '/' :: _ => .ok (.directories, 3)
    | _ => .error ⟨position + 2, .recursion⟩

/-- The pieces of a text. `position` counts the characters before it, and `before` is the last of
them. Each step takes at least one character, so as much fuel as there are characters is enough. -/
def scan : Nat → Nat → Option Char → List Char → Except PatternError (List Token)
  | 0, _, _, _ => .ok []
  | _ + 1, _, _, [] => .ok []
  | fuel + 1, position, before, c :: cs =>
    let next (t : Token) (count : Nat) : Except PatternError (List Token) := do
      let rest := (c :: cs).drop count
      .ok (t :: (← scan fuel (position + count) ((c :: cs)[count - 1]?) rest))
    match c with
    | '?' => next .anyChar 1
    | '*' => do
      let count := ((c :: cs).takeWhile (· == '*')).length
      let (t, count) ← stars position before count (cs.drop (count - 1))
      next t count
    | '[' =>
      match set? cs with
      | some (t, rest) => next t (cs.length + 1 - rest.length)
      | none => .error ⟨position, .range⟩
    | c => next (.char c) 1

/-- The pieces of a text, or its first flaw. -/
def tokens (s : String) : Except PatternError (List Token) :=
  scan s.length 0 none s.toList

/-! ### Names

A star stands for any characters of one name, also for none. It never stands for a slash, since
names have none. -/

/-- Whether a piece stands for a character. -/
def Token.acceptsChar (c : Char) : Token → Bool
  | char d => c == d
  | anyChar => true
  | oneOf ranges => ranges.any fun r => r.1 ≤ c && c ≤ r.2
  | noneOf ranges => !ranges.any fun r => r.1 ≤ c && c ≤ r.2
  | anyText => false
  | directories => false

/-- Whether something holds of an end of a list. -/
def anySuffix (p : List Char → Bool) : List Char → Bool
  | [] => p []
  | c :: cs => p (c :: cs) || anySuffix p cs

/-- A part of a pattern, between two slashes. -/
abbrev Part := List Token

namespace Part

/-- Whether a part stands for a name. -/
def accepts : Part → List Char → Bool
  | [], cs => cs.isEmpty
  | t :: ts, cs =>
    if t = .anyText ∨ t = .directories then anySuffix (accepts ts) cs
    else
      match cs with
      | [] => false
      | c :: cs => t.acceptsChar c && accepts ts cs

/-- Whether a part stands for directories. -/
def isRecursive (p : Part) : Bool := p.contains .directories

/-- The only name that a part without wildcards stands for. -/
def literal? (p : Part) : Option String :=
  (p.mapM fun (t : Token) =>
    match t with
    | .char c => some c
    | _ => none).map String.ofList

end Part

/-- A pattern for paths. -/
structure Pattern where
  /-- Where the search begins. -/
  start : String
  parts : List Part
  /-- Whether only directories fit. -/
  directoriesOnly : Bool

/-- The parts of a text between slashes; a slash at the end ends the last part. -/
def partTexts (s : String) : List String :=
  match (Text.splitText '/' s).reverse with
  | "" :: rest => rest.reverse
  | parts => parts.reverse

/-- The pattern that a text describes, or its first flaw. -/
def Pattern.ofText (s : String) : Except PatternError Pattern := do
  let _ ← tokens s
  let root := String.ofList (s.toList.takeWhile (· == '/'))
  let rest := String.ofList (s.toList.dropWhile (· == '/'))
  let texts := if rest.isEmpty then [""] else partTexts rest
  .ok {
    start := if root.isEmpty then "." else root
    parts := ← texts.mapM tokens
    directoriesOnly := s.endsWith "/" }

/-! ### Files

The search goes through the parts from left to right. Where the pattern has no wildcards, there is
one place to go on from, and otherwise one for each name that fits. -/

/-- Something that was found. -/
structure Found where
  path : String
  isDirectory : Bool

/-- Whether a path leads to the working directory by points alone. -/
def isCurrent (path : String) : Bool :=
  !path.isEmpty && !path.startsWith "/" &&
    (Text.splitText '/' path).all fun s => s.isEmpty || s == "."

/-- The path of a name in a directory; the working directory is left out. -/
def below (directory name : String) : String :=
  if isCurrent directory then name else Path.join directory name

variable {m : Type → Type} [Monad m] (host : Host m)

/-- What is at a path, if anything is. -/
def look (path : String) : m (Option Found) := do
  let isDirectory : Bool ← host (.isDirectory path)
  let isFile : Bool ← host (.isFile path)
  pure (if isDirectory || isFile then some ⟨path, isDirectory⟩ else none)

/-- The names in a directory, in order. -/
def names (directory : String) : ExceptT Fault m (List String) := do
  match ← (host (.list directory) : m (Except IoError (List String))) with
  | .ok names => pure (names.mergeSort fun a b => !decide (b < a))
  | .error e =>
    throw (.sentence (s!"attempting to read `{directory}` resulted in an error: " ++ e.message))

/-- What fits the parts of a pattern from a place on. `fuel` bounds the number of names in a path;
there cannot be more than the system allows. -/
def expand (directoriesOnly : Bool) : Nat → List Part → Found → ExceptT Fault m (List String)
  | 0, _, _ => pure []
  | _ + 1, [], _ => pure []
  | fuel + 1, part :: parts, place =>
    let reach (parts : List Part) (f : Found) : ExceptT Fault m (List String) :=
      if parts.isEmpty then pure (if directoriesOnly && !f.isDirectory then [] else [f.path])
      else expand directoriesOnly fuel parts f
    match part.literal? with
    | some name => do
      let special := name == "." || name == ".."
      match ← (look host (below place.path name) : m (Option Found)) with
      | some f => if special && !place.isDirectory then pure [] else reach parts f
      | none => pure []
    | none =>
      if !place.isDirectory then pure []
      else do
        let fits (name : String) (f : Found) : List Part → ExceptT Fault m (List String)
          | [] => pure []
          | part :: parts => if part.accepts name.toList then reach parts f else pure []
        let visit (name : String) : ExceptT Fault m (List String) := do
          let path := below place.path name
          let f : Found := ⟨path, ← (host (.isDirectory path) : m Bool)⟩
          if part.isRecursive then
            let rest := parts.dropWhile Part.isRecursive
            if f.isDirectory then do
              let here ← if rest.isEmpty then pure [path] else fits name f rest
              let inside ← expand directoriesOnly fuel (part :: rest) f
              pure (here ++ inside)
            else fits name f rest
          else fits name f (part :: parts)
        let point (name : String) : ExceptT Fault m (List String) :=
          if part.head? = some (.char '.') && part.accepts name.toList then
            reach parts ⟨Path.join place.path name, true⟩
          else pure []
        let children ← (← names host place.path).mapM visit
        pure ((← point "..") ++ (← point ".") ++ children.flatten)

/-- The greatest number of names in a path. -/
def depthLimit : Nat := 4096

/-- The paths that fit a pattern, in the order of their names. -/
def find (pattern : Pattern) : ExceptT Fault m (List String) := do
  match ← (look host pattern.start : m (Option Found)) with
  | some f => expand host pattern.directoriesOnly depthLimit pattern.parts f
  | none => pure []

end TypedPipeline.Glob
