import TypedPipeline.Text.Pieces

/-!
# Paths

A path is a text of names between slashes. A point alone stands for the directory itself, two points
for the one above; points alone count only at the very beginning of a relative path.

## Implementation notes

Paths are read from their end, where slashes and points alone are passed over. The functions are
about texts, and nobody asks whether anything is there. Two points are a part like any other and are
not resolved.

## Main definitions

* `Path.fileName?` — the last name
* `Path.parent?` — the path without its last part
* `Path.join` — a path below another
-/

namespace TypedPipeline.Path

/-- Drops slashes and points alone from the end of a path. The path is given from its end. A slash
that is the whole path stays, and so does a point that is. -/
def dropTail : List Char → List Char
  | ['/'] => ['/']
  | '/' :: rest => dropTail rest
  | '.' :: '/' :: rest => dropTail ('/' :: rest)
  | cs => cs

/-- The last part of a path without its tail, from its end, and what stands before it. -/
def lastPart (p : String) : List Char × List Char :=
  let cs := dropTail p.toList.reverse
  (cs.takeWhile (· != '/'), cs.dropWhile (· != '/'))

/-- The last name of a path, unless the path ends in points or has no name. -/
def fileName? (p : String) : Option String :=
  match (lastPart p).1 with
  | [] => none
  | ['.'] => none
  | ['.', '.'] => none
  | name => some (String.ofList name.reverse)

/-- The path without its last part; there is none for the empty path and for the root. -/
def parent? (p : String) : Option String :=
  match lastPart p with
  | ([], _) => none
  | (_, before) => some (String.ofList (dropTail before).reverse)

/-- The path of a relative name below a path. Nothing is put between them if the path is empty or
ends with a slash. -/
def join (base name : String) : String :=
  if base.isEmpty || base.endsWith "/" then base ++ name else base ++ "/" ++ name

end TypedPipeline.Path
