import TypedPipeline.Text.Blank

/-!
# References to channels

A recipe refers to a channel by a text: the name of a declared input of the pipeline, or the name of
a component and the name of one of its outputs with a point between them.

References are read when a recipe is validated or built, and are kept as they were written until
then. A text that is no reference is no failure of reading the recipe.

## Main definitions

* `Reference`, `Reference.ofText?`
-/

namespace TypedPipeline

/-- What a recipe may refer to. -/
inductive Reference where
  | input (name : String)
  | output (component output : String)
deriving DecidableEq

namespace Reference

/-- The reference that a trimmed text stands for. Without a point it is an input; otherwise there is
exactly one point, with something on both sides. -/
def ofChars? (cs : List Char) : Option Reference :=
  let before := cs.takeWhile (· != '.')
  match cs.dropWhile (· != '.') with
  | [] => if before.isEmpty then none else some (.input (String.ofList before))
  | _ :: behind =>
    if before.isEmpty || behind.isEmpty || behind.contains '.' then none
    else some (.output (String.ofList before) (String.ofList behind))

/-- The reference that a text stands for; blanks at its ends do not count. -/
def ofText? (s : String) : Option Reference := ofChars? (Text.trimChars s.toList)

/-- The message for a text that is no reference. -/
def invalidText (s : String) : String :=
  s!"Invalid channel reference '{Text.trim s}'; expected '<input>' or '<component>.<output>'"

end Reference

end TypedPipeline
