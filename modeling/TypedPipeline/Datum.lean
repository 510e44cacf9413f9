import TypedPipeline.Scalar

/-!
# Plain data

What the text formats write: scalars, lists, and members under names. One value may be written as
JSON or as YAML.

## Implementation notes

Floats and integers are different values here, because both formats write them differently. Integers
are unbounded: counters do not have the range of the integers that a recipe may hold, and what is
written of them is the same text anyway.

Members are a list and not a map. A record is written in the order of its fields, a map by rising
name (`Datum.ofMap`), and the writers have no part in it.

## Main definitions

* `Datum` — the values
* `Datum.ofScalar`, `Datum.ofParameters` — scalars as plain data
-/

namespace TypedPipeline

/-- A value to be written. Members come in the order of the list. -/
inductive Datum where
  | null
  | boolean (b : Bool)
  | integer (n : Int)
  | float (x : Binary64)
  | string (s : String)
  | array (items : List Datum)
  | object (members : List (String × Datum))

namespace Datum

/-- A scalar as plain data. -/
def ofScalar : Scalar → Datum
  | .boolean b => .boolean b
  | .integer n => .integer n.toInt
  | .float x => .float x
  | .string s => .string s

/-- Named values, by rising name. A map keeps its entries in this order, so nothing is sorted
here. -/
def ofMap {α : Type} (f : α → Datum) (m : TextMap α) : Datum :=
  .object (m.entries.map fun e => (e.1, f e.2))

/-- Named scalars. -/
def ofParameters (p : Parameters) : Datum := ofMap ofScalar p

/-- A text or null. -/
def ofText? : Option String → Datum
  | none => .null
  | some s => .string s

/-- A list of texts. -/
def ofTexts (l : List String) : Datum := .array (l.map .string)

end Datum

end TypedPipeline
