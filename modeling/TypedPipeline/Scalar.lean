import TypedPipeline.Number.Decimal
import TypedPipeline.SortedMap

/-!
# Scalars

The values of parameters and properties: texts, integers of 64 bits, binary floating-point numbers
and truth values. A declared type accepts a value of that type, and a float is also accepted as an
integer that a float can represent with all its neighbours.

## Implementation notes

Coercion goes in one direction only. A float that happens to be whole is not accepted where an
integer is declared, and no value is accepted as a text. The bound is on the magnitude of the
integer and not on whether it is exactly a float: beyond `2 ^ 53` there are integers that are, but
their neighbours are not, so it is not told apart whether one of them was meant.

A float is compared by its bits here, as equality of scalars is.

## Main definitions

* `Scalar`, `ScalarType` — values and their types
* `Scalar.coerce?` — the value as one of a declared type
* `Scalar.text` — how a value stands in a sentence
-/

namespace TypedPipeline

/-- The types of scalars. -/
inductive ScalarType where
  | string
  | integer
  | float
  | boolean
deriving DecidableEq, Repr

namespace ScalarType

/-- The name of a type in contracts and messages. -/
def name : ScalarType → String
  | string => "string"
  | integer => "integer"
  | float => "float"
  | boolean => "boolean"

/-- The type with a name. -/
def ofName? : String → Option ScalarType
  | "string" => some string
  | "integer" => some integer
  | "float" => some float
  | "boolean" => some boolean
  | _ => none

end ScalarType

/-- A scalar value. -/
inductive Scalar where
  | boolean (b : Bool)
  | integer (n : Int64)
  | float (x : Binary64)
  | string (s : String)
deriving DecidableEq

namespace Scalar

/-- The type of a value. -/
def type : Scalar → ScalarType
  | boolean _ => .boolean
  | integer _ => .integer
  | float _ => .float
  | string _ => .string

/-- The greatest magnitude up to which every integer is a float. -/
def exactLimit : Nat := 2 ^ 53

/-- The value as one of the declared type: itself if it has that type, and for a float also the
integers up to `exactLimit`. A value of the declared type is never changed. -/
def coerce? (declared : ScalarType) (v : Scalar) : Option Scalar :=
  if v.type = declared then some v
  else
    match v, declared with
    | integer n, .float =>
      if n.toInt.natAbs ≤ exactLimit then some (float (.ofInt n.toInt)) else none
    | _, _ => none

/-- A number in a sentence. -/
def floatText (x : Binary64) : String := Decimal.plainStyle.render x

/-- The value in a sentence. -/
def text : Scalar → String
  | boolean b => if b then "true" else "false"
  | integer n => toString n.toInt
  | float x => floatText x
  | string s => s

/-! ### Looking at a value of a known type -/

/-- The text of a text. -/
def string? : Scalar → Option String
  | string s => some s
  | _ => none

/-- The number of an integer. -/
def integer? : Scalar → Option Int64
  | integer n => some n
  | _ => none

/-- The number of a float. -/
def float? : Scalar → Option Binary64
  | float x => some x
  | _ => none

/-- The truth value of a boolean. -/
def boolean? : Scalar → Option Bool
  | boolean b => some b
  | _ => none

end Scalar

/-- Named scalars: the parameters of a component or the properties of an artifact. -/
abbrev Parameters := TextMap Scalar

end TypedPipeline
