import TypedPipeline.Number.Decimal

/-!
# What a plain scalar stands for

A scalar without quotes and without tag may be null, a truth value or a number; any other text
stands for itself.

The meanings are tried in a fixed order: null, truth values, integers, floats, and text if it is
none of them. Only a few spellings of each are known; `yes` and `no` are texts, and so is a number
with zeros in front.

Integers are read to their full value first, and which of them fit is a matter of a bound. So the
same functions read integers of 32, 64 and 128 bits.

## Main definitions

* `Yaml.Literal.ofText` — the meaning of a plain scalar
* `Yaml.readUnsigned?`, `Yaml.readFloat?` — the number forms
-/

namespace TypedPipeline.Yaml

/-- The meaning of a scalar. -/
inductive Literal where
  | null
  | boolean (b : Bool)
  /-- An integer of 64 bits, with a sign or without. -/
  | integer (n : Int)
  /-- An integer that needs more than 64 bits and not more than 128. -/
  | wideInteger (n : Int)
  | float (x : Binary64)
  | text
deriving DecidableEq

/-- The texts of null. -/
def isNull (s : String) : Bool := ["null", "Null", "NULL", "~"].contains s

/-- The texts of the truth values. -/
def readBoolean? (s : String) : Option Bool :=
  if ["true", "True", "TRUE"].contains s then some true
  else if ["false", "False", "FALSE"].contains s then some false
  else none

/-- The value of a digit below `base`. -/
def digitBelow? (base : Nat) (c : Char) : Option Nat :=
  let v :=
    if c.isDigit then c.toNat - '0'.toNat
    else if 'a' ≤ c && c ≤ 'z' then c.toNat - 'a'.toNat + 10
    else if 'A' ≤ c && c ≤ 'Z' then c.toNat - 'A'.toNat + 10
    else base
  if v < base then some v else none

/-- The value of digits to `base`; at least one. -/
def readDigits? (base : Nat) (cs : List Char) : Option Nat :=
  if cs.isEmpty then none
  else (cs.mapM (digitBelow? base)).map (·.foldl (fun n d => base * n + d) 0)

/-- A base other than ten and the digits behind its mark. -/
def basedDigits? : List Char → Option (Nat × List Char)
  | '0' :: 'x' :: rest => some (16, rest)
  | '0' :: 'o' :: rest => some (8, rest)
  | '0' :: 'b' :: rest => some (2, rest)
  | _ => none

/-- The text without one `+` in front. -/
def withoutPlus : List Char → List Char
  | '+' :: rest => rest
  | cs => cs

/-- Digits with a zero in front that is not needed: such a text is not a number. -/
def isPaddedNumber (cs : List Char) : Bool :=
  let ds :=
    match cs with
    | '-' :: rest => rest
    | '+' :: rest => rest
    | _ => cs
  1 < ds.length && ds.head? == some '0' && ds.all Char.isDigit

/-- Reads an integer without minus that is at most `greatest`. -/
def readUnsigned? (greatest : Nat) (cs : List Char) : Option Nat :=
  let within (n : Nat) : Option Nat := if n ≤ greatest then some n else none
  let body := withoutPlus cs
  let based := (basedDigits? body).bind fun (base, ds) => (readDigits? base ds).bind within
  match based with
  | some n => some n
  | none => if isPaddedNumber cs then none else (readDigits? 10 body).bind within

/-- Reads an integer with minus that is at least `-greatest`. The minus stands before the mark of a
base. -/
def readNegative? (greatest : Nat) (cs : List Char) : Option Int :=
  let within (n : Nat) : Option Int := if n ≤ greatest then some (-(n : Int)) else none
  match cs with
  | '-' :: body =>
    let based := (basedDigits? body).bind fun (base, ds) => (readDigits? base ds).bind within
    match based with
    | some n => some n
    | none => if isPaddedNumber cs then none else (readDigits? 10 body).bind within
  | _ => none

/-- Reads an integer of at most 128 bits. -/
def readInteger? (cs : List Char) : Option Literal :=
  match readUnsigned? (2 ^ 64 - 1) cs with
  | some n => some (.integer n)
  | none =>
    match readNegative? (2 ^ 63) cs with
    | some n => some (.integer n)
    | none =>
      match readUnsigned? (2 ^ 128 - 1) cs with
      | some n => some (.wideInteger n)
      | none => (readNegative? (2 ^ 127) cs).map .wideInteger

/-- Reads a number with point or exponent, an infinity, or the text of what is no number. -/
def readFloat? (cs : List Char) : Option Binary64 :=
  let isInfinity (cs : List Char) : Bool :=
    [".inf", ".Inf", ".INF"].contains (String.ofList cs)
  let finite (negative : Bool) (cs : List Char) : Option Binary64 :=
    (Decimal.ofChars? cs).bind fun d =>
      let x := d.toBinary negative
      if x.isFinite then some x else none
  if [".nan", ".NaN", ".NAN"].contains (String.ofList cs) then some .notANumber
  else
    match cs with
    | '+' :: rest => if isInfinity rest then some (.infinity false) else finite false rest
    | '-' :: rest => if isInfinity rest then some (.infinity true) else finite true rest
    | _ => if isInfinity cs then some (.infinity false) else finite false cs

/-- The meaning of a plain scalar without tag. -/
def Literal.ofText (s : String) : Literal :=
  if s.isEmpty || isNull s then .null
  else
    match readBoolean? s with
    | some b => .boolean b
    | none =>
      match readInteger? s.toList with
      | some n => n
      | none =>
        if isPaddedNumber s.toList then .text
        else
          match readFloat? s.toList with
          | some x => .float x
          | none => .text

end TypedPipeline.Yaml
