import TypedPipeline.Scalar

/-!
# Reading JSON

The text is first read as a tree, in which the numbers keep their digits and a text may be damaged:
an escaped half of a character pair is a fault only where somebody asks for the text. Then decoders
take from the tree what they expect.

Numbers with a point or an exponent are read in two steps. The digits make up an integer below
`2 ^ 64`, of which later digits that do not fit are left out, and this integer is then multiplied or
divided once by a power of ten. The result may differ from the nearest number in its last digit.

## Implementation notes

The readers for values, items and members recur on fuel, since the text gets shorter in a way that
the termination checker does not see: a text or a number is read by another function. Each level of
nesting and each item and member takes one unit and at least one character, and `ofText?` gives more
than twice as much as there are characters, so fuel is never what a reading fails for.

Damaged texts are kept in the tree as absent. An object with a damaged name is still an object, and
whether that is a fault is decided where the object is decoded: a map needs all its names, and a
record as well.

Of two members with one name a map takes the later one, as maps do that are filled entry by entry. A
record does not take either; it is refused if a known field comes twice.

## Main definitions

* `JsonTree`, `JsonTree.ofText?` — the tree of a text
* `JsonNumber.value?` — the value of a number
* `JsonTree.parameters?` and the other decoders
-/

namespace TypedPipeline

/-- A number as it is written. The sign is kept apart from the digits, so that a negative zero is
not lost. -/
structure JsonNumber where
  negative : Bool
  /-- The digits before the point. -/
  whole : List Char
  /-- The digits behind the point, if there is one. -/
  places : Option (List Char)
  /-- The exponent, if there is one: whether it has a minus, and its digits. -/
  exponent : Option (Bool × List Char)

/-- A JSON text as a tree. A damaged text is absent. -/
inductive JsonTree where
  | null
  | boolean (b : Bool)
  | number (n : JsonNumber)
  | string (s : Option String)
  | array (items : List JsonTree)
  | object (members : List (Option String × JsonTree))

namespace JsonTree

/-! ### Grammar -/

/-- Drops blanks. -/
def skip : List Char → List Char :=
  List.dropWhile fun c => c == ' ' || c == '\n' || c == '\t' || c == '\r'

/-- The value of a hexadecimal digit. -/
def hexValue? (c : Char) : Option Nat :=
  if c.isDigit then some (c.toNat - '0'.toNat)
  else if 'a' ≤ c && c ≤ 'f' then some (c.toNat - 'a'.toNat + 10)
  else if 'A' ≤ c && c ≤ 'F' then some (c.toNat - 'A'.toNat + 10)
  else none

/-- Reads four hexadecimal digits. -/
def unit? : List Char → Option (Nat × List Char)
  | a :: b :: c :: d :: rest => do
    let ds ← [a, b, c, d].mapM hexValue?
    some (ds.foldl (fun n d => 16 * n + d) 0, rest)
  | _ => none

/-- The characters that a backslash makes of one character. -/
def shortEscape? : Char → Option Char
  | '"' => some '"'
  | '\\' => some '\\'
  | '/' => some '/'
  | 'b' => some '\x08'
  | 'f' => some '\x0c'
  | 'n' => some '\n'
  | 'r' => some '\r'
  | 't' => some '\t'
  | _ => none

/-- Whether a code is the first half of a pair. -/
def isHighHalf (n : Nat) : Bool := 0xD800 ≤ n && n ≤ 0xDBFF

/-- Whether a code is the second half of a pair. -/
def isLowHalf (n : Nat) : Bool := 0xDC00 ≤ n && n ≤ 0xDFFF

/-- Reads a text up to its closing quote. `sound` tells whether no half of a pair stood alone; the
text is read to its end in any case, and is absent if one did. -/
def textTail? : Nat → (sound : Bool) → List Char → List Char →
    Option (Option String × List Char)
  | 0, _, _, _ => none
  | _ + 1, _, _, [] => none
  | fuel + 1, sound, text, c :: rest =>
    if c == '"' then
      some (if sound then some (String.ofList text.reverse) else none, rest)
    else if c.toNat < 0x20 then none
    else if c != '\\' then textTail? fuel sound (c :: text) rest
    else
      match rest with
      | [] => none
      | 'u' :: rest => do
        let (n, rest) ← unit? rest
        if isHighHalf n then
          match rest with
          | '\\' :: 'u' :: more => do
            let (m, more) ← unit? more
            if isLowHalf m then
              let code := 0x10000 + (n - 0xD800) * 0x400 + (m - 0xDC00)
              textTail? fuel sound (Char.ofNat code :: text) more
            else textTail? fuel false text rest
          | _ => textTail? fuel false text rest
        else if isLowHalf n then textTail? fuel false text rest
        else textTail? fuel sound (Char.ofNat n :: text) rest
      | e :: rest => do
        let d ← shortEscape? e
        textTail? fuel sound (d :: text) rest

/-- Reads a text behind its opening quote. -/
def text? (cs : List Char) : Option (Option String × List Char) :=
  textTail? (cs.length + 1) true [] cs

/-- Reads digits, of which there is at least one. -/
def digits? (cs : List Char) : Option (List Char × List Char) :=
  let ds := cs.takeWhile Char.isDigit
  if ds.isEmpty then none else some (ds, cs.dropWhile Char.isDigit)

/-- Reads the digits behind a point, if there is one. -/
def places? : List Char → Option (Option (List Char) × List Char)
  | '.' :: rest => do
    let (ds, rest) ← digits? rest
    some (some ds, rest)
  | cs => some (none, cs)

/-- Reads the sign of an exponent, and tells whether it is a minus. -/
def exponentSign : List Char → Bool × List Char
  | '+' :: rest => (false, rest)
  | '-' :: rest => (true, rest)
  | cs => (false, cs)

/-- Reads an exponent, if there is one. -/
def exponent? : List Char → Option (Option (Bool × List Char) × List Char)
  | [] => some (none, [])
  | e :: rest =>
    if e == 'e' || e == 'E' then do
      let (minus, rest) := exponentSign rest
      let (ds, rest) ← digits? rest
      some (some (minus, ds), rest)
    else some (none, e :: rest)

/-- Reads a number without sign: no zero in front of other digits, and at least one digit behind a
point and in an exponent. -/
def magnitude? (negative : Bool) (cs : List Char) : Option (JsonNumber × List Char) := do
  let (whole, rest) ← digits? cs
  if whole.head? == some '0' && 1 < whole.length then none
  let (places, rest) ← places? rest
  let (exponent, rest) ← exponent? rest
  some (⟨negative, whole, places, exponent⟩, rest)

/-- Reads a number. -/
def number? : List Char → Option (JsonNumber × List Char)
  | '-' :: rest => magnitude? true rest
  | cs => magnitude? false cs

mutual

/-- Reads a value behind blanks. -/
def value? : Nat → List Char → Option (JsonTree × List Char)
  | 0, _ => none
  | fuel + 1, cs =>
    match skip cs with
    | 'n' :: 'u' :: 'l' :: 'l' :: rest => some (.null, rest)
    | 't' :: 'r' :: 'u' :: 'e' :: rest => some (.boolean true, rest)
    | 'f' :: 'a' :: 'l' :: 's' :: 'e' :: rest => some (.boolean false, rest)
    | '"' :: rest => do
      let (s, rest) ← text? rest
      some (.string s, rest)
    | '[' :: rest =>
      match skip rest with
      | ']' :: rest => some (.array [], rest)
      | rest => do
        let (items, rest) ← items? fuel rest
        some (.array items, rest)
    | '{' :: rest =>
      match skip rest with
      | '}' :: rest => some (.object [], rest)
      | rest => do
        let (members, rest) ← members? fuel rest
        some (.object members, rest)
    | rest => do
      let (n, rest) ← number? rest
      some (.number n, rest)

/-- Reads the items of an array, of which there is at least one, and its end. -/
def items? : Nat → List Char → Option (List JsonTree × List Char)
  | 0, _ => none
  | fuel + 1, cs => do
    let (v, rest) ← value? fuel cs
    match skip rest with
    | ']' :: rest => some ([v], rest)
    | ',' :: rest => do
      let (vs, rest) ← items? fuel rest
      some (v :: vs, rest)
    | _ => none

/-- Reads the members of an object, of which there is at least one, and its end. -/
def members? : Nat → List Char → Option (List (Option String × JsonTree) × List Char)
  | 0, _ => none
  | fuel + 1, cs =>
    match skip cs with
    | '"' :: rest => do
      let (k, rest) ← text? rest
      match skip rest with
      | ':' :: rest => do
        let (v, rest) ← value? fuel rest
        match skip rest with
        | '}' :: rest => some ([(k, v)], rest)
        | ',' :: rest => do
          let (ms, rest) ← members? fuel rest
          some ((k, v) :: ms, rest)
        | _ => none
      | _ => none
    | _ => none

end

/-- The tree of a text. -/
def ofText? (s : String) : Option JsonTree := do
  let cs := s.toList
  let (v, rest) ← value? (2 * cs.length + 2) cs
  if (skip rest).isEmpty then some v else none

end JsonTree

/-! ### Numbers

An integer is one that is written without point and exponent, whatever its value. What does not fit
into 64 bits is read as a float, and so is the negative zero, which no integer is. -/

namespace JsonNumber

/-- The value of a number. -/
inductive Value where
  | integer (n : Int)
  | float (x : Binary64)

/-- The greatest integer that the digits may make up. -/
def greatest : Nat := 2 ^ 64 - 1

/-- Takes digits into `n` as long as it stays within `greatest`. Gives the integer and the digits
left out, which are all digits from the first one on that does not fit. -/
def gather (n : Nat) : List Char → Nat × List Char
  | [] => (n, [])
  | c :: rest =>
    let m := 10 * n + (c.toNat - '0'.toNat)
    if m ≤ greatest then gather m rest else (n, c :: rest)

/-- A power of ten as a number. -/
def powerOfTen (k : Nat) : Binary64 := .ofNat (10 ^ k)

/-- `x * 10 ^ exponent`, with one multiplication or division by each power of ten that is used.
`fuel` bounds the divisions by `1e308`. -/
def scale? : Nat → Binary64 → Int → Option Binary64
  | 0, _, _ => none
  | fuel + 1, x, exponent =>
    if exponent.natAbs ≤ 308 then
      if 0 ≤ exponent then
        let y := x * powerOfTen exponent.toNat
        if y.isInfinite then none else some y
      else some (x / powerOfTen (-exponent).toNat)
    else if x.isZero then some x
    else if 0 ≤ exponent then none
    else scale? fuel (x / powerOfTen 308) (exponent + 308)

/-- Gives the sign to a number. -/
def signed (negative : Bool) (x : Binary64) : Binary64 := if negative then x.neg else x

/-- The value of a number with a point or an exponent, or with more digits than an integer has.
Digits that were left out before the point are made up for by the exponent, and those behind it are
lost. -/
def float? (n : JsonNumber) : Option Binary64 := do
  let (significand, left) := gather 0 n.whole
  let places := n.places.getD []
  let (significand, unused) := gather significand places
  let shift : Int := left.length - (places.length - unused.length : Nat)
  let limit : Int := 2 ^ 31 - 1
  match n.exponent with
  | none => (scale? 16 (.ofNat significand) shift).map (signed n.negative)
  | some (minus, ds) =>
    let e : Int := Decimal.digitsValue ds
    if limit < e then
      if significand != 0 && !minus then none else some (.zero n.negative)
    else
      let exponent := max (-limit - 1) (min limit (if minus then shift - e else shift + e))
      (scale? 16 (.ofNat significand) exponent).map (signed n.negative)

/-- The value of a number. An integer that does not fit into 64 bits becomes a float, and so does
the negative zero. -/
def value? (n : JsonNumber) : Option Value :=
  if n.places.isNone && n.exponent.isNone then
    let m := Decimal.digitsValue n.whole
    if greatest < m then n.float?.map .float
    else if n.negative then
      if m = 0 then some (.float (.zero true))
      else if m ≤ 2 ^ 63 then some (.integer (-(m : Int)))
      else some (.float (Binary64.ofNat m).neg)
    else some (.integer m)
  else n.float?.map .float

end JsonNumber

namespace JsonTree

/-! ### Decoding -/

/-- A text. -/
def textValue? : JsonTree → Option String
  | .string s => s
  | _ => none

/-- A scalar. An integer beyond the range of integers becomes a float, and null and collections are
none. -/
def scalar? : JsonTree → Option Scalar
  | .boolean b => some (.boolean b)
  | .string s => s.map .string
  | .number n => do
    match ← n.value? with
    | .integer m =>
      if m < 2 ^ 63 then some (.integer (Int64.ofInt m)) else some (.float (.ofInt m))
    | .float x => some (.float x)
  | _ => none

/-- A natural below `2 ^ 64`. -/
def natural64? : JsonTree → Option Nat
  | .number n => do
    match ← n.value? with
    | .integer m => if 0 ≤ m then some m.toNat else none
    | .float _ => none
  | _ => none

/-- A value that may be null. -/
def optional? {α : Type} (value : JsonTree → Option α) : JsonTree → Option (Option α)
  | .null => some none
  | v => (value v).map some

/-- The items of an array. -/
def list? {α : Type} (value : JsonTree → Option α) : JsonTree → Option (List α)
  | .array items => items.mapM value
  | _ => none

/-- The members of an object, as a map. Of two members with one name the later one counts. -/
def map? {α : Type} (value : JsonTree → Option α) : JsonTree → Option (TextMap α)
  | .object members => do
    let entries ← members.mapM fun (k, v) => do
      let key ← k
      some (key, ← value v)
    some (.ofList entries)
  | _ => none

/-- Named scalars. -/
def parameters? : JsonTree → Option Parameters := map? scalar?

/-- The known fields of a record, in their order. A record is an object, in which a known field may
come once only and others are ignored, or an array of the first fields in their order. -/
def record? (known : List String) : JsonTree → Option (List (Option JsonTree))
  | .object members => do
    let named ← members.mapM fun (k, v) => k.map fun key => (key, v)
    known.mapM fun field =>
      match named.filter (·.1 == field) with
      | [] => some none
      | [(_, v)] => some (some v)
      | _ => none
  | .array items =>
    if items.length ≤ known.length then
      some (items.map some ++ List.replicate (known.length - items.length) none)
    else none
  | _ => none

end JsonTree

end TypedPipeline
