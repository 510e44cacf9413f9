import TypedPipeline.Number.Arithmetic
import TypedPipeline.Text.Pieces

/-!
# Moments

A moment is a count of nanoseconds since the beginning of 1970. Days are turned into dates by the
proleptic Gregorian calendar.

Moments before 1970 do not occur. Leap seconds are not counted, so every day has the same number of
seconds.

Dates are computed for years that begin in March. In such a year the leap day is at the end, and the
days before a month depend on the month alone. After 400 years the calendar repeats itself.

## Main definitions

* `Timestamp` — moments
* `Timestamp.text` — date and time with the fewest groups of three places that are exact
* `Timestamp.compactText` — date and time to the millisecond, without separators
* `Timestamp.ofText?` — reads what `text` writes
-/

namespace TypedPipeline

/-- A moment. -/
structure Timestamp where
  nanoseconds : Nat := 0
deriving DecidableEq

namespace Timestamp

/-- A date. -/
structure Date where
  year : Nat
  month : Nat
  day : Nat

/-- The date of a day, counted from the beginning of 1970. Years are taken to begin in March, so
that a leap day is the last of its year. -/
def dateOfDay (n : Nat) : Date :=
  -- Days since the first of March of the year 0, and their place in 400 years.
  let z := n + 719468
  let era := z / 146097
  let dayOfEra := z % 146097
  let yearOfEra := (dayOfEra - dayOfEra / 1460 + dayOfEra / 36524 - dayOfEra / 146096) / 365
  let dayOfYear := dayOfEra - (365 * yearOfEra + yearOfEra / 4 - yearOfEra / 100)
  let shifted := (5 * dayOfYear + 2) / 153
  let month := if shifted < 10 then shifted + 3 else shifted - 9
  let year := yearOfEra + era * 400 + if month ≤ 2 then 1 else 0
  ⟨year, month, dayOfYear - (153 * shifted + 2) / 5 + 1⟩

/-- The day of a date, counted from the beginning of 1970; earlier dates count as that day. -/
def dayOfDate (d : Date) : Nat :=
  let year := if d.month ≤ 2 then d.year - 1 else d.year
  let era := year / 400
  let yearOfEra := year % 400
  let shifted := if 2 < d.month then d.month - 3 else d.month + 9
  let dayOfYear := (153 * shifted + 2) / 5 + d.day - 1
  era * 146097 + yearOfEra * 365 + yearOfEra / 4 - yearOfEra / 100 + dayOfYear - 719468

/-- Digits of a number, filled up with zeros. -/
def padded (width n : Nat) : String :=
  let s := toString n
  String.ofList (List.replicate (width - s.length) '0') ++ s

/-- The seconds of a moment. -/
def seconds (t : Timestamp) : Nat := t.nanoseconds / 10 ^ 9

/-- The date of a moment. -/
def date (t : Timestamp) : Date := dateOfDay (t.seconds / 86400)

/-- Hours, minutes and seconds of a moment within its day. -/
def clock (t : Timestamp) : Nat × Nat × Nat :=
  let s := t.seconds % 86400
  (s / 3600, s / 60 % 60, s % 60)

/-- Date and time, and places of the second in groups of three as far as they are needed. No
information is lost. -/
def text (t : Timestamp) : String :=
  let d := t.date
  let (h, m, s) := t.clock
  let fraction := t.nanoseconds % 10 ^ 9
  let places :=
    if fraction = 0 then ""
    else if fraction % 10 ^ 6 = 0 then "." ++ padded 3 (fraction / 10 ^ 6)
    else if fraction % 10 ^ 3 = 0 then "." ++ padded 6 (fraction / 10 ^ 3)
    else "." ++ padded 9 fraction
  padded 4 d.year ++ "-" ++ padded 2 d.month ++ "-" ++ padded 2 d.day ++ "T" ++
    padded 2 h ++ ":" ++ padded 2 m ++ ":" ++ padded 2 s ++ places ++ "Z"

/-- Date and time to the millisecond, without separators. -/
def compactText (t : Timestamp) : String :=
  let d := t.date
  let (h, m, s) := t.clock
  padded 4 d.year ++ padded 2 d.month ++ padded 2 d.day ++ "T" ++ padded 2 h ++ padded 2 m ++
    padded 2 s ++ padded 3 (t.nanoseconds / 10 ^ 6 % 1000) ++ "Z"

/-- Reads date and time as `text` writes them. -/
def ofText? (s : String) : Option Timestamp := do
  let cs := s.toList
  let digits? (ds : List Char) : Option Nat :=
    if ds.isEmpty || !ds.all Char.isDigit then none else (String.ofList ds).toNat?
  match Text.pieces 'T' cs with
  | [date, time] =>
    let [year, month, day] ← (Text.pieces '-' date).mapM digits? | none
    if time.getLast? != some 'Z' then none
    let [hour, minute, second] := Text.pieces ':' time.dropLast | none
    let (whole, places) ←
      match Text.pieces '.' second with
      | [whole] => some (whole, [])
      | [whole, places] => some (whole, places)
      | _ => none
    let fraction ←
      if places.isEmpty then some 0
      else if 9 < places.length then none
      else (digits? places).map (· * 10 ^ (9 - places.length))
    let t := dayOfDate ⟨year, month, day⟩ * 86400 + (← digits? hour) * 3600 +
      (← digits? minute) * 60 + (← digits? whole)
    some ⟨t * 10 ^ 9 + fraction⟩
  | _ => none

end Timestamp

end TypedPipeline
