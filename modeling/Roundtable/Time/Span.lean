import Roundtable.Text.Blank
import Roundtable.Text.Numeral

/-!
# Spans of time

Budgets and durations, to the nanosecond, written for people: `1h 30m`, `500ms`,
`1year 2days`. A month is 2630016 seconds and a year 31557600.

The writer (`Span.text`) names every unit that occurs once, from years down. The reader
(`Span.ofText?`) takes more: long names of units, terms in any order, fractions, and
blanks nearly everywhere. It counts in 64 bits and refuses what does not fit.
-/

namespace Roundtable

/-- A span of time in nanoseconds. -/
structure Span where
  nanoseconds : Nat
deriving DecidableEq, Repr, Inhabited

namespace Span

/-- A billion, the nanoseconds of a second. -/
def perSecond : Nat := 1000000000

/-- The nanoseconds of a millisecond. -/
def perMilli : Nat := 1000000

/-- A span of whole seconds. -/
def ofSeconds (n : Nat) : Span := ⟨n * perSecond⟩

/-- A span of milliseconds. -/
def ofMillis (n : Nat) : Span := ⟨n * perMilli⟩

/-- The whole seconds of the span. -/
def seconds (s : Span) : Nat := s.nanoseconds / perSecond

/-- The nanoseconds beyond the whole seconds. -/
def subsecond (s : Span) : Nat := s.nanoseconds % perSecond

/-- The whole milliseconds of the span. -/
def millis (s : Span) : Nat := s.nanoseconds / perMilli

/-- The span is nothing. -/
def isZero (s : Span) : Bool := s.nanoseconds == 0

/-! ### Units -/

/-- The units of the written form. -/
inductive SpanUnit
  | nanosecond | microsecond | millisecond | second | minute | hour | day | week | month | year
deriving DecidableEq, Repr

/-- The unit a name stands for. -/
def SpanUnit.ofName? : String → Option SpanUnit
  | "nanos" | "nsec" | "ns" => some .nanosecond
  | "usec" | "us" | "µs" => some .microsecond
  | "millis" | "msec" | "ms" => some .millisecond
  | "seconds" | "second" | "secs" | "sec" | "s" => some .second
  | "minutes" | "minute" | "min" | "mins" | "m" => some .minute
  | "hours" | "hour" | "hr" | "hrs" | "h" => some .hour
  | "days" | "day" | "d" => some .day
  | "weeks" | "week" | "wk" | "wks" | "w" => some .week
  | "months" | "month" | "M" => some .month
  | "years" | "year" | "yr" | "yrs" | "y" => some .year
  | _ => none

/-- The seconds of a unit, for units of whole seconds. -/
def SpanUnit.seconds : SpanUnit → Nat
  | .second => 1
  | .minute => 60
  | .hour => 3600
  | .day => 86400
  | .week => 604800
  | .month => 2630016
  | .year => 31557600
  | _ => 0

/-- The nanoseconds of a unit below the second. -/
def SpanUnit.nanoseconds : SpanUnit → Nat
  | .nanosecond => 1
  | .microsecond => 1000
  | .millisecond => perMilli
  | _ => 0

/-! ### Writing -/

/-- The terms that occur, with their names. Years, months and days have a plural. -/
def terms (s : Span) : List (Nat × String) :=
  let secs := s.seconds
  let nanos := s.subsecond
  let inYear := secs % 31557600
  let inMonth := inYear % 2630016
  let inDay := inMonth % 86400
  let plural (n : Nat) (name : String) : Nat × String := (n, if n = 1 then name else name ++ "s")
  [plural (secs / 31557600) "year", plural (inYear / 2630016) "month",
    plural (inMonth / 86400) "day", (inDay / 3600, "h"), (inDay % 3600 / 60, "m"),
    (inDay % 60, "s"), (nanos / 1000000, "ms"), (nanos / 1000 % 1000, "us"),
    (nanos % 1000, "ns")].filter (·.1 ≠ 0)

/-- **The span as people write it**: its terms with a space between them. -/
def text (s : Span) : String :=
  if s.isZero then "0s"
  else " ".intercalate (s.terms.map fun (n, name) => decimal n ++ name)

/-! ### Reading -/

/-- Counts are held in 64 bits. -/
def countLimit : Nat := 2 ^ 64

/-- A count, if it fits. -/
def fit? (n : Nat) : Option Nat := if n < countLimit then some n else none

/-- A fraction as written: the digits behind the point, and one followed by as many
zeros. -/
structure Fraction where
  numerator : Nat
  denominator : Nat

/-- What the names of units are made of. -/
def isUnitChar (c : Char) : Bool :=
  ('a' ≤ c && c ≤ 'z') || ('A' ≤ c && c ≤ 'Z') || c == 'µ'

/-- Adds seconds and nanoseconds to a sum of both. -/
def add? (sum : Nat × Nat) (secs nanos : Nat) : Option (Nat × Nat) := do
  let nanos ← fit? (sum.2 + nanos)
  let secs ← fit? (secs + nanos / perSecond)
  let secs ← fit? (sum.1 + secs)
  return (secs, nanos % perSecond)

/-- Adds a term to a sum. Behind the point of an hour or more only whole seconds
count. -/
def addTerm? (sum : Nat × Nat) (n : Nat) (fraction : Option Fraction) (unit : SpanUnit) :
    Option (Nat × Nat) := do
  let sum ← add? sum (← fit? (n * unit.seconds)) (← fit? (n * unit.nanoseconds))
  match fraction with
  | none => return sum
  | some ⟨a, b⟩ =>
    match unit with
    | .nanosecond | .microsecond | .millisecond =>
      add? sum 0 ((← fit? (a * unit.nanoseconds)) / b)
    | .second | .minute => add? sum 0 ((← fit? (a * (unit.seconds * perSecond))) / b)
    | _ => add? sum ((← fit? (a * unit.seconds)) / b) 0

/-- The digits behind the point, up to the unit. -/
def fraction? (f : Fraction) : List Char → Option (Fraction × List Char)
  | [] => if f.denominator = 1 then none else some (f, [])
  | c :: r =>
    if isDigit c then do
      let numerator ← fit? (f.numerator * 10 + digitValue c)
      let denominator ← fit? (f.denominator * 10)
      fraction? ⟨numerator, denominator⟩ r
    else if isBlank c then fraction? f r
    else if isUnitChar c && f.denominator ≠ 1 then some (f, c :: r)
    else none

/-- The rest of a count, and its fraction, up to the unit. -/
def count? (n : Nat) : List Char → Option (Nat × Option Fraction × List Char)
  | [] => some (n, none, [])
  | c :: r =>
    if isDigit c then do count? (← fit? (n * 10 + digitValue c)) r
    else if isBlank c then count? n r
    else if isUnitChar c then some (n, none, c :: r)
    else if c = '.' then do
      let (f, rest) ← fraction? ⟨0, 1⟩ r
      return (n, some f, rest)
    else none

/-- The name of a unit ends at a blank, at a digit and at the end of the text. -/
def unit? (s : List Char) : Option (SpanUnit × List Char) := do
  let name := s.takeWhile isUnitChar
  let rest := s.dropWhile isUnitChar
  let unit ← SpanUnit.ofName? (String.ofList name)
  match rest with
  | c :: _ => if isDigit c || isBlank c then return (unit, rest) else none
  | [] => return (unit, rest)

/-- The terms of a written span, added to `sum`. The count bounds the terms; the number
of characters suffices. -/
def sum? : Nat → (sum : Nat × Nat) → List Char → Option (Nat × Nat)
  | 0, _, _ => none
  | k + 1, sum, s =>
    match s.dropWhile isBlank with
    | [] => some sum
    | c :: r =>
      if isDigit c then do
        let (n, fraction, rest) ← count? (digitValue c) r
        let (unit, rest) ← unit? rest
        sum? k (← addTerm? sum n fraction unit) rest
      else none

/-- **Reads a span.** A lone zero needs no unit; all else is a sum of terms. -/
def ofText? (s : String) : Option Span := do
  let cs := s.toList
  if cs = ['0'] then return ⟨0⟩
  else if cs.all isBlank then none
  else
    let (secs, nanos) ← sum? (cs.length + 1) (0, 0) cs
    return ⟨secs * perSecond + nanos⟩

end Span

end Roundtable
