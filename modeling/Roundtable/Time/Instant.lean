import Roundtable.Time.Calendar
import Roundtable.Time.Span
import Roundtable.Text.Split

/-!
# Instants

Points in time to the nanosecond, in universal time, as run records hold them. A
second that was put in at the end of a minute is told by nanoseconds from a billion on,
and written as second 60.

The reader (`Instant.ofText?`) takes a date, one separator, a time and an offset, each
part with blanks in front of it, and subtracts the offset; the writer is exact and
writes 0, 3, 6 or 9 digits behind the second, as few as do.
-/

namespace Roundtable

/-- An instant: days from 1 January 1970, the second of the day, and nanoseconds; from
a billion on they count from the end of an inserted second. -/
structure Instant where
  days : Int
  second : Nat
  nanos : Nat
deriving DecidableEq, Repr, Inhabited

namespace Instant

/-- The seconds of a day. -/
def dayLength : Nat := 86400

/-- An instant lies before another. -/
def before (a b : Instant) : Bool :=
  a.days < b.days ||
    (a.days == b.days && (a.second < b.second || (a.second == b.second && a.nanos < b.nanos)))

/-- The instant `n` seconds later, `n` of any sign. -/
def addSeconds (t : Instant) (n : Int) : Instant :=
  let s := (t.second : Int) + n
  { t with days := t.days + s / dayLength, second := (s % dayLength).toNat }

/-- The next microsecond. -/
def nextMicro (t : Instant) : Instant :=
  let n := t.nanos + 1000
  let full := if t.nanos < Span.perSecond then Span.perSecond else 2 * Span.perSecond
  if n < full then { t with nanos := n } else { t.addSeconds 1 with nanos := n - full }

/-- The instant a span after this one, outside inserted seconds. -/
def addSpan (t : Instant) (s : Span) : Instant :=
  let n := t.nanos + s.subsecond
  { t.addSeconds (s.seconds + n / Span.perSecond) with nanos := n % Span.perSecond }

/-- The span from an earlier instant to this one, outside inserted seconds; nothing when
the clock went backwards. -/
def since (t earlier : Instant) : Span :=
  let seconds := (t.days - earlier.days) * dayLength + (t.second - earlier.second : Int)
  ⟨(seconds * Span.perSecond + (t.nanos - earlier.nanos : Int)).toNat⟩

/-! ### Writing -/

/-- A year on four places; years outside have a sign. -/
def yearText (year : Int) : List Char :=
  if 0 ≤ year ∧ year ≤ 9999 then Numeral.padded 4 year.toNat
  else (if year < 0 then '-' else '+') :: Numeral.padded 4 year.natAbs

/-- As few of 0, 3, 6 or 9 digits as do. -/
def fractionText (nanos : Nat) : List Char :=
  if nanos = 0 then []
  else if nanos % 1000000 = 0 then '.' :: Numeral.padded 3 (nanos / 1000000)
  else if nanos % 1000 = 0 then '.' :: Numeral.padded 6 (nanos / 1000)
  else '.' :: Numeral.padded 9 nanos

/-- Date and time without an offset. -/
def localText (t : Instant) : List Char :=
  let d := Date.ofDays t.days
  let inserted := Span.perSecond ≤ t.nanos
  let second := t.second % 60 + (if inserted then 1 else 0)
  let nanos := if inserted then t.nanos - Span.perSecond else t.nanos
  yearText d.year ++ ['-'] ++ Numeral.padded 2 d.month ++ ['-'] ++ Numeral.padded 2 d.day ++
    ['T'] ++ Numeral.padded 2 (t.second / 3600) ++ [':'] ++
    Numeral.padded 2 (t.second % 3600 / 60) ++ [':'] ++ Numeral.padded 2 second ++
    fractionText nanos

/-- The instant as records hold it. -/
def text (t : Instant) : String := String.ofList (t.localText ++ ['Z'])

/-- The instant as shown to people. -/
def offsetText (t : Instant) : String := String.ofList (t.localText ++ "+00:00".toList)

/-! ### Reading -/

/-- Reads a number of at most `width` digits; blanks may stand in front. -/
def number? (width : Nat) (s : List Char) : Option (Nat × List Char) :=
  let s := s.dropWhile isBlank
  let ds := (s.take width).takeWhile isDigit
  if ds.isEmpty then none else some (Numeral.value ds, s.drop ds.length)

/-- Reads a year: four digits at most, or a sign and any number of them. -/
def year? (s : List Char) : Option (Int × List Char) :=
  match s.dropWhile isBlank with
  | '-' :: c :: r => if isDigit c then signed (-1) (c :: r) else none
  | '+' :: c :: r => if isDigit c then signed 1 (c :: r) else none
  | r => (number? 4 r).map fun (n, rest) => ((n : Int), rest)
where
  signed (sign : Int) (r : List Char) : Option (Int × List Char) :=
    some (sign * Numeral.value (r.takeWhile isDigit), r.dropWhile isDigit)

/-- Reads a mark; blanks may stand in front. -/
def mark? (c : Char) (s : List Char) : Option (List Char) :=
  match s.dropWhile isBlank with
  | d :: r => if c = d then some r else none
  | [] => none

/-- Reads the digits behind the second; digits from the tenth on are passed over. -/
def nanos? (s : List Char) : Option (Nat × List Char) :=
  match s with
  | '.' :: r =>
    let ds := (r.take 9).takeWhile isDigit
    if ds.isEmpty then none
    else some (Numeral.value ds * 10 ^ (9 - ds.length), r.dropWhile isDigit)
  | r => some (0, r)

/-- Two digits. -/
def pair? : List Char → Option (Nat × List Char)
  | a :: b :: r => if isDigit a && isDigit b then some (Numeral.value [a, b], r) else none
  | _ => none

/-- Reads an offset in seconds: a name of universal time, or hours and minutes with a
sign. Colons and blanks may stand between them. -/
def offset? (s : List Char) : Option (Int × List Char) :=
  if (s.take 3).map Char.toUpper = ['U', 'T', 'C'] then some (0, s.drop 3)
  else
    match s with
    | 'Z' :: r | 'z' :: r => some (0, r)
    | '+' :: r => signed 1 r
    | '-' :: r | '−' :: r => signed (-1) r
    | _ => none
where
  signed (sign : Int) (r : List Char) : Option (Int × List Char) := do
    let (hours, r) ← pair? r
    let (minutes, r) ← pair? (r.dropWhile fun c => c == ':' || isBlank c)
    if minutes < 60 ∧ hours < 24 then return (sign * (hours * 3600 + minutes * 60 : Nat), r)
    else none

/-- **Reads an instant** and brings it to universal time. -/
def ofText? (text : String) : Option Instant := do
  let (year, s) ← year? text.toList
  let (month, s) ← number? 2 (← mark? '-' s)
  let (day, s) ← number? 2 (← mark? '-' s)
  let s ← match s with
    | 'T' :: r | 't' :: r | ' ' :: r => some r
    | _ => none
  let (hour, s) ← number? 2 s
  let (minute, s) ← number? 2 (← mark? ':' s)
  let (second, s) ← number? 2 (← mark? ':' s)
  let (nanos, s) ← nanos? s
  let (offset, s) ← offset? (s.dropWhile isBlank)
  let date : Date := ⟨year, month, day⟩
  if date.isValid && hour < 24 && minute < 60 && second ≤ 60 && s.all isBlank then
    let inserted := second = 60
    let t : Instant :=
      ⟨date.toDays, hour * 3600 + minute * 60 + (if inserted then 59 else second),
        nanos + (if inserted then Span.perSecond else 0)⟩
    let t := t.addSeconds (-offset)
    if (Date.ofDays t.days).isValid then return t else none
  else none

end Instant

end Roundtable
