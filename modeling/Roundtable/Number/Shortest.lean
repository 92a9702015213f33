import Roundtable.Number.Binary64
import Roundtable.Text.Numeral

/-!
# The shortest decimal of a binary number

Of all decimals that round to a number, `Shortest.digits` takes one with the fewest
digits, and of those the nearest. Each grid of `n` digits is tried in turn: its two
points next to the number are the only ones that need to be looked at, because if any
point of a grid rounds to the number, so does one of its two neighbours on that grid.
Seventeen digits always suffice.

How the digits are laid out, positional or with an exponent, is `Shortest.text`.
-/

namespace Roundtable.Shortest

/-- The decimals that round to a number, as the ends of an interval over one
denominator; the ends belong to it when the mantissa is even. -/
structure Interval where
  low : Nat
  value : Nat
  high : Nat
  unit : Nat
  closed : Bool

/-- The interval of a number that is not zero. The gap below a power of two is half
the gap above it. -/
def Interval.of (x : Binary64) : Interval :=
  let narrow := x.mantissa == 2 ^ 52 && x.exponent != Binary64.leastExponent
  let up := if x.exponent < 0 then 1 else 2 ^ x.exponent.toNat
  let down := if x.exponent < 0 then 2 ^ (-x.exponent).toNat else 1
  { low := (4 * x.mantissa - (if narrow then 1 else 2)) * up
    value := 4 * x.mantissa * up
    high := (4 * x.mantissa + 2) * up
    unit := 4 * down
    closed := x.mantissa % 2 == 0 }

/-- `num / den` lies in the interval. -/
def Interval.holds (i : Interval) (num den : Nat) : Bool :=
  let n := num * i.unit
  if i.closed then i.low * den ≤ n && n ≤ i.high * den else i.low * den < n && n < i.high * den

/-- The place of the first digit: the `k` with `10 ^ k ≤ num / den < 10 ^ (k + 1)`,
looked for from `k` downwards. -/
def leadingPlace (num den : Nat) : (steps : Nat) → (k : Int) → Int
  | 0, k => k
  | s + 1, k =>
    let reached := if k < 0 then den ≤ num * 10 ^ (-k).toNat else den * 10 ^ k.toNat ≤ num
    if reached then k else leadingPlace num den s (k - 1)

/-- A bound for the place of the first digit, from the number of binary digits. -/
def placeBound (num den : Nat) : Int :=
  ((Nat.log2 num : Int) - (Nat.log2 den : Int) + 1) * 30103 / 100000 + 1

/-- The grid point of `digits * 10 ^ place` as a fraction. -/
def point (digits : Nat) (place : Int) : Nat × Nat :=
  if place < 0 then (digits, 10 ^ (-place).toNat) else (digits * 10 ^ place.toNat, 1)

/-- The best point of one grid, if one rounds to the number. -/
def onGrid (i : Interval) (place : Int) : Option Nat :=
  let (n, d) := if place < 0 then (i.value * 10 ^ (-place).toNat, i.unit)
    else (i.value, i.unit * 10 ^ place.toNat)
  let low := n / d
  let holds (digits : Nat) : Bool :=
    let (a, b) := point digits place
    i.holds a b
  let twice := 2 * (n % d)
  let lowNearer := twice < d || (twice == d && low % 2 == 0)
  match holds low, holds (low + 1) with
  | true, true => some (if lowNearer then low else low + 1)
  | true, false => some low
  | false, true => some (low + 1)
  | false, false => none

/-- The first grid, from `digits` digits on, that has a point that rounds to the
number. -/
def firstGrid (i : Interval) (top : Int) : (steps digits : Nat) → Nat × Int
  | 0, _ => (0, 0)
  | s + 1, n =>
    let place := top - (n : Int) + 1
    match onGrid i place with
    | some ds => (ds, place)
    | none => firstGrid i top s (n + 1)

/-- Moves zeros at the end of the digits into the place. -/
def stripZeros : (steps : Nat) → Nat → Int → Nat × Int
  | 0, ds, place => (ds, place)
  | s + 1, ds, place =>
    if ds % 10 = 0 ∧ ds ≠ 0 then stripZeros s (ds / 10) (place + 1) else (ds, place)

/-- The shortest digits of a number that is not zero, and the place of the last one. -/
def digits (x : Binary64) : Nat × Int :=
  let i := Interval.of x
  let top := leadingPlace i.value i.unit 700 (placeBound i.value i.unit)
  let (ds, place) := firstGrid i top 17 1
  stripZeros 17 ds place

/-- Powers of ten from `10 ^ -5` to `10 ^ 15` are laid out positionally. -/
def isPositional (power : Int) : Bool := -5 ≤ power && power ≤ 15

/-- A power of ten with its sign. -/
def signed (power : Int) : List Char :=
  if power < 0 then '-' :: Numeral.ofNat (-power).toNat else '+' :: Numeral.ofNat power.toNat

/-- **The text of a number**: its shortest digits, positionally with at least one digit
on each side of the point, or with one digit in front of it and the power of ten. -/
def text (x : Binary64) : List Char :=
  let sign := if x.negative then ['-'] else []
  let zeros (n : Int) : List Char := List.replicate n.toNat '0'
  if x.isZero then sign ++ ['0', '.', '0']
  else
    let (n, place) := digits x
    let ds := Numeral.ofNat n
    let power := place + ds.length - 1
    let body :=
      if isPositional power then
        if 0 ≤ place then ds ++ zeros place ++ ['.', '0']
        else if 0 ≤ power then ds.take (power.toNat + 1) ++ ['.'] ++ ds.drop (power.toNat + 1)
        else ['0', '.'] ++ zeros (-power - 1) ++ ds
      else
        match ds with
        | [d] => [d, 'e'] ++ signed power
        | d :: r => [d, '.'] ++ r ++ ['e'] ++ signed power
        | [] => []
    sign ++ body

end Roundtable.Shortest
