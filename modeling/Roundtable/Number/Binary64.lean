import Roundtable.Number.Whole

/-!
# Binary floating point numbers

The finite numbers of the 64 bit format, each as a whole number times a power of two.
All arithmetic is exact arithmetic on `Nat` followed by one rounding,
`Binary64.ofRatio?`, to the nearest number, of two equally near ones to the one with an
even mantissa. Nothing here is infinite or not a number: where rounding would leave the
range there is no result.
-/

namespace Roundtable

/-- A sign, and a magnitude `mantissa * 2 ^ exponent` with the mantissa below `2 ^ 53`
and the exponent at least `-1074`. -/
structure Binary64 where
  negative : Bool
  mantissa : Nat
  exponent : Int
deriving DecidableEq, Repr, Inhabited

namespace Binary64

/-- The least exponent. -/
def leastExponent : Int := -1074

/-- The greatest exponent. -/
def greatestExponent : Int := 971

/-- Zero. -/
def zero : Binary64 := ⟨false, 0, leastExponent⟩

/-- The number is zero, of either sign. -/
def isZero (x : Binary64) : Bool := x.mantissa == 0

/-- The same magnitude with the other sign. -/
def neg (x : Binary64) : Binary64 := { x with negative := !x.negative }

/-- The exponent that gives `num / den` a mantissa of 53 bits, not below the least. -/
def scaleOf (num den : Nat) : Int :=
  let guess : Int := (Nat.log2 num : Int) - (Nat.log2 den : Int) - 52
  let scaled (e : Int) : Nat × Nat :=
    if e < 0 then (num * 2 ^ (-e).toNat, den) else (num, den * 2 ^ e.toNat)
  let (n, d) := scaled guess
  let fitted := if n < d * 2 ^ 52 then guess - 1 else guess
  max fitted leastExponent

/-- The nearest whole number to `num / den`, ties to the even one. -/
def nearest (num den : Nat) : Nat :=
  let q := num / den
  let twice := 2 * (num % den)
  if twice < den then q
  else if den < twice then q + 1
  else if q % 2 = 0 then q else q + 1

/-- **The number nearest to `num / den`**, if it is in range; `den` is not zero. -/
def ofRatio? (num den : Nat) : Option Binary64 :=
  if num = 0 then some zero
  else
    let e := scaleOf num den
    let m := if e < 0 then nearest (num * 2 ^ (-e).toNat) den else nearest num (den * 2 ^ e.toNat)
    let (m, e) := if m = 2 ^ 53 then (2 ^ 52, e + 1) else (m, e)
    if greatestExponent < e then none else some ⟨false, m, e⟩

/-- The magnitude as a fraction. -/
def toRatio (x : Binary64) : Nat × Nat :=
  if x.exponent < 0 then (x.mantissa, 2 ^ (-x.exponent).toNat)
  else (x.mantissa * 2 ^ x.exponent.toNat, 1)

/-- The product of the magnitudes. -/
def mul? (x y : Binary64) : Option Binary64 :=
  let (a, b) := x.toRatio
  let (c, d) := y.toRatio
  ofRatio? (a * c) (b * d)

/-- The quotient of the magnitudes; `y` is not zero. -/
def div? (x y : Binary64) : Option Binary64 :=
  let (a, b) := x.toRatio
  let (c, d) := y.toRatio
  ofRatio? (a * d) (b * c)

/-- The number nearest to a whole number. -/
def ofNat? (n : Nat) : Option Binary64 := ofRatio? n 1

/-- The number nearest to a power of ten. -/
def powerOfTen? (k : Nat) : Option Binary64 := ofRatio? (10 ^ k) 1

end Binary64

end Roundtable
