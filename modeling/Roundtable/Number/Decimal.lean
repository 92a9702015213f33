import Roundtable.Number.Binary64

/-!
# Decimal to binary by one scaling

A decimal `significand * 10 ^ exponent` becomes a binary number by rounding the
significand, the power of ten and their product or quotient, each to the nearest
number. The result can be one unit off the nearest; readers and writers of the run
records agree on this rule, so it is the rule here. Exponents below the table of powers
are reached by dividing by `10 ^ 308` first, until nothing is left or the rest is in the
table.
-/

namespace Roundtable.Decimal

/-- The greatest power of ten in the format. -/
def greatestPower : Nat := 308

/-- `x * 10 ^ k`, if it is in range. -/
def scaleUp? (x : Binary64) (k : Nat) : Option Binary64 := do
  x.mul? (← Binary64.powerOfTen? k)

/-- `x / 10 ^ k`. -/
def scaleDown (x : Binary64) (k : Nat) : Binary64 :=
  ((Binary64.powerOfTen? k).bind (x.div? ·)).getD Binary64.zero

/-- `x / 10 ^ k` for any `k`, by steps of `10 ^ 308` that stop at zero. -/
def scaleDownFar (x : Binary64) (k : Nat) : Binary64 :=
  if x.isZero then x
  else if _h : greatestPower < k then
    scaleDownFar (scaleDown x greatestPower) (k - greatestPower)
  else scaleDown x k
termination_by k
decreasing_by simp only [greatestPower] at *; omega

/-- The magnitude of `significand * 10 ^ exponent`, if it is in range. -/
def toBinary? (significand : Nat) (exponent : Int) : Option Binary64 := do
  let x ← Binary64.ofNat? significand
  if exponent < 0 then return scaleDownFar x (-exponent).toNat
  else if x.isZero then return x
  else if greatestPower < exponent.toNat then none
  else scaleUp? x exponent.toNat

end Roundtable.Decimal
