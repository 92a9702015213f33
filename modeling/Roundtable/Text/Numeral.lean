import Roundtable.Number.Whole

/-!
# Numerals

Numbers in base ten and sixteen as digits, written and read. Delivery ids, rounds,
fractions of a second and character codes are all written with these; only ASCII
digits are digits.
-/

namespace Roundtable

/-- An ASCII decimal digit. -/
def isDigit (c : Char) : Bool := '0' ≤ c && c ≤ '9'

/-- The value of a decimal digit. -/
def digitValue (c : Char) : Nat := c.toNat - '0'.toNat

/-- The digit that stands for `n`, for `n` below ten. -/
def digitChar (n : Nat) : Char := Char.ofNat ('0'.toNat + n % 10)

/-- The value of a hexadecimal digit of either case. -/
def hexValue? (c : Char) : Option Nat :=
  if isDigit c then some (digitValue c)
  else if 'a' ≤ c && c ≤ 'f' then some (c.toNat - 'a'.toNat + 10)
  else if 'A' ≤ c && c ≤ 'F' then some (c.toNat - 'A'.toNat + 10)
  else none

/-- The lower case hexadecimal digit that stands for `n`, for `n` below sixteen. -/
def hexChar (n : Nat) : Char :=
  if n % 16 < 10 then digitChar (n % 16) else Char.ofNat ('a'.toNat + (n % 16 - 10))

namespace Numeral

/-- The decimal digits of `n` put in front of `tail`; zero has no digit. -/
def digitsOnto (n : Nat) (tail : List Char) : List Char :=
  if n = 0 then tail else digitsOnto (n / 10) (digitChar n :: tail)

/-- A number in base ten, without leading zeros. -/
def ofNat (n : Nat) : List Char := if n = 0 then ['0'] else digitsOnto n []

/-- `n` in base ten on at least `width` places, filled with zeros. -/
def padded (width n : Nat) : List Char :=
  let ds := ofNat n
  List.replicate (width - ds.length) '0' ++ ds

/-- The number that a run of decimal digits stands for; it continues `value`. -/
def valueFrom (value : Nat) (ds : List Char) : Nat :=
  ds.foldl (fun v c => v * 10 + digitValue c) value

/-- The number that a run of decimal digits stands for. -/
def value (ds : List Char) : Nat := valueFrom 0 ds

/-- Reads a run of digits that is not empty and holds nothing else. -/
def ofDigits? (s : List Char) : Option Nat :=
  if s.isEmpty then none else if s.all isDigit then some (value s) else none

/-- Reads a number below `limit`: digits, after a plus sign if there is one. -/
def below? (limit : Nat) (s : List Char) : Option Nat :=
  let body := match s with
    | '+' :: r => r
    | r => r
  match ofDigits? body with
  | some n => if n < limit then some n else none
  | none => none

/-- `n` on exactly `width` hexadecimal digits, the low ones. -/
def hex : (width n : Nat) → List Char
  | 0, _ => []
  | w + 1, n => hex w (n / 16) ++ [hexChar n]

end Numeral

/-- A number in base ten. -/
def decimal (n : Nat) : String := String.ofList (Numeral.ofNat n)

/-- An integer in base ten, with a minus sign below zero. -/
def decimalInt : Int → String
  | .ofNat n => decimal n
  | .negSucc n => "-" ++ decimal (n + 1)

/-- The text filled with spaces on the right to `width` characters. -/
def padRight (width : Nat) (s : String) : String :=
  s ++ String.ofList (List.replicate (width - s.length) ' ')

/-- The text filled with spaces on the left to `width` characters. -/
def padLeft (width : Nat) (s : String) : String :=
  String.ofList (List.replicate (width - s.length) ' ') ++ s

end Roundtable
