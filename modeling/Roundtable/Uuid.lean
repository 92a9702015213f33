import Roundtable.RunId
import Roundtable.Text.Numeral

/-!
# Random identifiers

Ids nobody chose: 128 random bits, six of them replaced by the version and the
variant of a random identifier, written as lower case hexadecimal digits in groups of
8, 4, 4, 4 and 12. Session suffixes take 32 random bits as 8 digits.
-/

namespace Roundtable.Uuid

/-- The five groups of digits, the version digit `4` and the variant bits `10` in
place. -/
def groups (bits : Nat) : List (List Char) :=
  [Numeral.hex 8 (bits / 2 ^ 96), Numeral.hex 4 (bits / 2 ^ 80),
    '4' :: Numeral.hex 3 (bits / 2 ^ 64),
    Numeral.hex 1 (8 + bits / 2 ^ 60 % 4) ++ Numeral.hex 3 (bits / 2 ^ 48),
    Numeral.hex 12 bits]

/-- The identifier made of 128 random bits. -/
def ofBits (bits : Nat) : String := "-".intercalate ((groups bits).map String.ofList)

/-- A lower case hexadecimal digit. -/
def isLowerHex (c : Char) : Bool := isDigit c || ('a' ≤ c && c ≤ 'f')

/-- The form of a random identifier. -/
def isRandom (s : String) : Bool :=
  match Text.pieces '-' s.toList with
  | [a, b, c, d, e] =>
    [a, b, c, d, e].map List.length == [8, 4, 4, 4, 12] &&
      [a, b, c, d, e].all (·.all isLowerHex) && c.head? == some '4' &&
      (d.head?.elim false fun x => "89ab".toList.contains x)
  | _ => false

/-- Eight hexadecimal digits for a session suffix. -/
def suffix (bits : Nat) : String := String.ofList (Numeral.hex 8 bits)

/-- The form of a suffix nobody chose. -/
def isSuffix (s : String) : Bool := s.length == 8 && s.toList.all isLowerHex

end Roundtable.Uuid
