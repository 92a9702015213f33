/-!
# Blank characters and trimming

The characters that separate words in names, labels and times: exactly those with
the Unicode property `White_Space`. Session labels, run ids and times all speak of
this one class, so it is settled once, together with trimming at both ends.
-/

namespace Roundtable

/-- The Unicode property `White_Space`, as its ten ranges. -/
def isBlank (c : Char) : Bool :=
  let n := c.toNat
  (9 ≤ n && n ≤ 13) || n == 0x20 || n == 0x85 || n == 0xA0 || n == 0x1680 ||
    (0x2000 ≤ n && n ≤ 0x200A) || n == 0x2028 || n == 0x2029 || n == 0x202F ||
    n == 0x205F || n == 0x3000

namespace Text

/-- Drops what satisfies `p` from both ends. -/
def trimBy (p : Char → Bool) (s : List Char) : List Char :=
  ((s.dropWhile p).reverse.dropWhile p).reverse

/-- Drops blanks from both ends. -/
def trim (s : List Char) : List Char := trimBy isBlank s

end Text

/-- `s` holds nothing but blanks. -/
def isBlankText (s : String) : Bool := s.toList.all isBlank

end Roundtable
