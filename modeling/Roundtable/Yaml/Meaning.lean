import Roundtable.Number.Binary64
import Roundtable.Text.Numeral

/-!
# What plain words mean

A plain scalar may be read as null, a truth value or a number. The reader of numbers asks
`wholeBelow?`; the writer of texts asks `isAmbiguous`, and **a text that could be read as
something else is never written plainly**.
-/

namespace Roundtable.Yaml

/-- A word for the null value. -/
def isNullWord (s : String) : Bool := s == "null" || s == "Null" || s == "NULL" || s == "~"

/-- The digits of a number, not empty, in a base of at most 16. -/
def inBase? (base : Nat) (ds : List Char) : Option Nat :=
  if ds.isEmpty then none
  else ds.foldlM (fun n d => do
    let v ← hexValue? d
    if v < base then some (n * base + v) else none) 0

/-- The base a number's first two characters announce. -/
def announcedBase? : List Char → Option (Nat × List Char)
  | '0' :: 'x' :: r => some (16, r)
  | '0' :: 'o' :: r => some (8, r)
  | '0' :: 'b' :: r => some (2, r)
  | _ => none

/-- The text starts with a sign. -/
def startsSigned : List Char → Bool
  | '+' :: _ | '-' :: _ => true
  | _ => false

/-- Digits behind a zero that is not the whole number. -/
def hasIdleZero (s : List Char) : Bool :=
  let body := if startsSigned s then s.tail else s
  1 < body.length && body.head? == some '0' && body.all isDigit

/-- Reads a number below `limit` from its digits, the sign taken off. `s` is the text with
its sign. -/
def magnitude? (limit : Nat) (s body : List Char) : Option Nat :=
  let below (n : Option Nat) : Option Nat := n.bind fun n => if n < limit then some n else none
  let announced := (announcedBase? body).bind fun (base, ds) => below (inBase? base ds)
  match announced with
  | some n => some n
  | none =>
    if startsSigned body || hasIdleZero s then none else below (inBase? 10 body)

/-- Reads a whole number below `limit`; bases are announced, zeros in front refused. The only
number that may have a minus is zero. -/
def wholeBelow? (limit : Nat) (s : String) : Option Nat :=
  match s.toList with
  | '+' :: r => magnitude? limit ('+' :: r) r
  | '-' :: r => magnitude? (min limit 1) ('-' :: r) r
  | cs => magnitude? limit cs cs

/-! ### Texts that look like something else -/

/-- A word for a truth value. -/
def isTruthWord (s : String) : Bool :=
  ["true", "True", "TRUE", "false", "False", "FALSE"].contains s

/-- A word for a number that is infinite or none. -/
def isLimitWord (s : String) : Bool :=
  [".inf", ".Inf", ".INF", "+.inf", "+.Inf", "+.INF", "-.inf", "-.Inf", "-.INF", ".nan", ".NaN",
    ".NAN"].contains s

/-- The text without one sign in front. -/
def unsigned (s : List Char) : List Char := if startsSigned s then s.tail else s

/-- A whole number of 128 bits, of either sign. -/
def isWhole (s : String) : Bool :=
  let cs := s.toList
  (wholeBelow? (2 ^ 128) s).isSome ||
    (cs.head? == some '-' && (magnitude? (2 ^ 127 + 1) cs cs.tail).isSome)

/-- A power of ten: a sign if there is one, and digits. -/
def power? (s : List Char) : Option Int := do
  let n ← Numeral.ofDigits? (unsigned s)
  return if s.head? = some '-' then -(n : Int) else n

/-- Digits, a point and digits, and a power of ten; the digits of both sides together, the
number behind the point, and the power. -/
def decimal? (s : List Char) : Option (List Char × Nat × Int) := do
  let (front, r) := s.span isDigit
  let (back, r) := match r with
    | '.' :: r => r.span isDigit
    | r => ([], r)
  if front.isEmpty && back.isEmpty then none
  else
    let power ← match r with
      | [] => some 0
      | c :: r => if c == 'e' || c == 'E' then power? r else none
    return (front ++ back, back.length, power)

/-- A decimal number within the range of 64 bit numbers. -/
def isReal (s : String) : Bool :=
  match decimal? (unsigned s.toList) with
  | none => false
  | some (digits, behind, power) =>
    let digits := digits.dropWhile (· == '0')
    let scale : Int := power - behind
    let top : Int := digits.length + scale
    if digits.isEmpty || top < -400 then true
    else if 400 < top then false
    else
      let n := Numeral.value digits
      if scale < 0 then (Binary64.ofRatio? n (10 ^ (-scale).toNat)).isSome
      else (Binary64.ofRatio? (n * 10 ^ scale.toNat) 1).isSome

/-- The text, written plainly, could be read as something else. -/
def isAmbiguous (s : String) : Bool :=
  s.isEmpty || isNullWord s || isTruthWord s || isLimitWord s || hasIdleZero s.toList ||
    isWhole s || isReal s

end Roundtable.Yaml
