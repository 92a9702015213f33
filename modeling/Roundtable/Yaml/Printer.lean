import Roundtable.Yaml.Meaning
import Roundtable.Yaml.Scalar

/-!
# YAML texts

The layout of a value made of mappings, texts and numbers: a field in a line, what a
mapping holds two spaces deeper. **Each text is written in the plainest style that reads
back as that text** (`styleOf`): plain, then in single quotes, then in double quotes; a
text with line breaks is a literal block where one can stand.
-/

namespace Roundtable.Yaml

/-- A value to write. -/
inductive Value
  | text (s : String)
  | number (n : Nat)
  | mapping (fields : List (String × Value))
deriving Repr, Inhabited

/-! ### What a text holds -/

/-- Characters written as they are. -/
def isPrintable (c : Char) : Bool :=
  let n := c.toNat
  n == 0x0A || (0x20 ≤ n && n ≤ 0x7E) || (0xA0 ≤ n && n ≤ 0xFFFD && n != 0xFEFF) || 0x10000 ≤ n

/-- Some character satisfying `p` stands right in front of one satisfying `q`. -/
def hasPair (p q : Char → Bool) : List Char → Bool
  | a :: b :: r => (p a && q b) || hasPair p q (b :: r)
  | _ => false

/-- A colon in front of a blank or the end, or a number sign behind a blank. -/
def hasInnerMark (afterBlank : Bool) : List Char → Bool
  | [] => false
  | c :: r =>
    (c == ':' && endsWord r) || (c == '#' && afterBlank) ||
      hasInnerMark (isBreak c || isWhite c) r

/-- The start of the text would be read as something else. -/
def startsMarked : List Char → Bool
  | [] => false
  | c :: r =>
    ['#', ',', '[', ']', '\x7b', '\x7d', '&', '*', '!', '|', '>', '\'', '"', '%', '@',
      '\x60'].contains c ||
      ((c == '?' || c == ':' || c == '-') && endsWord r) ||
      (c :: r).take 3 == ['-', '-', '-'] || (c :: r).take 3 == ['.', '.', '.']

/-- The text can be written plainly. -/
def allowsPlain (s : List Char) : Bool :=
  let isEdge (c : Char) : Bool := c == ' ' || isBreak c
  !s.isEmpty && s.all (fun c => isPrintable c && !isBreak c) && !s.head?.any isEdge &&
    !s.getLast?.any isEdge && !startsMarked s && !hasInnerMark true s

/-- The text can be written in single quotes. -/
def allowsSingle (s : List Char) : Bool :=
  s.all isPrintable && !hasPair (· == ' ') isBreak s && !hasPair isBreak (· == ' ') s

/-- The text can be written as a block. -/
def allowsBlock (s : List Char) : Bool :=
  s.all isPrintable && !hasPair (· == ' ') isBreak s && s.getLast? != some ' '

/-- **The style of a text**; in the line of a value it may be a block, in the line of a key
it may not. -/
def styleOf (inKey : Bool) (s : String) : ScalarStyle :=
  let cs := s.toList
  if cs.contains '\n' then
    if !inKey && allowsBlock cs then .literal else .doubleQuoted
  else if !isAmbiguous s && allowsPlain cs then .plain
  else if allowsSingle cs then .singleQuoted
  else .doubleQuoted

/-! ### The styles -/

/-- Spaces. -/
def spaces (n : Nat) : List Char := List.replicate n ' '

/-- The inside of single quotes. Behind a break the text goes on at the column `indent`. -/
def singleBody (indent : Nat) : (broken : Bool) → List Char → List Char
  | broken, [] => if broken then spaces indent else []
  | broken, c :: r =>
    if isBreak c then c :: singleBody indent true r
    else (if broken then spaces indent else []) ++
      (if c == '\'' then ['\'', '\''] else [c]) ++ singleBody indent false r

/-- A number of exactly `width` hexadecimal digits in upper case. -/
def upperHex (width n : Nat) : List Char := (Numeral.hex width n).map Char.toUpper

/-- A character inside double quotes. -/
def doubleChar (c : Char) : List Char :=
  if isPrintable c && !isBreak c && c != '"' && c != '\\' then [c]
  else '\\' :: match c with
    | '\x00' => ['0']
    | '\x07' => ['a']
    | '\x08' => ['b']
    | '\t' => ['t']
    | '\n' => ['n']
    | '\x0b' => ['v']
    | '\x0c' => ['f']
    | '\r' => ['r']
    | '\x1b' => ['e']
    | '"' => ['"']
    | '\\' => ['\\']
    | '\u0085' => ['N']
    | '\u2028' => ['L']
    | '\u2029' => ['P']
    | c =>
      if c.toNat ≤ 0xFF then 'x' :: upperHex 2 c.toNat
      else if c.toNat ≤ 0xFFFF then 'u' :: upperHex 4 c.toNat
      else 'U' :: upperHex 8 c.toNat

/-- The lines of a literal block at the column `indent`. -/
def literalBody (indent : Nat) : (broken : Bool) → List Char → List Char
  | _, [] => []
  | broken, c :: r =>
    if isBreak c then c :: literalBody indent true r
    else (if broken then spaces indent else []) ++ c :: literalBody indent false r

/-- The marks of a literal block: its depth if its first line does not show it, and what
becomes of the breaks at its end. -/
def literalMarks (s : List Char) : List Char :=
  let depth := if s.head?.any fun c => c == ' ' || isBreak c then ['2'] else []
  let chomping := match s.reverse with
    | [] => ['-']
    | c :: r =>
      if !isBreak c then ['-']
      else match r with
        | [] => ['+']
        | d :: _ => if isBreak d then ['+'] else []
  '|' :: depth ++ chomping

/-- A text in its style; its further lines start at the column `indent`. -/
def scalarText (inKey : Bool) (indent : Nat) (s : String) : List Char :=
  let cs := s.toList
  match styleOf inKey s with
  | .plain => cs
  | .singleQuoted => '\'' :: singleBody indent false cs ++ ['\'']
  | .doubleQuoted => '"' :: cs.flatMap doubleChar ++ ['"']
  | _ => literalMarks cs ++ '\n' :: literalBody indent true cs

/-! ### Mappings -/

/-- A text and the end of its line; a literal block that keeps its breaks has one. -/
def endLine (s : List Char) : List Char := if s.getLast?.any isBreak then s else s ++ ['\n']

/-- A key that fits in front of a colon: one line of at most 128 octets. -/
def isShortKey (k : String) : Bool := k.utf8ByteSize ≤ 128 && !k.toList.any isBreak

/-- The key of a field, up to its colon. -/
def keyText (indent : Nat) (k : String) : List Char :=
  if isShortKey k then spaces indent ++ scalarText true (indent + 2) k ++ [':']
  else
    spaces indent ++ '?' :: ' ' :: endLine (scalarText false (indent + 2) k) ++
      spaces indent ++ [':']

mutual

/-- A value behind its key, to the end of its lines. -/
def Value.behindKey (indent : Nat) : Value → List Char
  | .text s => ' ' :: endLine (scalarText false (indent + 2) s)
  | .number n => ' ' :: Numeral.ofNat n ++ ['\n']
  | .mapping [] => [' ', '\x7b', '\x7d', '\n']
  | .mapping fields => '\n' :: Value.fieldLines (indent + 2) fields

/-- The lines of some fields. -/
def Value.fieldLines (indent : Nat) : List (String × Value) → List Char
  | [] => []
  | (k, v) :: r => keyText indent k ++ v.behindKey indent ++ Value.fieldLines indent r

end

/-- **The text of a mapping**, as a document of its own. -/
def page (fields : List (String × Value)) : String :=
  String.ofList (Value.fieldLines 0 fields)

end Roundtable.Yaml
