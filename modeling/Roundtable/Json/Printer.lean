import Roundtable.Json.Value
import Roundtable.Number.Shortest
import Roundtable.Text.Numeral

/-!
# JSON texts

Two layouts of one value: on one line, and with every item and field on a line of its
own, two spaces deeper than the line that opens it. Both write a text with the same
escapes: quotes, backslashes and characters below the space, nothing else.
-/

namespace Roundtable.Json

/-- A character inside quotes. -/
def escapeChar (c : Char) : List Char :=
  match c with
  | '"' => ['\\', '"']
  | '\\' => ['\\', '\\']
  | '\n' => ['\\', 'n']
  | '\r' => ['\\', 'r']
  | '\t' => ['\\', 't']
  | '\x08' => ['\\', 'b']
  | '\x0c' => ['\\', 'f']
  | c => if c.toNat < 0x20 then '\\' :: 'u' :: Numeral.hex 4 c.toNat else [c]

/-- A text in quotes. -/
def quote (s : String) : List Char := '"' :: s.toList.flatMap escapeChar ++ ['"']

/-- A number as written: whole numbers without a point, others by their shortest
digits. -/
def Number.print : Number → List Char
  | .whole (.ofNat n) => Numeral.ofNat n
  | .whole (.negSucc n) => '-' :: Numeral.ofNat (n + 1)
  | .real x => Shortest.text x

/-! ### On one line -/

mutual

/-- The value on one line, without spaces. -/
def compact : Json → List Char
  | .null => "null".toList
  | .bool true => "true".toList
  | .bool false => "false".toList
  | .number n => n.print
  | .text s => quote s
  | .array items => '[' :: compactItems items ++ [']']
  | .object fields => '\x7b' :: compactFields fields ++ ['\x7d']

/-- Items with commas between them. -/
def compactItems : List Json → List Char
  | [] => []
  | [v] => compact v
  | v :: r => compact v ++ ',' :: compactItems r

/-- Fields with commas between them. -/
def compactFields : List (String × Json) → List Char
  | [] => []
  | [(k, v)] => quote k ++ ':' :: compact v
  | (k, v) :: r => quote k ++ ':' :: compact v ++ ',' :: compactFields r

end

/-! ### Over several lines -/

/-- The start of a line at a depth. -/
def newline (depth : Nat) : List Char := '\n' :: List.replicate (2 * depth) ' '

mutual

/-- The value over several lines; `depth` is that of the line it starts on. -/
def pretty (depth : Nat) : Json → List Char
  | .null => "null".toList
  | .bool true => "true".toList
  | .bool false => "false".toList
  | .number n => n.print
  | .text s => quote s
  | .array [] => ['[', ']']
  | .array items => '[' :: prettyItems (depth + 1) items ++ newline depth ++ [']']
  | .object [] => ['\x7b', '\x7d']
  | .object fields => '\x7b' :: prettyFields (depth + 1) fields ++ newline depth ++ ['\x7d']

/-- Items, each on a line of its own. -/
def prettyItems (depth : Nat) : List Json → List Char
  | [] => []
  | [v] => newline depth ++ pretty depth v
  | v :: r => newline depth ++ pretty depth v ++ ',' :: prettyItems depth r

/-- Fields, each on a line of its own. -/
def prettyFields (depth : Nat) : List (String × Json) → List Char
  | [] => []
  | [(k, v)] => newline depth ++ quote k ++ ':' :: ' ' :: pretty depth v
  | (k, v) :: r =>
    newline depth ++ quote k ++ ':' :: ' ' :: pretty depth v ++ ',' :: prettyFields depth r

end

/-- The value on one line. -/
def line (v : Json) : String := String.ofList (compact v)

/-- The value over several lines. -/
def page (v : Json) : String := String.ofList (pretty 0 v)

end Roundtable.Json
