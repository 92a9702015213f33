import Roundtable.Json.Value
import Roundtable.Number.Decimal
import Roundtable.Text.Numeral

/-!
# JSON texts as trees that remember where they broke

A text is read once from the left and **the first problem wins**, but which problem is
first depends on what the reader wants: a value of the wrong kind is one for who needs
it and none for who passes over it. So the text is first made into a tree that keeps
every fault in the place where it stands, and wanting comes later
(`Roundtable.Json.Decoder`).

Some faults are only seen by who reads a value and not by who skips it: a number out of
range, and half a surrogate pair in a text. They stay inside a leaf. The others break the
text off: nothing behind them counts. A break can look different to who reads any
value, to who wants one of some names and to who skips, so the tree keeps a
`Json.Break` and not a fault alone.
-/

namespace Roundtable.Json

/-- What kind of problem ends the reading of a text. -/
inductive Fault
  /-- The text is no JSON. -/
  | malformed
  /-- The text ends too early. -/
  | truncated
  /-- JSON of the wrong shape. -/
  | mismatch
deriving DecidableEq, Repr

/-- A break in the text, as seen by who reads a value, by who wants a name there and by
who skips. -/
structure Break where
  read : Fault
  named : Fault
  skipped : Fault
  /-- The text breaks off inside a null. -/
  inNull : Bool
deriving DecidableEq, Repr

/-- A break that all see alike. -/
def Break.alike (f : Fault) : Break := ⟨f, f, f, false⟩

/-- A break inside a literal: no name can start like one. -/
def Break.inLiteral (isNull : Bool) (f : Fault) : Break := ⟨f, .malformed, f, isNull⟩

/-- A break inside a number. Who skips takes an early end for a bad number. -/
def Break.inNumber (f : Fault) : Break := ⟨f, .malformed, .malformed, false⟩

mutual

/-- A value, or what stands in its place. -/
inductive Node
  | broken (b : Break)
  | null
  | bool (b : Bool)
  /-- A number; `none` when it is out of range. -/
  | number (n : Option Number)
  /-- A text, or the fault its reader meets. -/
  | text (s : Except Fault String)
  | array (items : Items)
  | object (fields : Fields)

/-- What follows in an array. -/
inductive Items
  | closed
  /-- No comma and no end. -/
  | broken (f : Fault)
  | item (value : Node) (rest : Items)

/-- What follows in an object. -/
inductive Fields
  | closed
  /-- No comma and no end. -/
  | broken (f : Fault)
  /-- No key where one must stand: for who reads a key, who reads any value there, and
  who skips. -/
  | brokenKey (asKey asValue skipped : Fault)
  | field (key : Except Fault String) (value : Node) (rest : Fields)

end

/-! ### Blanks and literals -/

/-- The four characters that may stand between tokens. -/
def isSpace (c : Char) : Bool := c == ' ' || c == '\n' || c == '\t' || c == '\r'

/-- The text behind spaces. -/
def skipSpaces (s : List Char) : List Char := s.dropWhile isSpace

/-- Reads the rest of a literal. -/
def literal : (rest : List Char) → List Char → Except Fault (List Char)
  | [], s => .ok s
  | _ :: _, [] => .error .truncated
  | c :: cs, d :: s => if c = d then literal cs s else .error .malformed

/-! ### Numbers -/

/-- Whole numbers from here on are binary numbers. -/
def wholeLimit : Nat := 2 ^ 64

/-- Exponents from here on decide a number by themselves. -/
def exponentLimit : Nat := 2 ^ 31

/-- Digits that fit behind `significand`: the new significand, how many were taken, and
the text behind them. Stops in front of a digit that does not fit. -/
def takeFitting (significand count : Nat) : List Char → Nat × Nat × List Char
  | [] => (significand, count, [])
  | c :: r =>
    if isDigit c then
      let next := significand * 10 + digitValue c
      if next < wholeLimit then takeFitting next (count + 1) r else (significand, count, c :: r)
    else (significand, count, c :: r)

/-- The result of reading a number: a number, one out of range, or a break. -/
inductive NumberRead
  | number (n : Option Number) (rest : List Char)
  | broken (b : Break)

/-- A binary number from its decimal, with its sign. -/
def realOf (negative : Bool) (significand : Nat) (exponent : Int) : Option Number :=
  (Decimal.toBinary? significand exponent).map fun x => .real (if negative then x.neg else x)

/-- Reads from the mark of the exponent on. -/
def readExponent (negative : Bool) (significand : Nat) (start : Int) (s : List Char) :
    NumberRead :=
  let (down, s) := match s with
    | '+' :: r => (false, r)
    | '-' :: r => (true, r)
    | r => (false, r)
  let ds := s.takeWhile isDigit
  let rest := s.dropWhile isDigit
  if ds.isEmpty then
    match rest with
    | [] => .broken (.inNumber .truncated)
    | _ :: _ => .broken (.inNumber .malformed)
  else
    let e := Numeral.value ds
    if e < exponentLimit then
      .number (realOf negative significand (if down then start - e else start + e)) rest
    else if significand = 0 || down then
      .number (some (.real (if negative then Binary64.zero.neg else Binary64.zero))) rest
    else .number none rest

/-- Reads on behind the digits of a number that is no whole number of 64 bits. -/
def readScale (negative : Bool) (significand : Nat) (exponent : Int) (s : List Char) :
    NumberRead :=
  match s with
  | 'e' :: r | 'E' :: r => readExponent negative significand exponent r
  | r => .number (realOf negative significand exponent) r

/-- Reads from behind the point on. Digits that do not fit are passed over. -/
def readFraction (negative : Bool) (significand : Nat) (exponent : Int) (s : List Char) :
    NumberRead :=
  let (significand, count, rest) := takeFitting significand 0 s
  let fits := match rest with
    | c :: _ => !isDigit c
    | [] => true
  if count = 0 && fits then
    match rest with
    | [] => .broken (.inNumber .truncated)
    | _ :: _ => .broken (.inNumber .malformed)
  else readScale negative significand (exponent - count) (rest.dropWhile isDigit)

/-- A whole number, if it has one of the two forms of 64 bits. -/
def wholeOf (negative : Bool) (n : Nat) : Option Number :=
  if negative then
    if n = 0 || 2 ^ 63 < n then (Binary64.ofNat? n).map fun x => .real x.neg
    else some (.whole (-(n : Int)))
  else some (.whole n)

/-- Reads a number behind its sign. -/
def readNumber (negative : Bool) (s : List Char) : NumberRead :=
  match s with
  | [] => .broken (.inNumber .truncated)
  | c :: r =>
    if !isDigit c then .broken (.inNumber .malformed)
    else if c = '0' && (r.head?.elim false isDigit) then .broken (.inNumber .malformed)
    else
      let (significand, _, rest) := takeFitting 0 0 (c :: r)
      let long := rest.takeWhile isDigit
      let rest := rest.dropWhile isDigit
      match rest with
      | '.' :: q => readFraction negative significand long.length q
      | 'e' :: q | 'E' :: q => readExponent negative significand long.length q
      | q =>
        if long.isEmpty then .number (wholeOf negative significand) q
        else .number (realOf negative significand long.length) q

/-! ### Texts -/

/-- The value of four hexadecimal digits. -/
def hexUnit? (s : List Char) : Except Fault (Nat × List Char) :=
  match s with
  | a :: b :: c :: d :: r =>
    match hexValue? a, hexValue? b, hexValue? c, hexValue? d with
    | some a, some b, some c, some d => .ok (((a * 16 + b) * 16 + c) * 16 + d, r)
    | _, _, _, _ => .error .malformed
  | s =>
    -- Bytes are counted here, and a character can have several.
    if (s.map Char.utf8Size).sum < 4 then .error .truncated else .error .malformed

/-- The first half of a surrogate pair. -/
def isHighHalf (n : Nat) : Bool := 0xD800 ≤ n && n ≤ 0xDBFF

/-- The second half of a surrogate pair. -/
def isLowHalf (n : Nat) : Bool := 0xDC00 ≤ n && n ≤ 0xDFFF

/-- What the reader of a text makes of an escaped unit: a character and whether the
escape behind it belongs to it, or a fault. -/
def unitChar (n : Nat) (rest : List Char) : Except Fault (Char × Bool) :=
  if isLowHalf n then .error .malformed
  else if isHighHalf n then
    match rest with
    | [] => .error .truncated
    | '\\' :: [] => .error .truncated
    | '\\' :: 'u' :: r => do
      let (low, _) ← hexUnit? r
      if isLowHalf low then
        return (Char.ofNat (0x10000 + (n - 0xD800) * 0x400 + (low - 0xDC00)), true)
      else .error .malformed
    | _ => .error .malformed
  else .ok (Char.ofNat n, false)

/-- The character an escape of one letter stands for. -/
def simpleEscape? : Char → Option Char
  | '"' => some '"'
  | '\\' => some '\\'
  | '/' => some '/'
  | 'b' => some '\x08'
  | 'f' => some '\x0c'
  | 'n' => some '\n'
  | 'r' => some '\r'
  | 't' => some '\t'
  | _ => none

/-- What has been read of a text: its characters, the last first, or the fault its
reader has met. -/
abbrev Gathered := Except Fault (List Char)

/-- A text as read so far, and the text behind it or the break in it. -/
structure TextRead where
  value : Except Fault String
  rest : Except Fault (List Char)

/-- One more character. -/
def Gathered.push (g : Gathered) (c : Char) : Gathered := g.map (c :: ·)

/-- A text that ends here. -/
def TextRead.done (g : Gathered) (rest : List Char) : TextRead :=
  ⟨g.map fun cs => String.ofList cs.reverse, .ok rest⟩

/-- A text that breaks off here. -/
def TextRead.stop (g : Gathered) (f : Fault) : TextRead :=
  ⟨(match g with | .error e => .error e | .ok _ => .error f), .error f⟩

/-- Reads a text behind its quote. The count bounds the steps; the number of characters
suffices. -/
def readText : Nat → Gathered → List Char → TextRead
  | 0, g, _ => .stop g .truncated
  | _ + 1, g, [] => .stop g .truncated
  | _ + 1, g, '"' :: r => .done g r
  | _ + 1, g, ['\\'] => .stop g .truncated
  | n + 1, g, '\\' :: 'u' :: r =>
    match hexUnit? r with
    | .error f => .stop g f
    | .ok (unit, rest) =>
      match unitChar unit rest with
      | .ok (c, true) => readText n (g.push c) (rest.drop 6)
      | .ok (c, false) => readText n (g.push c) rest
      | .error f => readText n (g.bind fun _ => .error f) rest
  | n + 1, g, '\\' :: c :: r =>
    match simpleEscape? c with
    | some d => readText n (g.push d) r
    | none => .stop g .malformed
  | n + 1, g, c :: r => if c.toNat < 0x20 then .stop g .malformed else readText n (g.push c) r

/-! ### Values -/

/-- A break in the place of a value; nothing behind it counts. -/
def Node.stop (b : Break) : Node × List Char := (.broken b, [])

mutual

/-- Reads a value. The count bounds the steps; twice the number of characters
suffices. -/
def readNode : Nat → List Char → Node × List Char
  | 0, _ => Node.stop (.alike .truncated)
  | n + 1, s =>
    match skipSpaces s with
    | [] => Node.stop (.alike .truncated)
    | 'n' :: r => word true "ull".toList .null r
    | 't' :: r => word false "rue".toList (.bool true) r
    | 'f' :: r => word false "alse".toList (.bool false) r
    | '"' :: r =>
      match readText (r.length + 1) (.ok []) r with
      | ⟨value, .ok rest⟩ => (.text value, rest)
      | ⟨.error e, .error f⟩ => Node.stop ⟨e, e, f, false⟩
      | ⟨.ok _, .error f⟩ => Node.stop (.alike f)
    | '[' :: r =>
      match skipSpaces r with
      | ']' :: q => (.array .closed, q)
      | [] => (.array (.broken .truncated), [])
      | q =>
        let (items, rest) := readItems n q
        (.array items, rest)
    | '\x7b' :: r =>
      match skipSpaces r with
      | '\x7d' :: q => (.object .closed, q)
      | [] => (.object (.broken .truncated), [])
      | '"' :: q =>
        let (fields, rest) := readFields n ('"' :: q)
        (.object fields, rest)
      | q =>
        let asValue := match (readNode n q).1 with
          | .broken b => b.read
          | .number none => .malformed
          | _ => .mismatch
        (.object (.brokenKey .malformed asValue .malformed), [])
    | c :: r =>
      let read := if c = '-' then readNumber true r
        else if isDigit c then readNumber false (c :: r)
        else .broken (.alike .malformed)
      match read with
      | .number v rest => (.number v, rest)
      | .broken b => Node.stop b
where
  word (isNull : Bool) (letters : List Char) (v : Node) (r : List Char) : Node × List Char :=
    match literal letters r with
    | .ok rest => (v, rest)
    | .error f => Node.stop (.inLiteral isNull f)

/-- Reads an item and what follows it. -/
def readItems : Nat → List Char → Items × List Char
  | 0, _ => (.broken .truncated, [])
  | n + 1, s =>
    let (v, rest) := readNode n s
    match skipSpaces rest with
    | [] => (.item v (.broken .truncated), [])
    | ']' :: r => (.item v .closed, r)
    | ',' :: r =>
      match skipSpaces r with
      | ']' :: _ => (.item v (.broken .malformed), [])
      | q =>
        let (items, rest) := readItems n q
        (.item v items, rest)
    | _ => (.item v (.broken .malformed), [])

/-- Reads a field and what follows it; the text starts with the quote of the key. -/
def readFields : Nat → List Char → Fields × List Char
  | 0, _ => (.broken .truncated, [])
  | n + 1, s =>
    let key := readText s.length (.ok []) (s.drop 1)
    match key.rest with
    | .error f =>
      let read := match key.value with
        | .error e => e
        | .ok _ => f
      (.brokenKey read read f, [])
    | .ok rest =>
      match skipSpaces rest with
      | [] => (.field key.value (.broken (.alike .truncated)) (.broken .truncated), [])
      | ':' :: r =>
        let (v, rest) := readNode n r
        let (fields, rest) := match skipSpaces rest with
          | [] => (Fields.broken .truncated, [])
          | '\x7d' :: r => (Fields.closed, r)
          | ',' :: r =>
            match skipSpaces r with
            | [] => (Fields.brokenKey .truncated .truncated .truncated, [])
            | '"' :: q => readFields n ('"' :: q)
            | _ => (Fields.brokenKey .malformed .malformed .malformed, [])
          | _ => (Fields.broken .malformed, [])
        (.field key.value v fields, rest)
      | _ => (.field key.value (.broken (.alike .malformed)) (.broken .malformed), [])

end

/-- A text as a tree, and whether characters follow the value. -/
def document (text : List Char) : Node × Bool :=
  let (v, rest) := readNode (2 * text.length + 2) text
  (v, !(skipSpaces rest).isEmpty)

end Roundtable.Json
