import Roundtable.Yaml.Token

/-!
# YAML documents

A document is a tree of scalars, sequences and mappings, in which a node with an anchor may
be used again by an alias. Nodes may be missing nearly everywhere; a missing node is an
empty plain scalar.

Aliases keep the number of their anchor, so **a document is a finite tree even where an
alias stands inside the node it names**. An anchor's number is the count of names in front
of it; of the nodes with one number the one that starts last counts.
-/

namespace Roundtable.Yaml

/-- A value in a document. -/
inductive Node
  | scalar (text : String) (style : ScalarStyle) (tag : Option String)
  | sequence (items : List Node) (tag : Option String)
  | mapping (fields : List (Node × Node)) (tag : Option String)
  | alias (number : Nat)
deriving Repr, Inhabited

/-- What stands where a node is missing. -/
def Node.missing : Node := .scalar "" .plain none

/-- A node that aliases can name. -/
structure Anchored where
  number : Nat
  /-- The count of anchors in front, names that came twice included. -/
  order : Nat
  node : Node
deriving Inhabited

/-- A whole document. -/
structure Document where
  root : Node
  anchored : List Anchored

/-- The node an alias stands for. -/
def Document.target? (d : Document) (number : Nat) : Option Node :=
  let same := d.anchored.filter (·.number == number)
  (same.find? fun a => same.all fun b => b.order ≤ a.order).map (·.node)

/-! ### Reading tokens -/

/-- What is left to read, and the names and anchored nodes so far. -/
structure Reading where
  rest : List Token
  /-- What tag handles stand for. -/
  handles : List (String × String)
  names : List (String × Nat)
  count : Nat
  anchored : List Anchored

namespace Reading

/-- The next token is `t`. -/
def isAt (r : Reading) (t : Token) : Bool := r.rest.head? == some t

/-- The text ends here or one of `ts` stands here. -/
def isAtOne (r : Reading) (ts : List Token) : Bool := r.rest.head?.elim true ts.contains

/-- One token further. -/
def skip (r : Reading) : Reading := { r with rest := r.rest.tail }

/-- Past the token `t`, which must stand here. -/
def expect? (r : Reading) (t : Token) : Option Reading := if r.isAt t then some r.skip else none

/-- Takes an anchor, if one stands here. -/
def anchor? (r : Reading) : Option String × Reading :=
  match r.rest with
  | .anchor name :: _ => (some name, r.skip)
  | _ => (none, r)

/-- Takes a tag, if one stands here; its handle must stand for something. -/
def tag? (r : Reading) : Option (Option String × Reading) :=
  match r.rest with
  | .tag handle name :: _ =>
    if handle.isEmpty then some (some name, r.skip)
    else (r.handles.lookup handle).map fun meaning => (some (meaning ++ name), r.skip)
  | _ => some (none, r)

/-- Takes an anchor and a tag in either order. -/
def properties? (r : Reading) : Option (Option String × Option String × Reading) := do
  let (anchor, r) := r.anchor?
  let (tag, r) ← r.tag?
  if anchor.isSome then return (anchor, tag, r)
  else
    let (anchor, r) := if tag.isSome then r.anchor? else (anchor, r)
    return (anchor, tag, r)

/-- Gives an anchor its number, and returns how to keep the node it names. -/
def name (r : Reading) : Option String → (Node → Reading → Reading) × Reading
  | none => (fun _ r => r, r)
  | some name =>
    let number := r.names.length
    (fun node r' => { r' with anchored := ⟨number, r.count, node⟩ :: r'.anchored },
      { r with count := r.count + 1,
               names := (name, number) :: r.names.filter (·.1 != name) })

end Reading

/-! ### The grammar

The readers share one bound on their steps; four for each token and a few suffice. -/

mutual

/-- Reads a node. In a `block` it may be a block, and an `indentless` one may be a sequence
at the column of its mapping. -/
def node? (block indentless : Bool) : Nat → Reading → Option (Node × Reading)
  | 0, _ => none
  | n + 1, r =>
    match r.rest with
    | .alias name :: _ => do return (.alias (← r.names.lookup name), r.skip)
    | _ => do
      let (anchor, tag, r) ← r.properties?
      let (keep, r) := r.name anchor
      let (node, r) ← match r.rest with
        | .entry :: _ =>
          if indentless then do
            let (items, r) ← looseItems? n [] r
            some (Node.sequence items tag, r)
          else bare? anchor tag r
        | .scalar text style :: _ => some (Node.scalar text style tag, r.skip)
        | .flowSequenceStart :: _ => do
          let (items, r) ← flowItems? true n [] r.skip
          some (Node.sequence items tag, r)
        | .flowMappingStart :: _ => do
          let (fields, r) ← flowFields? true n [] r.skip
          some (Node.mapping fields tag, r)
        | .sequenceStart :: _ =>
          if block then do
            let (items, r) ← items? n [] r.skip
            some (Node.sequence items tag, r)
          else bare? anchor tag r
        | .mappingStart :: _ =>
          if block then do
            let (fields, r) ← fields? n [] r.skip
            some (Node.mapping fields tag, r)
          else bare? anchor tag r
        | _ => bare? anchor tag r
      return (node, keep node r)

/-- A node with an anchor or a tag and nothing else. -/
def bare? (anchor tag : Option String) (r : Reading) : Option (Node × Reading) :=
  if anchor.isSome || tag.isSome then some (.scalar "" .plain tag, r) else none

/-- A node, or a missing one in front of one of `ends`. -/
def nodeOrMissing? (block indentless : Bool) (ends : List Token) :
    Nat → Reading → Option (Node × Reading)
  | 0, _ => none
  | n + 1, r => if r.isAtOne ends then some (.missing, r) else node? block indentless n r

/-- The items of a block, up to its end. -/
def items? : Nat → (acc : List Node) → Reading → Option (List Node × Reading)
  | 0, _, _ => none
  | n + 1, acc, r =>
    if r.isAt .entry then do
      let (item, r) ← nodeOrMissing? true false [.entry, .blockEnd] n r.skip
      items? n (item :: acc) r
    else do return (acc.reverse, ← r.expect? .blockEnd)

/-- Items at the column of the mapping around them; they end with the last of them. -/
def looseItems? : Nat → (acc : List Node) → Reading → Option (List Node × Reading)
  | 0, _, _ => none
  | n + 1, acc, r =>
    if r.isAt .entry then do
      let (item, r) ← nodeOrMissing? true false [.entry, .key, .value, .blockEnd] n r.skip
      looseItems? n (item :: acc) r
    else some (acc.reverse, r)

/-- The fields of a block, up to its end. -/
def fields? : Nat → (acc : List (Node × Node)) → Reading → Option (List (Node × Node) × Reading)
  | 0, _, _ => none
  | n + 1, acc, r =>
    if r.isAt .key then do
      let ends := [Token.key, .value, .blockEnd]
      let (k, r) ← nodeOrMissing? true true ends n r.skip
      let (v, r) ← if r.isAt .value then nodeOrMissing? true true ends n r.skip
        else some (.missing, r)
      fields? n ((k, v) :: acc) r
    else do return (acc.reverse, ← r.expect? .blockEnd)

/-- The items between brackets; a pair among them is a mapping of one field. -/
def flowItems? (first : Bool) : Nat → (acc : List Node) → Reading → Option (List Node × Reading)
  | 0, _, _ => none
  | n + 1, acc, r =>
    if r.isAt .flowSequenceEnd then some (acc.reverse, r.skip)
    else do
      let r ← if first then some r else r.expect? .flowEntry
      if r.isAt .key then
        let r := r.skip
        let (k, r) ← if r.isAtOne [.value, .flowEntry, .flowSequenceEnd] then
            some (Node.missing, r.skip)
          else node? false false n r
        let (v, r) ← if r.isAt .value then
            nodeOrMissing? false false [.flowEntry, .flowSequenceEnd] n r.skip
          else some (.missing, r)
        flowItems? false n (.mapping [(k, v)] none :: acc) r
      else if r.isAt .flowSequenceEnd then return (acc.reverse, r.skip)
      else
        let (item, r) ← node? false false n r
        flowItems? false n (item :: acc) r

/-- The fields between braces. -/
def flowFields? (first : Bool) : Nat → (acc : List (Node × Node)) → Reading →
    Option (List (Node × Node) × Reading)
  | 0, _, _ => none
  | n + 1, acc, r =>
    if r.isAt .flowMappingEnd then some (acc.reverse, r.skip)
    else do
      let r ← if first then some r else r.expect? .flowEntry
      if r.isAt .key then
        let ends := [Token.value, .flowEntry, .flowMappingEnd]
        let (k, r) ← nodeOrMissing? false false ends n r.skip
        let (v, r) ← if r.isAt .value then
            nodeOrMissing? false false [.flowEntry, .flowMappingEnd] n r.skip
          else some (.missing, r)
        flowFields? false n ((k, v) :: acc) r
      else if r.isAt .flowMappingEnd then return (acc.reverse, r.skip)
      else
        let (k, r) ← node? false false n r
        flowFields? false n ((k, .missing) :: acc) r

end

/-! ### One document -/

/-- Reads the directives in front of a document: whether the version was given, and what
handles stand for. Neither may be settled twice. -/
def directives? : (version : Bool) → (handles : List (String × String)) → List Token →
    Option (Bool × List (String × String) × List Token)
  | version, handles, .version major minor :: r =>
    if version || major ≠ 1 || (minor ≠ 1 && minor ≠ 2) then none else directives? true handles r
  | version, handles, .handle name meaning :: r =>
    if (handles.lookup name).isSome then none
    else directives? version ((name, meaning) :: handles) r
  | version, handles, r => some (version, handles, r)

/-- What the handles stand for that no directive settles. -/
def standardHandles : List (String × String) := [("!", "!"), ("!!", "tag:yaml.org,2002:")]

/-- **The document of a text that holds exactly one.** -/
def Document.ofText? (text : String) : Option Document := do
  let ts := (← tokens? text).toList
  let (version, handles, rest) ← directives? false [] ts
  let start : Reading := ⟨rest, handles ++ standardHandles, [], 0, []⟩
  let bound := 4 * ts.length + 8
  let (root, r) ←
    if start.isAt .documentStart then
      nodeOrMissing? true false [.documentEnd] bound start.skip
    else if version || !handles.isEmpty || rest.isEmpty then none
    else node? true false bound start
  if r.rest.all (· == .documentEnd) then return ⟨root, r.anchored⟩ else none

end Roundtable.Yaml
