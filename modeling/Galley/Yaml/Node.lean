/-
# Nodes of a YAML document

A document is one node: a scalar, a sequence or a mapping.  An anchored node is repeated wherever
its alias stands; two anchors of one name, and aliases without an anchor before them, are errors,
and so is a second document in the text.
-/

import Galley.Yaml.Token

namespace Galley
namespace Yaml

/-- A node.  Only plain scalars may stand for something else than their text. -/
inductive Node where
  | scalar (text : WideText) (plain : Bool)
  | sequence (items : List Node)
  | mapping (pairs : List (Node × Node))
  deriving Repr, Inhabited

namespace Node

/-- The node where nothing is written. -/
def empty : Node := .scalar [] true

/-- What is left to read, the anchored nodes and the names of all anchors met. -/
structure Reading where
  rest : List Token
  anchored : List (Text × Node)
  names : List Text

namespace Reading

/-- Goes on with the tokens `rest`. -/
def leaving (r : Reading) (rest : List Token) : Reading := { r with rest }

/-- The node of an anchor. -/
def find? (r : Reading) (name : Text) : Option Node :=
  (r.anchored.find? fun a => a.1 == name).map Prod.snd

/-- Whether one of some tokens is next. -/
def next (r : Reading) (ts : List Token) : Bool :=
  match r.rest with
  | [] => false
  | t :: _ => ts.contains t

end Reading

mutual
/-- Reads a node.  Blocks may stand outside of brackets only (`block`); the entries of a sequence
that is the value of a key may stand in the column of the key (`indentless`). -/
def read : Nat → Bool → Bool → Reading → Option (Node × Reading)
  | 0, _, _, _ => none
  | fuel + 1, block, indentless, r =>
    match r.rest with
    | .alias name :: ts => (r.find? name).map fun n => (n, r.leaving ts)
    | .anchor name :: ts =>
      if r.names.contains name then none
      else
        (readContent fuel block indentless true { r with rest := ts, names := name :: r.names }).map
          fun (n, r) => (n, { r with anchored := (name, n) :: r.anchored })
    | _ => readContent fuel block indentless false r

/-- Reads a node behind its anchor; an anchored node may be left out. -/
def readContent : Nat → Bool → Bool → Bool → Reading → Option (Node × Reading)
  | 0, _, _, _, _ => none
  | fuel + 1, block, indentless, isAnchored, r =>
    let absent : Option (Node × Reading) := if isAnchored then some (empty, r) else none
    match r.rest with
    | .scalar t plain :: ts => some (.scalar t plain, r.leaving ts)
    | .flowSequenceStart :: ts =>
      (readFlow fuel .flowSequenceEnd true (r.leaving ts)).map fun (items, r) =>
        (.sequence (items.map fun (n, v) =>
          match v with
          | none => n
          | some v => .mapping [(n, v)]), r)
    | .flowMappingStart :: ts =>
      (readFlow fuel .flowMappingEnd true (r.leaving ts)).map fun (items, r) =>
        (.mapping (items.map fun (n, v) => (n, v.getD empty)), r)
    | .sequenceStart :: ts =>
      if block then
        (readEntries fuel false (r.leaving ts)).map fun (items, r) => (.sequence items, r)
      else absent
    | .mappingStart :: ts =>
      if block then (readPairs fuel (r.leaving ts)).map fun (pairs, r) => (.mapping pairs, r)
      else absent
    | .entry :: _ =>
      if indentless then (readEntries fuel true r).map fun (items, r) => (.sequence items, r)
      else absent
    | _ => absent

/-- Reads a node that may be left out before one of the tokens `ends`. -/
def readOptional : Nat → Bool → List Token → Reading → Option (Node × Reading)
  | 0, _, _, _ => none
  | fuel + 1, block, ends, r =>
    if r.next ends then some (empty, r) else read fuel block block r

/-- Reads the value of a key, if there is a colon. -/
def readValue : Nat → Bool → List Token → Reading → Option (Node × Reading)
  | 0, _, _, _ => none
  | fuel + 1, block, ends, r =>
    match r.rest with
    | .value :: ts => readOptional fuel block ends (r.leaving ts)
    | _ => some (empty, r)

/-- Reads the entries of a block sequence up to its end. -/
def readEntries : Nat → Bool → Reading → Option (List Node × Reading)
  | 0, _, _ => none
  | fuel + 1, indentless, r =>
    match r.rest with
    | .entry :: ts => do
      let ends : List Token :=
        [.entry, .blockEnd] ++ if indentless then [.key, .value] else []
      let (n, r) ← if (r.leaving ts).next ends then some (empty, r.leaving ts)
        else read fuel true false (r.leaving ts)
      let (ns, r) ← readEntries fuel indentless r
      return (n :: ns, r)
    | .blockEnd :: ts => if indentless then some ([], r) else some ([], r.leaving ts)
    | _ => if indentless then some ([], r) else none

/-- Reads the pairs of a block mapping up to its end. -/
def readPairs : Nat → Reading → Option (List (Node × Node) × Reading)
  | 0, _ => none
  | fuel + 1, r =>
    let ends : List Token := [.key, .value, .blockEnd]
    match r.rest with
    | .key :: ts => do
      let (k, r) ← readOptional fuel true ends (r.leaving ts)
      let (v, r) ← readValue fuel true ends r
      let (ps, r) ← readPairs fuel r
      return ((k, v) :: ps, r)
    | .blockEnd :: ts => some ([], r.leaving ts)
    | _ => none

/-- Reads what stands between brackets up to the token `close`: nodes and pairs. -/
def readFlow : Nat → Token → Bool → Reading → Option (List (Node × Option Node) × Reading)
  | 0, _, _, _ => none
  | fuel + 1, close, first, r =>
    if r.next [close] then some ([], r.leaving r.rest.tail)
    else if !first && !r.next [.flowEntry] then none
    else
      let r := if first then r else r.leaving r.rest.tail
      let ends : List Token := [.flowEntry, close]
      match r.rest with
      | .key :: ts => do
        let (k, r) ← readOptional fuel false (.value :: ends) (r.leaving ts)
        let (v, r) ← readValue fuel false ends r
        let (items, r) ← readFlow fuel close false r
        return ((k, some v) :: items, r)
      | _ =>
        if r.next [close] then some ([], r.leaving r.rest.tail)
        else do
          let (n, r) ← read fuel false false r
          let (items, r) ← readFlow fuel close false r
          return ((n, none) :: items, r)
end

/-- The node of a document that consists of the tokens `ts`, or of no document at all. -/
def ofTokens? (ts : List Token) : Option Node := do
  let fuel := 4 * ts.length + 4
  let reading (rest : List Token) : Reading := ⟨rest, [], []⟩
  let (n, r) ← match ts with
    | [] => some (empty, reading [])
    | .documentStart :: ts =>
      if ts.isEmpty then some (empty, reading [])
      else if (reading ts).next [.documentStart, .documentEnd] then some (empty, reading ts)
      else read fuel true false (reading ts)
    | ts => read fuel true false (reading ts)
  if (r.rest.dropWhile fun t => t == .documentEnd).isEmpty then some n else none

end Node
end Yaml
end Galley
