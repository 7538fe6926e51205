import Snippets.Yaml.Quoted
import Snippets.Yaml.Scalar

/-!
Reading a document: block mappings and lists by their columns, flow collections in brackets and
braces, and scalars. A mapping keeps its keys in order of first appearance with the last value of
each. What cannot be read has no value.

This is a part of YAML 1.1. Block scalars (`|` and `>`), anchors, aliases, tags and keys marked with
`?` are not read, so a document with one of them has no value here, and a date is read as text.
-/

namespace Snippets.Yaml

/-- Whether a character may stand in a document. -/
def isAllowed (c : CodePoint) : Bool :=
  c = 0x09 || c = 0x0a || c = 0x0d || (0x20 ≤ c.val && c.val ≤ 0x7e) || c = 0x85 ||
  (0xa0 ≤ c.val && c.val ≤ 0xd7ff) || (0xe000 ≤ c.val && c.val ≤ 0xfffd) || 0x10000 ≤ c.val

/-- The characters that have a meaning inside brackets and braces. -/
def isFlowMark (c : CodePoint) : Bool :=
  c = 0x2c || c = 0x5b || c = 0x5d || c = 0x7b || c = 0x7d

/-- Whether a colon with this behind it ends a key. -/
def endsKey (flow : Bool) (rest : Text) : Bool :=
  endsToken rest || (flow && (rest.head?.map isFlowMark).getD false)

/-- The characters with which a scalar without quotes cannot start. -/
def isIndicator (c : CodePoint) : Bool := (text "-?:,[]\x7b\x7d#&*!|>'\"%@`").contains c

def startsPlain (flow : Bool) : Text → Bool
  | [] => false
  | c :: rest =>
    if c = space || c = tab || isBreak c then false
    else if isIndicator c then
      !endsToken rest && (c = dash || (!flow && (c = 0x3f || c = colon)))
    else true

/-- The part of a scalar without quotes on one line, after `pending` spaces; it ends before a
comment, a key's colon, a tab and, in a flow collection, its marks. -/
def plainLine (flow : Bool) : (pending : Nat) → Text → Text × Text
  | _, [] => ([], [])
  | pending, c :: rest =>
    if c = space then plainLine flow (pending + 1) rest
    else if isBreak c || c = tab || (c = hash && 0 < pending) || (c = colon && endsKey flow rest) ||
        (flow && (isFlowMark c || c = 0x3f)) then ([], c :: rest)
    else
      let (body, rest) := plainLine flow 0 rest
      (List.replicate pending space ++ c :: body, rest)

/-- A scalar without quotes, with the lines that continue it: in a block they stand further to the
right than the surrounding block. -/
def plainLines (flow : Bool) (indent : Nat) : (fuel : Nat) → Cursor → Text × Cursor
  | 0, c => ([], c)
  | fuel + 1, c =>
    let (body, rest) := plainLine flow 0 c.rest
    let after := c.goto rest
    if (after.rest.head?.map isBreak).getD false then
      let breaks := (after.rest.takeWhile fun p => p = space || isBreak p).countP isBreak
      let next := after.goto (after.rest.dropWhile fun p => p = space || isBreak p)
      if next.atEnd || next.sees hash || next.atAnyMark || (!flow && next.column < indent) ||
          (plainLine flow 0 next.rest).1.isEmpty then (body, after)
      else
        let (more, last) := plainLines flow indent fuel next
        (body ++ folded breaks ++ more, last)
    else (body, after)

/-- A scalar in quotes. -/
def quotedScalar (c : Cursor) : Option (Value × Cursor) := do
  let q ← c.rest.head?
  let (body, rest) ← quotedBody (q = 0x22) c.rest.length (c.rest.drop 1)
  return (.text body, c.goto rest)

def atQuote (c : Cursor) : Bool := c.sees 0x22 || c.sees 0x27

def atFlow (c : Cursor) : Bool := c.sees 0x5b || c.sees 0x7b

/-- Adds an entry; collections are no keys. -/
def insert (key value : Value) (entries : List (Value × Value)) : Option (List (Value × Value)) :=
  match key with
  | .list _ | .tuple _ | .map _ => none
  | key => some (Value.insertEntry key value entries)

mutual

/-- A node inside a flow collection. -/
def flowNode : (fuel : Nat) → Cursor → Option (Value × Cursor)
  | 0, _ => none
  | fuel + 1, c =>
    if c.sees 0x5b then flowItems fuel [] c.next
    else if c.sees 0x7b then flowEntries fuel [] c.next
    else if atQuote c then quotedScalar c
    else if startsPlain true c.rest then
      let (body, after) := plainLines true 0 c.rest.length c
      some (resolve body, after)
    else none

/-- The value after the colon of a flow entry. -/
def flowValue : (fuel : Nat) → Cursor → Option (Value × Cursor)
  | 0, _ => none
  | fuel + 1, c =>
    let c := c.skip
    if c.sees 0x2c || c.sees 0x5d || c.sees 0x7d then some (.null, c) else flowNode fuel c

/-- The items up to the closing bracket. A key with a value is a mapping of its own. -/
def flowItems : (fuel : Nat) → List Value → Cursor → Option (Value × Cursor)
  | 0, _, _ => none
  | fuel + 1, items, c => do
    let c := c.skip
    if c.sees 0x5d then some (.list items, c.next)
    else
      let (v, c) ← flowNode fuel c
      let c := c.skip
      let (v, c) ← if c.sees colon then do
          let (w, c) ← flowValue fuel c.next
          let entries ← insert v w []
          some (Value.map entries, c.skip)
        else some (v, c)
      if c.sees 0x2c then flowItems fuel (items ++ [v]) c.next
      else if c.sees 0x5d then some (.list (items ++ [v]), c.next)
      else none

/-- The entries up to the closing brace. -/
def flowEntries : (fuel : Nat) → List (Value × Value) → Cursor → Option (Value × Cursor)
  | 0, _, _ => none
  | fuel + 1, entries, c => do
    let c := c.skip
    if c.sees 0x7d then some (.map entries, c.next)
    else
      let (k, c) ← flowNode fuel c
      let c := c.skip
      let (v, c) ← if c.sees colon then flowValue fuel c.next else some (.null, c)
      let c := c.skip
      let entries ← insert k v entries
      if c.sees 0x2c then flowEntries fuel entries c.next
      else if c.sees 0x7d then some (.map entries, c.next)
      else none

end

/-- A scalar on one line or a flow collection, as a key may be. -/
def keyNode (c : Cursor) : Option (Value × Cursor) :=
  if atFlow c then flowNode (2 * c.rest.length + 2) c
  else if atQuote c then quotedScalar c
  else if startsPlain false c.rest then
    let (body, rest) := plainLine false 0 c.rest
    some (resolve body, c.goto rest)
  else none

/-- Whether a key starts here: a node on this line with a colon behind it. -/
def key? (c : Cursor) : Option (Value × Cursor) := do
  let (k, after) ← keyNode c
  let after := after.skipSpaces
  if after.atColon && after.line = c.line then some (k, after.next) else none

/-- A node that is no block collection, in a block whose content is right of `indent`. -/
def inlineNode (indent : Nat) (c : Cursor) : Option (Value × Cursor) := do
  let (v, after) ←
    if atFlow c then flowNode (2 * c.rest.length + 2) c
    else if atQuote c then quotedScalar c
    else if startsPlain false c.rest then
      let (body, after) := plainLines false indent c.rest.length c
      some (resolve body, after)
    else none
  if after.skipSpaces.atColon then none else some (v, after)

mutual

/-- A node of a block; its lines stand right of `indent`. -/
def blockNode : (fuel : Nat) → (indent : Nat) → Cursor → Option (Value × Cursor)
  | 0, _, _ => none
  | fuel + 1, indent, c =>
    if c.atDash then blockItems fuel c.column [] c
    else
      match key? c with
      | some _ => blockEntries fuel c.column [] c
      | none => inlineNode indent c

/-- The entries of a block list whose dashes stand in one column. -/
def blockItems : (fuel : Nat) → (column : Nat) → List Value → Cursor → Option (Value × Cursor)
  | 0, _, _, _ => none
  | fuel + 1, column, items, c => do
    let start := c.next.skipSpaces
    let (v, c) ←
      if start.atLineEnd then
        let start := start.skip
        if start.atEnd || start.column ≤ column then some (.null, start)
        else blockNode fuel (column + 1) start
      else blockNode fuel (column + 1) start
    let items := items ++ [v]
    let c := c.skip
    if c.atEnd || c.column < column || c.atAnyMark then some (.list items, c)
    else if c.column > column then none
    else if c.atDash then blockItems fuel column items c
    else some (.list items, c)

/-- The entries of a block mapping whose keys stand in one column. -/
def blockEntries : (fuel : Nat) → (column : Nat) → List (Value × Value) → Cursor →
    Option (Value × Cursor)
  | 0, _, _, _ => none
  | fuel + 1, column, entries, c => do
    let (k, c) ← key? c
    let start := c.skipSpaces
    let (v, c) ←
      if start.atLineEnd then
        let start := start.skip
        if start.atEnd || start.column < column || start.atAnyMark then some (.null, start)
        else if start.column = column then
          if start.atDash then blockItems fuel column [] start else some (.null, start)
        else blockNode fuel (column + 1) start
      else inlineNode (column + 1) start
    let entries ← insert k v entries
    let c := c.skip
    if c.atEnd || c.column < column || c.atAnyMark then some (.map entries, c)
    else if c.column > column || c.atDash then none
    else blockEntries fuel column entries c

end

/-- The value of a document; a document without content has the value null. -/
def parse (t : Text) : Option Value := do
  if !t.all isAllowed then none
  else
    let t := if t.head? = some 0xfeff then t.drop 1 else t
    let fuel := 2 * t.length + 2
    let c := (Cursor.mk t 0 0).skip
    let c := if c.atMark (text "---") then (c.next.next.next).skip else c
    if c.atEnd then some .null
    else
      let (v, c) ← if c.atAnyMark then some (.null, c) else blockNode fuel 0 c
      let c := c.skip
      let c := if c.atMark (text "...") then (c.next.next.next).skip else c
      if c.atEnd then some v else none

end Snippets.Yaml
