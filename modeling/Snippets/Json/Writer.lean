import Snippets.Value

/-!
JSON text of a value, in code points `U+0020` to `U+007E` only: what lies outside is written as
`\u` escapes of sixteen-bit units. `compact` writes one line, `indented` one item per line.
-/

namespace Snippets.Json

/-- A sixteen-bit unit as an escape. -/
def escapeUnit (n : Nat) : Text := text "\\u" ++ Text.hex 4 n

/-- How one code point is written inside a string. -/
def escapePoint (c : CodePoint) : Text :=
  if c = 0x22 then text "\\\""
  else if c = 0x5c then text "\\\\"
  else if c = 0x08 then text "\\b"
  else if c = 0x0c then text "\\f"
  else if c = 0x0a then text "\\n"
  else if c = 0x0d then text "\\r"
  else if c = 0x09 then text "\\t"
  else if 0x20 ≤ c.val ∧ c.val ≤ 0x7e then [c]
  else if c.val < 0x10000 then escapeUnit c.val
  else
    escapeUnit (0xd800 + (c.val - 0x10000) / 0x400) ++
      escapeUnit (0xdc00 + (c.val - 0x10000) % 0x400)

def string (t : Text) : Text := text "\"" ++ t.flatMap escapePoint ++ text "\""

def real (x : Real64) : Text :=
  match x.classify with
  | .notANumber => text "NaN"
  | .infinite negative => text (if negative then "-Infinity" else "Infinity")
  | .finite _ => x.render

def boolean (b : Bool) : Text := text (if b then "true" else "false")

/-- A key is written as text. -/
def key : Value → Text
  | .text t => string t
  | .null => string (text "null")
  | .bool b => string (boolean b)
  | v => string v.render

mutual

/-- One line, with a blank after each comma and colon. -/
def compact : Value → Text
  | .null => text "null"
  | .bool b => boolean b
  | .int i => Text.ofInt i
  | .real x => real x
  | .text t => string t
  | .list xs => text "[" ++ compactItems xs ++ text "]"
  | .tuple xs => text "[" ++ compactItems xs ++ text "]"
  | .map es => text "\x7b" ++ compactEntries es ++ text "\x7d"

def compactItems : List Value → Text
  | [] => []
  | [x] => compact x
  | x :: y :: rest => compact x ++ text ", " ++ compactItems (y :: rest)

def compactEntries : List (Value × Value) → Text
  | [] => []
  | [(k, v)] => key k ++ text ": " ++ compact v
  | (k, v) :: e :: rest =>
    key k ++ text ": " ++ compact v ++ text ", " ++ compactEntries (e :: rest)

end

/-- A line break followed by two blanks per level. -/
def newline (level : Nat) : Text := 0x0a :: List.replicate (2 * level) 0x20

mutual

/-- The value at a nesting level, one item per line. -/
def indentedAt (level : Nat) : Value → Text
  | .list [] => text "[]"
  | .tuple [] => text "[]"
  | .map [] => text "\x7b\x7d"
  | .list xs => text "[" ++ indentedItems (level + 1) xs ++ newline level ++ text "]"
  | .tuple xs => text "[" ++ indentedItems (level + 1) xs ++ newline level ++ text "]"
  | .map es => text "\x7b" ++ indentedEntries (level + 1) es ++ newline level ++ text "\x7d"
  | .null => text "null"
  | .bool b => boolean b
  | .int i => Text.ofInt i
  | .real x => real x
  | .text t => string t

def indentedItems (level : Nat) : List Value → Text
  | [] => []
  | [x] => newline level ++ indentedAt level x
  | x :: y :: rest =>
    newline level ++ indentedAt level x ++ text "," ++ indentedItems level (y :: rest)

def indentedEntries (level : Nat) : List (Value × Value) → Text
  | [] => []
  | [(k, v)] => newline level ++ key k ++ text ": " ++ indentedAt level v
  | (k, v) :: e :: rest =>
    newline level ++ key k ++ text ": " ++ indentedAt level v ++ text "," ++
      indentedEntries level (e :: rest)

end

def indented (v : Value) : Text := indentedAt 0 v

end Snippets.Json
