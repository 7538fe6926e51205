import Snippets.Yaml.Cursor

/-!
Scalars in quotes. Between single quotes only a doubled quote is special; between double quotes a
backslash starts an escape. A line break inside is folded: with the blanks around it, it becomes
one space, and each further break stays.
-/

namespace Snippets.Yaml

def isBlankOrTab (c : CodePoint) : Bool := c = space || c = tab

/-- The line breaks in front, with the blanks among them, and what follows. -/
def takeBreaks : Text → Nat × Text
  | [] => (0, [])
  | c :: rest =>
    if isBreak c then
      let (n, rest) := takeBreaks rest
      (n + 1, rest)
    else if isBlankOrTab c then takeBreaks rest
    else (0, c :: rest)

/-- What a number of line breaks in a row is folded into. -/
def folded (breaks : Nat) : Text :=
  if breaks ≤ 1 then [space] else List.replicate (breaks - 1) 0x0a

/-- What a letter after a backslash stands for. -/
def escapeLetter? (c : CodePoint) : Option CodePoint :=
  let letters : List (CodePoint × CodePoint) :=
    [(0x30, 0x00), (0x61, 0x07), (0x62, 0x08), (0x74, 0x09), (0x09, 0x09), (0x6e, 0x0a),
     (0x76, 0x0b), (0x66, 0x0c), (0x72, 0x0d), (0x65, 0x1b), (0x20, 0x20), (0x22, 0x22),
     (0x5c, 0x5c), (0x2f, 0x2f), (0x4e, 0x85), (0x5f, 0xa0), (0x4c, 0x2028), (0x50, 0x2029)]
  letters.lookup c

/-- The number of hexadecimal digits after an escape letter. -/
def escapeWidth? (c : CodePoint) : Option Nat :=
  ([(0x78, 2), (0x75, 4), (0x55, 8)] : List (CodePoint × Nat)).lookup c

def hexValue? (t : Text) : Option Nat := t.foldlM (fun n c => (n * 16 + ·) <$> c.hexValue?) 0

/-- The text up to the closing quote, and what follows it. -/
def quotedBody (double : Bool) : (fuel : Nat) → Text → Option (Text × Text)
  | 0, _ => none
  | _, [] => none
  | fuel + 1, c :: rest =>
    let more (front : Text) (rest : Text) : Option (Text × Text) := do
      let (body, rest) ← quotedBody double fuel rest
      return (front ++ body, rest)
    if c = (if double then 0x22 else 0x27) then
      if !double && rest.head? = some c then more [c] (rest.drop 1) else some ([], rest)
    else if double && c = 0x5c then
      match rest with
      | [] => none
      | e :: rest =>
        match escapeLetter? e, escapeWidth? e with
        | some p, _ => more [p] rest
        | none, some width => do
          let n ← if (rest.take width).length = width then hexValue? (rest.take width) else none
          if h : n < 0x110000 then more [⟨n, h⟩] (rest.drop width) else none
        | none, none =>
          if isBreak e then
            let (n, rest) := takeBreaks rest
            more (List.replicate n 0x0a) rest
          else none
    else if isBlankOrTab c || isBreak c then
      let blanks := (c :: rest).takeWhile isBlankOrTab
      let after := (c :: rest).dropWhile isBlankOrTab
      match after with
      | [] => none
      | d :: _ =>
        if isBreak d then
          let (n, rest) := takeBreaks after
          more (folded n) rest
        else more blanks after
    else more [c] rest

end Snippets.Yaml
