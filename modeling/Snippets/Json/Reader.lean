import Snippets.Value

/-!
Reading JSON text. Numbers with a fraction or an exponent are real, all others exact integers; a
repeated key keeps its first place and its last value; the units of an escaped surrogate pair are
joined.
-/

namespace Snippets.Json

def isSpace (c : CodePoint) : Bool := c = 0x20 || c = 0x09 || c = 0x0a || c = 0x0d

def skipSpace (t : Text) : Text := t.dropWhile isSpace

/-- The value of four hexadecimal digits. -/
def unit? (a b c d : CodePoint) : Option Nat := do
  let a ← a.hexValue?
  let b ← b.hexValue?
  let c ← c.hexValue?
  let d ← d.hexValue?
  return ((a * 16 + b) * 16 + c) * 16 + d

/-- The code point that a one-letter escape stands for. -/
def escapeLetter? (c : CodePoint) : Option CodePoint :=
  if c = 0x22 ∨ c = 0x5c ∨ c = 0x2f then some c
  else if c = 0x62 then some 0x08
  else if c = 0x66 then some 0x0c
  else if c = 0x6e then some 0x0a
  else if c = 0x72 then some 0x0d
  else if c = 0x74 then some 0x09
  else none

/-- The code points up to the closing quote, pairs not yet joined, and what follows it. -/
def stringUnits : Text → Option (Text × Text)
  | [] => none
  | c :: rest =>
    if c = 0x22 then some ([], rest)
    else if c = 0x5c then
      match rest with
      | [] => none
      | e :: rest =>
        if e = 0x75 then
          match rest with
          | h₁ :: h₂ :: h₃ :: h₄ :: rest => do
            let n ← unit? h₁ h₂ h₃ h₄
            let (units, rest) ← stringUnits rest
            return (CodePoint.ofNat n :: units, rest)
          | _ => none
        else do
          let d ← escapeLetter? e
          let (units, rest) ← stringUnits rest
          return (d :: units, rest)
    else if c.val < 0x20 then none
    else do
      let (units, rest) ← stringUnits rest
      return (c :: units, rest)

/-- The string after an opening quote. -/
def readString (t : Text) : Option (Text × Text) := do
  let (units, rest) ← stringUnits t
  return (units.joinPairs, rest)

/-- The digits at the front, and the rest. -/
def digits (t : Text) : Text × Text := t.span CodePoint.isDigit

/-- An optional exponent, with its sign. -/
def readExponent (t : Text) : Option Int × Text :=
  match t with
  | e :: rest =>
    if e = 0x65 ∨ e = 0x45 then
      let (negative, body) := Text.takeSign rest
      let (ds, after) := digits body
      if ds.isEmpty then (none, t)
      else
        let n := Text.digitsValue ds
        (some (if negative then -(n : Int) else n), after)
    else (none, t)
  | [] => (none, t)

/-- An optional fraction: its digits. -/
def readFraction (t : Text) : Option Text × Text :=
  match t with
  | p :: rest =>
    if p = 0x2e then
      let (ds, after) := digits rest
      if ds.isEmpty then (none, t) else (some ds, after)
    else (none, t)
  | [] => (none, t)

/-- A number without its sign. -/
def readNumber (negative : Bool) (t : Text) : Option (Value × Text) :=
  let (whole, rest) := digits t
  if whole.isEmpty then none
  else
    let (fraction, rest) := readFraction rest
    let (exponent, rest) := readExponent rest
    match fraction, exponent with
    | none, none =>
      let n := Text.digitsValue whole
      some (.int (if negative then -(n : Int) else n), rest)
    | _, _ =>
      let frac := fraction.getD []
      some (.real (Real64.ofDecimal negative (Text.digitsValue (whole ++ frac))
        (exponent.getD 0 - frac.length)), rest)

/-- The value of a fixed word at the front. -/
def readWord (word : Text) (v : Value) (t : Text) : Option (Value × Text) :=
  if word.isPrefixOf t then some (v, t.drop word.length) else none

mutual

/-- The value at the front, after blanks; each nested value takes one unit of `depth`. -/
def readValue : (depth : Nat) → Text → Option (Value × Text)
  | 0, _ => none
  | depth + 1, t =>
    match skipSpace t with
    | [] => none
    | c :: rest =>
      if c = 0x22 then (fun r => (.text r.1, r.2)) <$> readString rest
      else if c = 0x5b then
        match skipSpace rest with
        | [] => none
        | d :: after =>
          if d = 0x5d then some (.list [], after)
          else (fun r => (.list r.1, r.2)) <$> readItems depth rest
      else if c = 0x7b then
        match skipSpace rest with
        | [] => none
        | d :: after =>
          if d = 0x7d then some (.map [], after)
          else (fun r => (.map r.1, r.2)) <$> readEntries depth [] rest
      else if c = 0x2d then
        (readWord (text "Infinity") (.real (Real64.infinity true)) rest).orElse fun _ =>
          readNumber true rest
      else if c.isDigit then readNumber false (c :: rest)
      else
        (readWord (text "null") .null (c :: rest)).orElse fun _ =>
        (readWord (text "true") (.bool true) (c :: rest)).orElse fun _ =>
        (readWord (text "false") (.bool false) (c :: rest)).orElse fun _ =>
        (readWord (text "NaN") (.real Real64.nan) (c :: rest)).orElse fun _ =>
        readWord (text "Infinity") (.real (Real64.infinity false)) (c :: rest)

/-- The items up to the closing bracket. -/
def readItems : (depth : Nat) → Text → Option (List Value × Text)
  | 0, _ => none
  | depth + 1, t => do
    let (v, rest) ← readValue depth t
    match skipSpace rest with
    | [] => none
    | c :: rest =>
      if c = 0x5d then some ([v], rest)
      else if c = 0x2c then
        (fun r => (v :: r.1, r.2)) <$> readItems depth rest
      else none

/-- The entries up to the closing brace, added to those read before. -/
def readEntries : (depth : Nat) → List (Value × Value) → Text →
    Option (List (Value × Value) × Text)
  | 0, _, _ => none
  | depth + 1, entries, t => do
    match skipSpace t with
    | [] => none
    | q :: rest =>
      if q = 0x22 then do
        let (k, rest) ← readString rest
        match skipSpace rest with
        | [] => none
        | c :: rest =>
          if c = 0x3a then do
            let (v, rest) ← readValue depth rest
            let entries := Value.insertEntry (.text k) v entries
            match skipSpace rest with
            | [] => none
            | c :: rest =>
              if c = 0x7d then some (entries, rest)
              else if c = 0x2c then readEntries depth entries rest
              else none
          else none
      else none

end

/-- The value of a whole text. -/
def parse (t : Text) : Option Value := do
  let (v, rest) ← readValue (t.length + 1) t
  if (skipSpace rest).isEmpty then some v else none

end Snippets.Json
