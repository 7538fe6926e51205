import Snippets.Value

/-!
What an unquoted scalar stands for: nothing, a truth value, an integer in one of several bases, a
real number written with a point, or the text itself.
-/

namespace Snippets.Yaml

def isDigitOrBar (c : CodePoint) : Bool := c.isDigit || c = 0x5f

/-- Drops the bars that group digits. -/
def dropBars (t : Text) : Text := t.filter (· ≠ 0x5f)

def nullWords : List Text := ["", "~", "null", "Null", "NULL"].map text
def trueWords : List Text :=
  ["yes", "Yes", "YES", "true", "True", "TRUE", "on", "On", "ON"].map text
def falseWords : List Text :=
  ["no", "No", "NO", "false", "False", "FALSE", "off", "Off", "OFF"].map text

/-- The value of digits in a base, each below it. -/
def baseValue (base : Nat) (t : Text) : Option Nat :=
  (dropBars t).foldlM (fun n c => do
    let d ← c.hexValue?
    if d < base then some (n * base + d) else none) 0

/-- The value of groups of digits below sixty, separated by colons. -/
def sixties (groups : List Text) : Option Nat :=
  match groups with
  | first :: rest =>
    if rest.isEmpty || first.isEmpty || !first.all isDigitOrBar || first.head? = some 0x30 then none
    else
      rest.foldlM (fun n g =>
        let d := Text.digitsValue g
        let fits := (g.length = 1 || g.length = 2) && g.all CodePoint.isDigit && d < 60
        if fits then some (n * 60 + d) else none) (Text.digitsValue (dropBars first))
  | [] => none

/-- The size of an unsigned integer: binary after `0b`, hexadecimal after `0x`, octal after `0`,
else decimal. -/
def natural? (t : Text) : Option Nat :=
  match t with
  | [] => none
  | c :: rest =>
    if c = 0x30 then
      match rest with
      | [] => some 0
      | d :: body =>
        if d = 0x62 && !body.isEmpty then baseValue 2 body
        else if d = 0x78 && !body.isEmpty then baseValue 16 body
        else if isDigitOrBar d then baseValue 8 rest
        else none
    else if c.isDigit && t.all isDigitOrBar then some (Text.digitsValue (dropBars t))
    else sixties (Text.splitOn 0x3a t)

def integer? (t : Text) : Option Int := do
  let (negative, body) := Text.takeSign t
  let n ← natural? body
  return if negative then -(n : Int) else n

/-- An exponent needs a sign and a digit; without one it is zero. -/
def exponent? (t : Text) : Option Int :=
  match t with
  | [] => some 0
  | e :: s :: ds =>
    let marked := (e = 0x65 || e = 0x45) && (s = 0x2b || s = 0x2d)
    if marked && !ds.isEmpty && ds.all CodePoint.isDigit then
      some (if s = 0x2d then -(Text.digitsValue ds : Int) else Text.digitsValue ds)
    else none
  | _ => none

/-- A real number with a point. -/
def real? (t : Text) : Option Real64 :=
  let (negative, body) := Text.takeSign t
  if [".inf", ".Inf", ".INF"].map text |>.contains body then some (Real64.infinity negative)
  else if [".nan", ".NaN", ".NAN"].map text |>.contains t then some Real64.nan
  else
    let (whole, rest) := body.span isDigitOrBar
    match rest with
    | p :: after =>
      let (fraction, rest) := after.span isDigitOrBar
      let digits := dropBars (whole ++ fraction)
      if p ≠ 0x2e || digits.isEmpty then none
      else if whole.head? = some 0x5f then none
      else if whole.isEmpty && (fraction.isEmpty || body.length ≠ t.length) then none
      else do
        let e ← exponent? rest
        return Real64.ofDecimal negative (Text.digitsValue digits) (e - (dropBars fraction).length)
    | [] => none

/-- What an unquoted scalar stands for. -/
def resolve (t : Text) : Value :=
  if nullWords.contains t then .null
  else if trueWords.contains t then .bool true
  else if falseWords.contains t then .bool false
  else
    match integer? t with
    | some i => .int i
    | none =>
      match real? t with
      | some x => .real x
      | none => .text t

end Snippets.Yaml
