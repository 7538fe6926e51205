import Snippets.Config.Issue
import Snippets.Text.Blank

/-!
Numbers in a configuration. Truth values count as one and zero, texts are read after trimming, and
a real number without a fractional part is an integer too.
-/

namespace Snippets.Config

def trimNumber (t : Text) : Text := t.trimBy CodePoint.isWhiteSpace

/-- Drops bars that stand singly between other characters. -/
def dropBars? (t : Text) : Option Text :=
  let parts := Text.splitOn 0x5f t
  if parts.any List.isEmpty then none else some parts.flatten

/-- A whole number may be followed by a point and zeros. -/
def dropZeroFraction (t : Text) : Text :=
  let whole := t.takeWhile (· ≠ 0x2e)
  if (t.drop (whole.length + 1)).all (· = 0x30) then whole else t

/-- The integer that a text spells: a sign, digits with single bars between, and perhaps a point
with zeros. After a minus the digits have no zero in front. -/
def integerOf? (t : Text) : Option Int := do
  let t := trimNumber t
  let t := if t.head? = some 0x2b then t.drop 1 else t
  let negative := t.head? = some 0x2d
  let body := if negative then t.drop 1 else t
  let digits ← dropBars? (dropZeroFraction body)
  if digits.isEmpty || !digits.all CodePoint.isDigit then none
  else if negative && digits.head? = some 0x30 && digits.length ≠ 1 then none
  else
    let n := Text.digitsValue digits
    some (if negative then -(n : Int) else n)

/-- The most characters that a number in a text may have. -/
def maxDigits : Nat := 4300

def checkInteger (v : Value) : Checked Int :=
  match v with
  | .int i => .ok i
  | .bool b => .ok (if b then 1 else 0)
  | .real x =>
    if !x.isFinite then reject .notFinite v
    else
      match x.toInt? with
      | none => reject .fractionalInteger v
      | some i => if i.natAbs < Nat.pow 2 63 then .ok i else reject .oversizedInteger v
  | .text t =>
    if maxDigits < t.length then reject .oversizedInteger v
    else
      match integerOf? t with
      | some i => .ok i
      | none => reject .unparsableInteger v
  | _ => reject .notInteger v

/-- An exponent at the end of a number. -/
def exponentOf? : Text → Option Int
  | [] => some 0
  | e :: rest =>
    if e ≠ 0x65 ∧ e ≠ 0x45 then none
    else
      let negative := rest.head? = some 0x2d
      let digits := if negative || rest.head? = some 0x2b then rest.drop 1 else rest
      if digits.isEmpty || !digits.all CodePoint.isDigit then none
      else some (if negative then -(Text.digitsValue digits : Int) else Text.digitsValue digits)

/-- The number that a text spells, apart from bars. -/
def decimalOf? (t : Text) : Option Real64 :=
  let negative := t.head? = some 0x2d
  let body := if negative || t.head? = some 0x2b then t.drop 1 else t
  let word := body.map CodePoint.lower
  if word = text "inf" ∨ word = text "infinity" then some (Real64.infinity negative)
  else if word = text "nan" then some Real64.nan
  else
    let whole := body.takeWhile CodePoint.isDigit
    let rest := body.drop whole.length
    let fraction :=
      if rest.head? = some 0x2e then (rest.drop 1).takeWhile CodePoint.isDigit else []
    let rest := if rest.head? = some 0x2e then rest.drop (fraction.length + 1) else rest
    if whole.isEmpty && fraction.isEmpty then none
    else do
      let e ← exponentOf? rest
      return Real64.ofDecimal negative (Text.digitsValue (whole ++ fraction)) (e - fraction.length)

def numberOf? (t : Text) : Option Real64 :=
  let t := trimNumber t
  (decimalOf? t).orElse fun _ => if t.contains 0x5f then (dropBars? t).bind decimalOf? else none

def checkNumber (v : Value) : Checked Real64 :=
  match v with
  | .real x => .ok x
  | .int i => if (Real64.ofInt i).isFinite then .ok (Real64.ofInt i) else reject .notNumber v
  | .bool b => .ok (Real64.ofInt (if b then 1 else 0))
  | .text t =>
    match numberOf? t with
    | some x => .ok x
    | none => reject .unparsableNumber v
  | _ => reject .notNumber v

end Snippets.Config
