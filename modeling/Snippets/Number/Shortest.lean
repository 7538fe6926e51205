import Snippets.Number.Real64

/-!
The shortest decimal of a real number: the fewest digits that read back as the same number, and of
those the nearest. Numbers are written positionally from `10 ^ -4` up to below `10 ^ 16`, and with a
signed exponent of at least two digits otherwise.
-/

namespace Snippets.Real64

/-- `digits * 10 ^ exponent`. -/
structure Decimal where
  digits : Nat
  exponent : Int

/-- The fraction `num / den` divided by `10 ^ k`. -/
def scale (num den : Nat) : Int → Nat × Nat
  | .ofNat k => (num, den * Nat.pow 10 k)
  | .negSucc k => (num * Nat.pow 10 (k + 1), den)

/-- The exponent of the leading decimal digit of a positive fraction. -/
def leadingExponent (num den : Nat) : Int :=
  let guess : Int := ((Nat.toDigits 10 num).length : Int) - (Nat.toDigits 10 den).length
  let scaled := scale num den guess
  if scaled.1 < scaled.2 then guess - 1 else guess

/-- The reals that read back as one number: between `low` and `high`, over a common denominator;
the ends belong to it when `closed`. -/
structure Interval where
  low : Nat
  value : Nat
  high : Nat
  den : Nat
  closed : Bool

def interval (p : Parts) : Interval :=
  let up := match p.exponent with
    | .ofNat e => Nat.pow 2 e
    | .negSucc _ => 1
  let den := match p.exponent with
    | .ofNat _ => 4
    | .negSucc e => 4 * Nat.pow 2 (e + 1)
  { low := (4 * p.significand - if p.narrow then 1 else 2) * up
    value := 4 * p.significand * up
    high := (4 * p.significand + 2) * up
    den := den
    closed := p.significand % 2 == 0 }

/-- Whether `d * 10 ^ k` reads back. -/
def Interval.contains (i : Interval) (d : Nat) (k : Int) : Bool :=
  let low := scale i.low i.den k
  let high := scale i.high i.den k
  if i.closed then low.1 ≤ d * low.2 && d * high.2 ≤ high.1
  else low.1 < d * low.2 && d * high.2 < high.1

/-- A neighbour of the value on the grid of multiples of `10 ^ k` that reads back: the nearer one,
and of two equally near ones the even one. -/
def Interval.neighbour? (i : Interval) (k : Int) : Option Decimal :=
  let v := scale i.value i.den k
  let below := v.1 / v.2
  let rest := v.1 % v.2
  match i.contains below k, i.contains (below + 1) k with
  | true, true =>
    if 2 * rest < v.2 ∨ 2 * rest = v.2 ∧ below % 2 = 0 then some ⟨below, k⟩ else some ⟨below + 1, k⟩
  | true, false => some ⟨below, k⟩
  | false, true => some ⟨below + 1, k⟩
  | false, false => none

/-- The shortest decimal of a positive number; seventeen digits always suffice. -/
def shortest (p : Parts) : Decimal :=
  let i := interval p
  let lead := leadingExponent i.value i.den
  ((List.range 17).findSome? fun (n : Nat) => i.neighbour? (lead - n)).getD
    ⟨(scale i.value i.den (lead - 16)).1 / (scale i.value i.den (lead - 16)).2, lead - 16⟩

/-- Drops up to `fuel` trailing zeros of the digits. -/
def Decimal.strip : (fuel : Nat) → Decimal → Decimal
  | 0, d => d
  | fuel + 1, d => if d.digits % 10 = 0 then strip fuel ⟨d.digits / 10, d.exponent + 1⟩ else d

/-- A run of zeros. -/
def zeros (n : Nat) : Text := List.replicate n 0x30

/-- How the digits of a positive decimal are laid out. -/
def Decimal.layout (d : Decimal) : Text :=
  let digits := Text.ofNat d.digits
  let lead : Int := d.exponent + digits.length - 1
  if -4 ≤ lead ∧ lead < 16 then
    if 0 ≤ d.exponent then digits ++ zeros d.exponent.toNat ++ text ".0"
    else if 0 ≤ lead then
      digits.take (lead.toNat + 1) ++ text "." ++ digits.drop (lead.toNat + 1)
    else text "0." ++ zeros (-lead - 1).toNat ++ digits
  else
    let fraction := if digits.length ≤ 1 then [] else text "." ++ digits.drop 1
    let size := Text.ofNat lead.natAbs
    digits.take 1 ++ fraction ++ text (if lead < 0 then "e-" else "e+") ++
      zeros (2 - size.length) ++ size

/-- The text of a real number. -/
def render (x : Real64) : Text :=
  match x.classify with
  | .notANumber => text "nan"
  | .infinite negative => text (if negative then "-inf" else "inf")
  | .finite p =>
    text (if p.negative then "-" else "") ++
      (if p.significand = 0 then text "0.0" else ((shortest p).strip 20).layout)

end Snippets.Real64
