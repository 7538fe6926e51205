import Snippets.Text.Basic

/-!
Real numbers are 64-bit floating-point values, kept as their bit patterns so that equality is
decidable. `Real64.parts` splits a finite one into a sign and an exact `significand * 2 ^ exponent`.
-/

namespace Snippets

/-- A 64-bit floating-point number. -/
structure Real64 where
  bits : UInt64
  deriving DecidableEq, Repr, Inhabited

namespace Real64

/-- `±significand * 2 ^ exponent`; `narrow` says that the gap below is half the gap above. -/
structure Parts where
  negative : Bool
  significand : Nat
  exponent : Int
  narrow : Bool

inductive Class where
  | finite (parts : Parts)
  | infinite (negative : Bool)
  | notANumber

def ofFloat (x : Float) : Real64 := ⟨x.toBits⟩

def toFloat (x : Real64) : Float := Float.ofBits x.bits

/-- The number nearest to `±mantissa * 10 ^ exponent`. -/
def ofDecimal (negative : Bool) (mantissa : Nat) (exponent : Int) : Real64 :=
  let x : Float :=
    match exponent with
    | .ofNat e => Float.ofScientific (mantissa * Nat.pow 10 e) false 0
    | .negSucc e => Float.ofScientific mantissa true (e + 1)
  ofFloat (if negative then -x else x)

def ofInt (i : Int) : Real64 := ofDecimal (i < 0) i.natAbs 0

def infinity (negative : Bool) : Real64 :=
  ⟨if negative then 0xfff0000000000000 else 0x7ff0000000000000⟩

def nan : Real64 := ⟨0x7ff8000000000000⟩

def classify (x : Real64) : Class :=
  let n : Nat := x.bits.toNat
  let negative := n / Nat.pow 2 63 == 1
  let field : Nat := n / Nat.pow 2 52 % Nat.pow 2 11
  let fraction : Nat := n % Nat.pow 2 52
  if field = 0x7ff then if fraction = 0 then .infinite negative else .notANumber
  else if field = 0 then .finite ⟨negative, fraction, -1074, false⟩
  else .finite ⟨negative, Nat.pow 2 52 + fraction, (field : Int) - 1075, fraction == 0 && field != 1⟩

def isFinite (x : Real64) : Bool :=
  match x.classify with
  | .finite _ => true
  | _ => false

def isZero (x : Real64) : Bool :=
  match x.classify with
  | .finite p => p.significand == 0
  | _ => false

/-- The exact integer value, if the number has no fractional part. -/
def toInt? (x : Real64) : Option Int :=
  match x.classify with
  | .finite p =>
    let sign (n : Nat) : Int := if p.negative then -(n : Int) else n
    match p.exponent with
    | .ofNat e => some (sign (p.significand * Nat.pow 2 e))
    | .negSucc e =>
      let unit := Nat.pow 2 (e + 1)
      if p.significand % unit = 0 then some (sign (p.significand / unit)) else none
  | _ => none

end Real64

end Snippets
