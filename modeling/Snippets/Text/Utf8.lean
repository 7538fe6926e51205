import Snippets.Text.Basic

/-!
UTF-8. Decoding stops at the first byte that fits no encoding and says where and why; encoding
refuses surrogates.
-/

namespace Snippets.Utf8

/-- Why bytes are not UTF-8. -/
inductive Fault where
  | invalidStart
  | invalidContinuation
  | unexpectedEnd
  deriving DecidableEq, Repr

/-- A fault with the bytes from `first` to `last` that it blames. -/
structure DecodeError where
  fault : Fault
  first : Nat
  last : Nat
  byte : UInt8
  deriving DecidableEq, Repr

/-- The first surrogate of a text, with its position. -/
structure EncodeError where
  point : CodePoint
  position : Nat
  last : Nat
  deriving DecidableEq, Repr

/-- The bytes that may follow a lead byte, given the number that are still to come: what keeps
encodings shortest, below `0x110000` and off the surrogates is the range of the second byte. -/
def secondRange (lead : UInt8) : Nat × Nat :=
  if lead.toNat = 0xe0 then (0xa0, 0xbf)
  else if lead.toNat = 0xed then (0x80, 0x9f)
  else if lead.toNat = 0xf0 then (0x90, 0xbf)
  else if lead.toNat = 0xf4 then (0x80, 0x8f)
  else (0x80, 0xbf)

/-- The number of bytes that follow a lead byte. -/
def following? (lead : UInt8) : Option Nat :=
  if lead.toNat < 0x80 then some 0
  else if 0xc2 ≤ lead.toNat ∧ lead.toNat ≤ 0xdf then some 1
  else if 0xe0 ≤ lead.toNat ∧ lead.toNat ≤ 0xef then some 2
  else if 0xf0 ≤ lead.toNat ∧ lead.toNat ≤ 0xf4 then some 3
  else none

/-- What a lead byte contributes to the code point. -/
def leadBits (lead : UInt8) : Nat :=
  if lead.toNat < 0x80 then lead.toNat
  else if lead.toNat < 0xe0 then lead.toNat - 0xc0
  else if lead.toNat < 0xf0 then lead.toNat - 0xe0
  else lead.toNat - 0xf0

/-- A sequence under way: its lead byte and position, the bits so far, the bytes still to come and
whether the next one is the second. -/
structure Partial where
  lead : UInt8
  start : Nat
  bits : Nat
  missing : Nat
  second : Bool

/-- Reads bytes from a position, inside a sequence or between two. -/
def decodeFrom (position : Nat) (open? : Option Partial) : List UInt8 → Except DecodeError Text
  | [] =>
    match open? with
    | none => .ok []
    | some p => .error ⟨.unexpectedEnd, p.start, position - 1, p.lead⟩
  | b :: rest =>
    match open? with
    | none =>
      match following? b with
      | none => .error ⟨.invalidStart, position, position, b⟩
      | some 0 => (CodePoint.ofNat b.toNat :: ·) <$> decodeFrom (position + 1) none rest
      | some (n + 1) =>
        decodeFrom (position + 1) (some ⟨b, position, leadBits b, n + 1, true⟩) rest
    | some p =>
      let range := if p.second then secondRange p.lead else (0x80, 0xbf)
      if b.toNat < range.1 ∨ range.2 < b.toNat then
        .error ⟨.invalidContinuation, p.start, position - 1, p.lead⟩
      else
        let bits := p.bits * 64 + (b.toNat - 0x80)
        if p.missing ≤ 1 then (CodePoint.ofNat bits :: ·) <$> decodeFrom (position + 1) none rest
        else
          decodeFrom (position + 1) (some ⟨p.lead, p.start, bits, p.missing - 1, false⟩) rest

def decode (bytes : List UInt8) : Except DecodeError Text := decodeFrom 0 none bytes

/-- The bytes of one code point. -/
def encodePoint (c : CodePoint) : List UInt8 :=
  let byte (n : Nat) : UInt8 := UInt8.ofNat n
  if c.val < 0x80 then [byte c.val]
  else if c.val < 0x800 then [byte (0xc0 + c.val / 64), byte (0x80 + c.val % 64)]
  else if c.val < 0x10000 then
    [byte (0xe0 + c.val / 4096), byte (0x80 + c.val / 64 % 64), byte (0x80 + c.val % 64)]
  else
    [byte (0xf0 + c.val / 262144), byte (0x80 + c.val / 4096 % 64),
      byte (0x80 + c.val / 64 % 64), byte (0x80 + c.val % 64)]

/-- Refuses a text with a surrogate, and names the first run of them. -/
def encode (t : Text) : Except EncodeError (List UInt8) :=
  let before := t.takeWhile (!·.isSurrogate)
  match t.drop before.length with
  | [] => .ok (t.flatMap encodePoint)
  | c :: rest =>
    let run := rest.takeWhile CodePoint.isSurrogate
    .error ⟨c, before.length, before.length + run.length⟩

/-- The error as a reader that takes the bytes in portions reports it: it learns of an unfinished
end only when nothing is left but that end, and counts from there. -/
def DecodeError.portioned (e : DecodeError) : DecodeError :=
  match e.fault with
  | .unexpectedEnd => { e with first := 0, last := e.last - e.first }
  | _ => e

def Fault.reason : Fault → Text
  | .invalidStart => text "invalid start byte"
  | .invalidContinuation => text "invalid continuation byte"
  | .unexpectedEnd => text "unexpected end of data"

def DecodeError.message (e : DecodeError) : Text :=
  if e.first = e.last then
    text "'utf-8' codec can't decode byte 0x" ++ Text.hex 2 e.byte.toNat ++ text " in position " ++
      Text.ofNat e.first ++ text ": " ++ e.fault.reason
  else
    text "'utf-8' codec can't decode bytes in position " ++ Text.ofNat e.first ++ text "-" ++
      Text.ofNat e.last ++ text ": " ++ e.fault.reason

def EncodeError.message (e : EncodeError) : Text :=
  if e.position = e.last then
    text "'utf-8' codec can't encode character '\\u" ++ Text.hex 4 e.point.val ++
      text "' in position " ++ Text.ofNat e.position ++ text ": surrogates not allowed"
  else
    text "'utf-8' codec can't encode characters in position " ++ Text.ofNat e.position ++
      text "-" ++ Text.ofNat e.last ++ text ": surrogates not allowed"

end Snippets.Utf8
