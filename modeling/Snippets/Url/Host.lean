import Snippets.Text.Quoted

/-!
What may stand where a locator names its host. Brackets surround an address of eight groups of
hexadecimal digits, of which two colons in a row leave some out, or an address of a form yet to
come. Code points that compatibility turns into a mark which divides locators are refused.
-/

namespace Snippets.Url

/-- Why a locator cannot be split. -/
inductive SplitError where
  | unbalancedHost
  | futureHost
  | shortHost
  | noAddress (host : Text)
  | hiddenMark (host : Text)
  deriving DecidableEq, Repr

def SplitError.message : SplitError → Text
  | .unbalancedHost => text "Invalid IPv6 URL"
  | .futureHost => text "IPvFuture address is invalid"
  | .shortHost => text "An IPv4 address cannot be in brackets"
  | .noAddress host => host.quoted ++ text " does not appear to be an IPv4 or IPv6 address"
  | .hiddenMark host =>
    text "netloc '" ++ host ++ text "' contains invalid characters under NFKC normalization"

/-! ## Addresses -/

/-- A number below 256 in decimal digits, without zeros in front. -/
def isOctet (t : Text) : Bool :=
  !t.isEmpty && t.all CodePoint.isDigit && t.length ≤ 3 &&
    (t == text "0" || t.head? != some 0x30) && Text.digitsValue t ≤ 255

/-- Four octets with points between them. -/
def isShortAddress (t : Text) : Bool :=
  let octets := Text.splitOn 0x2e t
  octets.length == 4 && octets.all isOctet

/-- One to four hexadecimal digits. -/
def isGroup (t : Text) : Bool :=
  !t.isEmpty && t.length ≤ 4 && t.all (·.hexValue?.isSome)

/-- What stands between the colons. A short address at the end stands for two groups. -/
def groups (t : Text) : List Text :=
  let parts := Text.splitOn 0x3a t
  match parts.getLast? with
  | some last =>
    if isShortAddress last then parts.dropLast ++ [text "0", text "0"] else parts
  | none => parts

/-- The places inside where nothing stands between two colons. -/
def gaps (parts : List Text) : List Nat :=
  (List.range parts.length).filter fun i =>
    0 < i && i + 1 < parts.length && ((parts[i]?).getD []).isEmpty

/-- Eight groups, or fewer if there is a gap. At either end a gap takes in the colon before or
after it. -/
def isLongAddress (t : Text) : Bool :=
  let parts := groups t
  let side (ps : List Text) : List Text := if ps = [[]] then [] else ps
  match gaps parts with
  | [] => parts.length == 8 && parts.all isGroup
  | [i] =>
    let given := side (parts.take i) ++ side (parts.drop (i + 1))
    given.length ≤ 7 && given.all isGroup
  | _ => false

/-- A long address, which a zone may follow. -/
def isZonedAddress (t : Text) : Bool :=
  match t.span (· ≠ 0x25) with
  | (address, []) => isLongAddress address
  | (address, _ :: zone) => !zone.isEmpty && !zone.contains 0x25 && isLongAddress address

/-- What may follow the letter of a form yet to come: hexadecimal digits, a point and a rest. -/
def isFutureAddress (t : Text) : Bool :=
  let digits := t.takeWhile (·.hexValue?.isSome)
  match t.drop digits.length with
  | c :: _ :: _ => !digits.isEmpty && c = 0x2e
  | _ => false

/-! ## Hosts -/

/-- What is wrong with what stands between brackets. -/
def addressError? (t : Text) : Option SplitError :=
  match t with
  | 0x76 :: rest => if isFutureAddress rest then none else some .futureHost
  | t =>
    if isShortAddress t then some .shortHost
    else if isZonedAddress t then none
    else some (.noAddress t)

/-- The code points whose compatibility form holds one of the marks `/`, `?`, `#`, `@` and `:`. -/
def hidesMark (c : CodePoint) : Bool :=
  ([0x2047, 0x2048, 0x2049, 0x2100, 0x2101, 0x2105, 0x2106, 0x2a74, 0xfe13, 0xfe16, 0xfe55, 0xfe56,
    0xfe5f, 0xfe6b, 0xff03, 0xff0f, 0xff1a, 0xff1f, 0xff20] : List Nat).contains c.val

/-- What is wrong with a host. -/
def hostError? (host : Text) : Option SplitError :=
  if host.contains 0x5b != host.contains 0x5d then some .unbalancedHost
  else
    let bracketed := ((host.dropWhile (· ≠ 0x5b)).drop 1).takeWhile (· ≠ 0x5d)
    match (if host.contains 0x5b then addressError? bracketed else none) with
    | some e => some e
    | none => if host.any hidesMark then some (.hiddenMark host) else none

end Snippets.Url
