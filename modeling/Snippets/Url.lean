import Snippets.Url.Host

/-!
Where a runner's source comes from. A locator with the scheme `http` or `https` is fetched; one
with the scheme `file` names the path between host and query; anything else is a path as it
stands. The scheme is read after blanks in front and line breaks anywhere have been dropped. A
locator whose host is none is refused (`hostError?`).
-/

namespace Snippets

/-- The parts of a locator that matter here. -/
structure Url where
  scheme : Text
  path : Text
  deriving DecidableEq, Repr

namespace Url

def isSchemePoint (c : CodePoint) : Bool :=
  c.isLetter || c.isDigit || c = 0x2b || c = 0x2d || c = 0x2e

/-- Drops blanks and controls in front, and tabs and line breaks everywhere. -/
def clean (t : Text) : Text :=
  (t.dropWhile (·.val ≤ 0x20)).filter fun c => c ≠ 0x09 && c ≠ 0x0a && c ≠ 0x0d

/-- The scheme in lower case, and what follows its colon. A scheme starts with a letter. -/
def splitScheme (t : Text) : Text × Text :=
  let scheme := t.takeWhile (· ≠ 0x3a)
  match t.drop scheme.length, scheme with
  | _ :: rest, first :: _ =>
    if first.isLetter && scheme.all isSchemePoint then (scheme.map CodePoint.lower, rest)
    else ([], t)
  | _, _ => ([], t)

/-- The host after two slashes, and what follows it. -/
def splitHost : Text → Text × Text
  | a :: b :: rest =>
    if a = 0x2f && b = 0x2f then rest.span fun c => c ≠ 0x2f && c ≠ 0x3f && c ≠ 0x23
    else ([], a :: b :: rest)
  | t => ([], t)

def split (t : Text) : Except SplitError Url :=
  let (scheme, rest) := splitScheme (clean t)
  let (host, rest) := splitHost rest
  match hostError? host with
  | some e => .error e
  | none => .ok ⟨scheme, (rest.takeWhile (· ≠ 0x23)).takeWhile (· ≠ 0x3f)⟩

def isRemote (u : Url) : Bool := u.scheme = text "http" || u.scheme = text "https"

def isFile (u : Url) : Bool := u.scheme = text "file"

end Url

end Snippets
