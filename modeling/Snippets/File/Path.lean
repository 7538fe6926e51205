import Snippets.Text.Basic

/-!
Paths in normal form: a root and parts. Empty parts and `.` are dropped and `..` is kept; exactly
two slashes in front are a root of their own.
-/

namespace Snippets

/-- A root, which is empty for a relative path, and the parts below it. -/
structure Path where
  root : Text
  parts : List Text
  deriving DecidableEq, Repr

namespace Path

def slash : CodePoint := 0x2f

/-- The root that a number of leading slashes stands for. -/
def rootOf : Nat → Text
  | 0 => []
  | 2 => [slash, slash]
  | _ => [slash]

def ofText (t : Text) : Path where
  root := rootOf (t.takeWhile (· = slash)).length
  parts := (t.splitOn slash).filter fun p => !p.isEmpty && p != text "."

/-- The text of a path; the empty relative path is `.`. -/
def render (p : Path) : Text :=
  if p.root.isEmpty && p.parts.isEmpty then text "." else p.root ++ Text.join [slash] p.parts

/-- The path with more parts below it. -/
def below (p : Path) (names : List Text) : Path := { p with parts := p.parts ++ names }

end Path

end Snippets
