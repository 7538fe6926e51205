import Snippets.Text.Basic

/-!
Blank code points: the ones that trimming removes from configuration numbers, runner sources and
process output. Scripts have a set of their own, which differs in the information separators, the
next-line control and the byte order mark.
-/

namespace Snippets

namespace CodePoint

/-- The blanks that have a bidirectional class of white space, or are spaces. -/
def isBlank (c : CodePoint) : Bool :=
  (0x09 ≤ c.val && c.val ≤ 0x0d) || (0x1c ≤ c.val && c.val ≤ 0x20) || c.val == 0x85 ||
  c.val == 0xa0 || c.val == 0x1680 || (0x2000 ≤ c.val && c.val ≤ 0x200a) || c.val == 0x2028 ||
  c.val == 0x2029 || c.val == 0x202f || c.val == 0x205f || c.val == 0x3000

/-- The blanks that carry the white space property: the information separators do not. -/
def isWhiteSpace (c : CodePoint) : Bool :=
  c.isBlank && !(0x1c ≤ c.val && c.val ≤ 0x1f)

end CodePoint

namespace Text

def trim (t : Text) : Text := t.trimBy CodePoint.isBlank

def trimRight (t : Text) : Text := t.trimRightBy CodePoint.isBlank

end Text

end Snippets
