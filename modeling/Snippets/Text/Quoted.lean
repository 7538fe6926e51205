import Snippets.Text.Printable

/-!
Quoted text, as messages show it: single quotes unless the text has one and no double quote, with
the used quote, the backslash and whatever cannot be shown written as escapes.
-/

namespace Snippets.Text

/-- The quote that surrounds a text. -/
def quoteFor (t : Text) : CodePoint :=
  if t.contains 0x27 && !t.contains 0x22 then 0x22 else 0x27

/-- How one code point is written between quotes. -/
def quotedPoint (quote c : CodePoint) : Text :=
  if c = quote ∨ c = 0x5c then [0x5c, c]
  else if c = 0x0a then text "\\n"
  else if c = 0x0d then text "\\r"
  else if c = 0x09 then text "\\t"
  else if c.isPrintable then [c]
  else if c.val < 0x100 then text "\\x" ++ hex 2 c.val
  else if c.val < 0x10000 then text "\\u" ++ hex 4 c.val
  else text "\\U" ++ hex 8 c.val

def quoted (t : Text) : Text :=
  [quoteFor t] ++ t.flatMap (quotedPoint (quoteFor t)) ++ [quoteFor t]

end Snippets.Text
