import Snippets.Text.Basic

/-!
Escapes of the script language. A backslash makes the next character part of the word, with `n`,
`r` and `t` standing for control characters, and `\u` reads the four characters after it as a
hexadecimal number that may have blanks, a sign and `0x` in front and anything behind.
-/

namespace Snippets.Script

/-- The characters that separate words. Unlike general blanks, the byte order mark is one and the
information separators and the next-line control are not. -/
def isSpace (c : CodePoint) : Bool :=
  (0x09 ≤ c.val && c.val ≤ 0x0d) || c.val == 0x20 || c.val == 0xa0 || c.val == 0x1680 ||
  (0x2000 ≤ c.val && c.val ≤ 0x200a) || c.val == 0x2028 || c.val == 0x2029 || c.val == 0x202f ||
  c.val == 0x205f || c.val == 0x3000 || c.val == 0xfeff

def backslash : CodePoint := 0x5c
def quote : CodePoint := 0x27
def semicolon : CodePoint := 0x3b
def letterU : CodePoint := 0x75

/-- What a backslash before `c` stands for. -/
def escaped (c : CodePoint) : CodePoint :=
  if c = 0x6e then 0x0a else if c = 0x72 then 0x0d else if c = 0x74 then 0x09 else c

def isHexDigit (c : CodePoint) : Bool := c.hexValue?.isSome

/-- The value of a run of hexadecimal digits. -/
def hexRun (t : Text) : Nat := t.foldl (fun n c => n * 16 + (c.hexValue?.getD 0)) 0

/-- Drops `0x` or `0X` from the front. -/
def dropMark : Text → Text
  | c :: d :: rest => if c = 0x30 ∧ (d = 0x78 ∨ d = 0x58) then rest else c :: d :: rest
  | t => t

/-- The code point of the characters after `\u`: the longest run of hexadecimal digits in front.
Without a digit, or below zero, there is none. -/
def codeOf (seen : Text) : Option CodePoint :=
  let (negative, body) := Text.takeSign (seen.dropWhile isSpace)
  let run := (dropMark body).takeWhile isHexDigit
  let n := hexRun run
  if run.isEmpty || (negative && n != 0) then none else some (CodePoint.ofNat n)

end Snippets.Script
