import Snippets.Text.Basic

/-!
A place in a document: the text from there on, with its line and column. Blanks are spaces; a tab
is not skipped, so it can only stand inside a scalar in quotes or a comment.
-/

namespace Snippets.Yaml

/-- What is left to read, and where it starts. -/
structure Cursor where
  rest : Text
  column : Nat
  line : Nat

def isBreak (c : CodePoint) : Bool :=
  c = 0x0a || c = 0x0d || c = 0x85 || c = 0x2028 || c = 0x2029

def space : CodePoint := 0x20
def tab : CodePoint := 0x09
def colon : CodePoint := 0x3a
def dash : CodePoint := 0x2d
def hash : CodePoint := 0x23

/-- Whether a text ends or goes on with a blank, a tab or a line break. -/
def endsToken : Text → Bool
  | [] => true
  | c :: _ => c = space || c = tab || isBreak c

namespace Cursor

/-- The cursor after reading `consumed`, at `rest`. -/
def advance (c : Cursor) (consumed rest : Text) : Cursor :=
  consumed.foldl (fun c p =>
    if isBreak p then { c with column := 0, line := c.line + 1 }
    else { c with column := c.column + 1 })
    { c with rest := rest }

/-- The cursor at a later rest of the same text. -/
def goto (c : Cursor) (rest : Text) : Cursor :=
  c.advance (c.rest.take (c.rest.length - rest.length)) rest

/-- The cursor one character on. -/
def next (c : Cursor) : Cursor := c.advance (c.rest.take 1) (c.rest.drop 1)

def skipSpaces (c : Cursor) : Cursor := c.goto (c.rest.dropWhile (· = space))

/-- What follows blanks, line breaks and comments. -/
def afterBlanks (comment : Bool) : Text → Text
  | [] => []
  | c :: rest =>
    if isBreak c then afterBlanks false rest
    else if comment || c = hash then afterBlanks true rest
    else if c = space then afterBlanks false rest
    else c :: rest

def skip (c : Cursor) : Cursor := c.goto (afterBlanks false c.rest)

def atEnd (c : Cursor) : Bool := c.rest.isEmpty

/-- Whether the line has nothing more to say. -/
def atLineEnd (c : Cursor) : Bool :=
  match c.rest with
  | [] => true
  | p :: _ => isBreak p || p = hash

def sees (c : Cursor) (p : CodePoint) : Bool := c.rest.head? = some p

/-- Whether an entry of a block list starts here. -/
def atDash (c : Cursor) : Bool := c.sees dash && endsToken (c.rest.drop 1)

/-- Whether a colon that ends a key stands here. -/
def atColon (c : Cursor) : Bool := c.sees colon && endsToken (c.rest.drop 1)

/-- Whether the line is the three characters of a document mark. -/
def atMark (c : Cursor) (mark : Text) : Bool :=
  c.column = 0 && mark.isPrefixOf c.rest && endsToken (c.rest.drop 3)

def atAnyMark (c : Cursor) : Bool := c.atMark (text "---") || c.atMark (text "...")

end Cursor

end Snippets.Yaml
