import Snippets.Script.Escape

/-!
Scripts as lists of calls. A script is read one character at a time by `Scan.step`; what it has
read so far is a list of finished calls, the words of the current call and the current word.
Reading never fails: damage stays in the call it occurs in, and an unfinished last word is lost.
-/

namespace Snippets.Script

/-- Where the scanner stands inside a word. -/
inductive Mode where
  /-- between two pieces -/
  | plain
  /-- after a backslash -/
  | escape
  /-- after `\u` and the characters `seen`, fewer than four -/
  | code (seen : Text)
  deriving DecidableEq, Repr

/-- The scanner's state. -/
structure Scan where
  mode : Mode := .plain
  /-- inside quotes -/
  quoted : Bool := false
  /-- the last character closed a quote -/
  closed : Bool := false
  /-- the text of the current word -/
  word : Text := []
  /-- the finished words of the current call -/
  call : List Text := []
  /-- the finished calls -/
  calls : List (List Text) := []
  deriving DecidableEq, Repr

namespace Scan

/-- Ends the current word, if there is one: an empty word counts only if quotes made it. -/
def endWord (s : Scan) : Scan :=
  if s.word.isEmpty && !s.closed then { s with closed := false }
  else { s with word := [], call := s.call ++ [s.word], closed := false }

/-- Ends the current call, if it has a word. -/
def endCall (s : Scan) : Scan :=
  if s.call.isEmpty then s else { s with call := [], calls := s.calls ++ [s.call] }

/-- Adds a character to the current word. -/
def push (s : Scan) (c : CodePoint) : Scan := { s with word := s.word ++ [c], closed := false }

/-- A character between two pieces. -/
def stepPlain (s : Scan) (c : CodePoint) : Scan :=
  if c = backslash then { s with mode := .escape, closed := false }
  else if c = quote then { s with quoted := !s.quoted, closed := s.quoted }
  else if s.quoted || (c != semicolon && !isSpace c) then s.push c
  else if c = semicolon then s.endWord.endCall
  else s.endWord

/-- Reads one character. -/
def step (s : Scan) (c : CodePoint) : Scan :=
  match s.mode with
  | .plain => s.stepPlain c
  | .escape =>
    if c = letterU then { s with mode := .code [], closed := false }
    else { s.push (escaped c) with mode := .plain }
  | .code seen =>
    if seen.length < 3 then { s with mode := .code (seen ++ [c]), closed := false }
    else
      match codeOf (seen ++ [c]) with
      | some d => { s.push d with mode := .plain }
      | none => { s with mode := .plain, closed := false }

/-- Reads a text from a state. -/
def run (s : Scan) (t : Text) : Scan := t.foldl step s

@[simp] theorem run_nil (s : Scan) : s.run [] = s := rfl

@[simp] theorem run_cons (s : Scan) (c : CodePoint) (t : Text) :
    s.run (c :: t) = (s.step c).run t := rfl

theorem run_append (s : Scan) (t u : Text) : s.run (t ++ u) = (s.run t).run u := by
  simp [run, List.foldl_append]

end Scan

/-- A script without the separators at its ends. -/
def trim (script : Text) : Text := script.trimBy isSpace

/-- The calls of a script, each a list of words with the name first. A semicolon after the last
character ends the last call. -/
def calls (script : Text) : List (List Text) :=
  (Scan.run {} (trim script ++ [semicolon])).calls

end Snippets.Script
