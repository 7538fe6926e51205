import Snippets.Total
import Snippets.Value

/-!
What validation finds wrong: the place in the data, the cause and the value that stands there.
-/

namespace Snippets.Config

/-- A step on the way to a place. -/
inductive Loc where
  | key (name : Text)
  | index (i : Int)
  deriving DecidableEq, Repr

def Loc.render : Loc → Text
  | .key name => name
  | .index i => Text.ofInt i

/-- Why a value is not accepted. -/
inductive Cause where
  | notText
  | notList
  | notInteger
  | unparsableInteger
  | oversizedInteger
  | fractionalInteger
  | notFinite
  | notNumber
  | unparsableNumber
  | notAbove (bound : Int)
  | unknownWorld
  | notMapping (model : Text)
  | unknownKey
  | keyNotText
  deriving DecidableEq, Repr

/-- The short name of a cause. -/
def Cause.code : Cause → Text
  | .notText => text "string_type"
  | .notList => text "list_type"
  | .notInteger => text "int_type"
  | .unparsableInteger => text "int_parsing"
  | .oversizedInteger => text "int_parsing_size"
  | .fractionalInteger => text "int_from_float"
  | .notFinite => text "finite_number"
  | .notNumber => text "float_type"
  | .unparsableNumber => text "float_parsing"
  | .notAbove _ => text "greater_than"
  | .unknownWorld => text "enum"
  | .notMapping _ => text "model_type"
  | .unknownKey => text "extra_forbidden"
  | .keyNotText => text "invalid_key"

def Cause.message : Cause → Text
  | .notText => text "Input should be a valid string"
  | .notList => text "Input should be a valid list"
  | .notInteger => text "Input should be a valid integer"
  | .unparsableInteger =>
    text "Input should be a valid integer, unable to parse string as an integer"
  | .oversizedInteger =>
    text "Unable to parse input string as an integer, exceeded maximum size"
  | .fractionalInteger =>
    text "Input should be a valid integer, got a number with a fractional part"
  | .notFinite => text "Input should be a finite number"
  | .notNumber => text "Input should be a valid number"
  | .unparsableNumber => text "Input should be a valid number, unable to parse string as a number"
  | .notAbove bound => text "Input should be greater than " ++ Text.ofInt bound
  | .unknownWorld => text "Input should be 'ISOLATED' or 'MAIN'"
  | .notMapping model => text "Input should be a valid dictionary or instance of " ++ model
  | .unknownKey => text "Extra inputs are not permitted"
  | .keyNotText => text "Keys should be strings"

structure Issue where
  loc : List Loc
  cause : Cause
  input : Value

/-- The issue, seen from one level further out. -/
def Issue.under (l : Loc) (i : Issue) : Issue := { i with loc := l :: i.loc }

/-- The result of validating one part: what it means, or all that is wrong with it. -/
abbrev Checked (α : Type) := Except (List Issue) α

def reject {α : Type} (cause : Cause) (input : Value) : Checked α := .error [⟨[], cause, input⟩]

/-- The issues of a part. -/
def issues {α : Type} : Checked α → List Issue
  | .ok _ => []
  | .error is => is

/-! ## The text of issues -/

/-- The number of bytes that a code point takes. -/
def byteWidth (c : CodePoint) : Nat :=
  if c.val < 0x80 then 1 else if c.val < 0x800 then 2 else if c.val < 0x10000 then 3 else 4

/-- The longest beginning that takes at most `budget` bytes. -/
def takeBytes : (budget : Nat) → Text → Text
  | _, [] => []
  | budget, c :: rest =>
    if byteWidth c ≤ budget then c :: takeBytes (budget - byteWidth c) rest else []

def byteLength (t : Text) : Nat := total (t.map byteWidth)

/-- A long text keeps its first twenty-five and its last twenty-four bytes. -/
def shorten (t : Text) : Text :=
  if byteLength t ≤ 50 then t
  else takeBytes 25 t ++ text "..." ++ (takeBytes 24 t.reverse).reverse

/-- Three lines: the place, what is wrong with which input, and where to read more. -/
def Issue.render (i : Issue) : Text :=
  text "\n" ++ Text.join (text ".") (i.loc.map Loc.render) ++
  text "\n  " ++ i.cause.message ++ text " [type=" ++ i.cause.code ++
  text ", input_value=" ++ shorten i.input.render ++ text ", input_type=" ++ i.input.kind ++
  text "]\n    For further information visit https://errors.pydantic.dev/2.14/v/" ++ i.cause.code

/-- The message of all issues of a configuration. -/
def renderIssues (is : List Issue) : Text :=
  let count := if is.length = 1 then " validation error" else " validation errors"
  Text.ofNat is.length ++ text count ++ text " for RunnerConfig" ++ is.flatMap Issue.render

end Snippets.Config
