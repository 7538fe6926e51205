import Snippets.Number.Shortest
import Snippets.Text.Quoted

/-!
Values of the data that hosts and files supply: rule collections, configuration and parsed
documents. A mapping keeps its entries in order of first insertion, and a tuple is a list that
names itself differently.
-/

namespace Snippets

inductive Value where
  | null
  | bool (b : Bool)
  | int (i : Int)
  | real (x : Real64)
  | text (t : Text)
  | list (items : List Value)
  | tuple (items : List Value)
  | map (entries : List (Value × Value))
  deriving Repr, Inhabited

namespace Value

/-- The name of the kind of a value, as messages give it. -/
def kind : Value → Text
  | null => Snippets.text "NoneType"
  | bool _ => Snippets.text "bool"
  | int _ => Snippets.text "int"
  | real _ => Snippets.text "float"
  | text _ => Snippets.text "str"
  | list _ => Snippets.text "list"
  | tuple _ => Snippets.text "tuple"
  | map _ => Snippets.text "dict"

/-- Absent, zero and empty values count as false. -/
def truthy : Value → Bool
  | null => false
  | bool b => b
  | int i => i != 0
  | real x => !x.isZero
  | text t => !t.isEmpty
  | list xs => !xs.isEmpty
  | tuple xs => !xs.isEmpty
  | map es => !es.isEmpty

def showBool (b : Bool) : Text := Snippets.text (if b then "True" else "False")

mutual

/-- The text of a value in messages. -/
def render : Value → Text
  | null => Snippets.text "None"
  | bool b => showBool b
  | int i => Text.ofInt i
  | real x => x.render
  | text t => t.quoted
  | list xs => Snippets.text "[" ++ renderItems xs ++ Snippets.text "]"
  | tuple xs =>
    Snippets.text "(" ++ renderItems xs ++ Snippets.text (if xs.length = 1 then ",)" else ")")
  | map es => Snippets.text "\x7b" ++ renderEntries es ++ Snippets.text "\x7d"

def renderItems : List Value → Text
  | [] => []
  | [x] => x.render
  | x :: y :: rest => x.render ++ Snippets.text ", " ++ renderItems (y :: rest)

def renderEntries : List (Value × Value) → Text
  | [] => []
  | [(k, v)] => k.render ++ Snippets.text ": " ++ v.render
  | (k, v) :: e :: rest =>
    k.render ++ Snippets.text ": " ++ v.render ++ Snippets.text ", " ++ renderEntries (e :: rest)

end

/-- The text of a value where text stands for itself. -/
def display : Value → Text
  | text t => t
  | v => v.render

/-- Booleans and numbers compare as numbers. -/
inductive Numeric where
  | exact (i : Int)
  | float (x : Real64)

def numeric? : Value → Option Numeric
  | bool b => some (.exact (if b then 1 else 0))
  | int i => some (.exact i)
  | real x => some (match x.toInt? with
    | some i => .exact i
    | none => .float x)
  | _ => none

def Numeric.same : Numeric → Numeric → Bool
  | .exact i, .exact j => i == j
  | .float x, .float y => x.toFloat == y.toFloat
  | _, _ => false

mutual

/-- Whether two values are equal: numbers by size, sequences item by item, mappings entry by entry
in any order. -/
def same : Value → Value → Bool
  | null, null => true
  | text s, text t => s == t
  | list xs, list ys => sameItems xs ys
  | tuple xs, tuple ys => sameItems xs ys
  | map es, map fs => es.length == fs.length && allEntriesIn fs es
  | v, w =>
    match v.numeric?, w.numeric? with
    | some m, some n => m.same n
    | _, _ => false

def sameItems : List Value → List Value → Bool
  | [], [] => true
  | x :: xs, y :: ys => x.same y && sameItems xs ys
  | _, _ => false

/-- Whether every entry is among those of `fs`. -/
def allEntriesIn (fs : List (Value × Value)) : List (Value × Value) → Bool
  | [] => true
  | (k, v) :: es => (fs.any fun f => k.same f.1 && v.same f.2) && allEntriesIn fs es

end

/-- Sets `key`, in its place if it is there and at the end otherwise. -/
def insertEntry (key value : Value) : List (Value × Value) → List (Value × Value)
  | [] => [(key, value)]
  | (k, v) :: rest =>
    if k.same key then (k, value) :: rest else (k, v) :: insertEntry key value rest

/-- The value under a text key. -/
def lookup (key : Text) : List (Value × Value) → Option Value
  | [] => none
  | (text k, v) :: rest => if k = key then some v else lookup key rest
  | _ :: rest => lookup key rest

/-- The field `key` of a mapping. -/
def field? (key : String) : Value → Option Value
  | map es => lookup (Snippets.text key) es
  | _ => none

def toText? : Value → Option Text
  | text t => some t
  | _ => none

/-- The items of a list or a tuple. -/
def items? : Value → Option (List Value)
  | list xs => some xs
  | tuple xs => some xs
  | _ => none

end Value

end Snippets
