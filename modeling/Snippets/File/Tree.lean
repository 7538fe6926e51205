import Snippets.Assoc
import Snippets.File.Path
import Snippets.Text.Quoted
import Snippets.Text.Utf8

/-!
The files below a working directory. Reading a path walks its parts through the directories, and
each way in which that fails has its own message. What lies outside the working directory is
unknown: it has directories, but no files.

The tree is an idealization. A name may have any length, everybody may read everything, and there
are no links.
-/

namespace Snippets

inductive Node where
  | file (bytes : List UInt8)
  | directory
  deriving DecidableEq, Repr

/-- The nodes below the working directory, and the path by which that directory is known. -/
structure Tree where
  nodes : List (List Text × Node) := []
  home : Path := ⟨[Path.slash], []⟩

namespace Tree

/-- Why a file cannot be read. -/
inductive ReadError where
  | missing (path : Path)
  | notDirectory (path : Path)
  | isDirectory (path : Path)
  | nullByte
  | badName (e : Utf8.EncodeError)
  | undecodable (e : Utf8.DecodeError)
  deriving DecidableEq, Repr

def ReadError.message : ReadError → Text
  | .missing p => text "[Errno 2] No such file or directory: " ++ p.render.quoted
  | .notDirectory p => text "[Errno 20] Not a directory: " ++ p.render.quoted
  | .isDirectory p => text "[Errno 21] Is a directory: " ++ p.render.quoted
  | .nullByte => text "embedded null byte"
  | .badName e => e.message
  | .undecodable e => e.message

/-- Every proper beginning of a list of parts that is not empty. -/
def parents (parts : List Text) : List (List Text) :=
  (List.range (parts.length - 1)).map fun i => parts.take (i + 1)

/-- Writes a node and the directories above it. -/
def write (t : Tree) (path : Path) (node : Node) : Tree :=
  let nodes := (parents path.parts).foldl (fun ns p => Assoc.put p .directory ns) t.nodes
  { t with nodes := Assoc.put path.parts node nodes }

/-- Removes a node. -/
def delete (t : Tree) (path : Path) : Tree :=
  { t with nodes := t.nodes.filter fun n => n.1 != path.parts }

/-- A place that a walk has reached. -/
inductive Place where
  | inside (parts : List Text)
  | outside

/-- The node at a place; the working directory itself is a directory. -/
def node? (t : Tree) : Place → Option Node
  | .inside [] => some .directory
  | .inside parts => t.nodes.lookup parts
  | .outside => some .directory

/-- Where a walk along a path begins, and the parts that it has to take. -/
def start (t : Tree) (path : Path) : Place × List Text :=
  if path.root = t.home.root && t.home.parts.isPrefixOf path.parts && !t.home.parts.isEmpty then
    (.inside [], path.parts.drop t.home.parts.length)
  else if path.root.isEmpty then (.inside [], path.parts)
  else (.outside, path.parts)

/-- One step of a walk. -/
def Place.step (place : Place) (part : Text) : Option Place :=
  match place with
  | .inside parts =>
    if part = text ".." then some (if parts.isEmpty then .outside else .inside parts.dropLast)
    else some (.inside (parts ++ [part]))
  | .outside => if part = text ".." then some .outside else none

/-- Walks along parts: every node on the way has to be a directory. -/
def walk (t : Tree) (path : Path) : Place → List Text → Except ReadError Node
  | place, [] =>
    match t.node? place with
    | some n => .ok n
    | none => .error (.missing path)
  | place, part :: rest =>
    match t.node? place with
    | none => .error (.missing path)
    | some (.file _) => .error (.notDirectory path)
    | some .directory =>
      match place.step part with
      | none => .error (.missing path)
      | some next => walk t path next rest

/-- The node at a path. -/
def resolve (t : Tree) (path : Path) : Except ReadError Node :=
  if path.render.contains 0 then .error .nullByte
  else
    match Utf8.encode path.render with
    | .error e => .error (.badName e)
    | .ok _ =>
      let (place, parts) := t.start path
      t.walk path place parts

def holds (t : Tree) (path : Path) : Bool := (t.resolve path).isOk

/-- Line ends of all conventions become line feeds. -/
def unifyLines : Text → Text
  | [] => []
  | [c] => [if c = 0x0d then 0x0a else c]
  | c :: d :: rest =>
    if c = 0x0d then
      if d = 0x0a then 0x0a :: unifyLines rest else 0x0a :: unifyLines (d :: rest)
    else c :: unifyLines (d :: rest)

/-- The bytes of the file at a path. -/
def readBytes (t : Tree) (path : Path) : Except ReadError (List UInt8) := do
  match ← t.resolve path with
  | .directory => throw (.isDirectory path)
  | .file bytes => return bytes

/-- The text of the file at a path. -/
def readText (t : Tree) (path : Path) : Except ReadError Text := do
  let bytes ← t.readBytes path
  let points ← (Utf8.decode bytes).mapError .undecodable
  return unifyLines points

end Tree

end Snippets
