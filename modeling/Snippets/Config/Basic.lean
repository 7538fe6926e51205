import Snippets.Config.Number
import Snippets.File.Mapping
import Snippets.World

/-!
The configuration: where the external runner comes from, how it is run, and the limits of the
network client. Validation reports everything that is wrong at once: the declared fields in their
order, then the keys that are not known in the order of the data.
-/

namespace Snippets

/-- Limits of the connection pool. -/
structure PoolLimits where
  maxConnections : Int := 10
  maxKeepalive : Int := 5
  keepaliveExpiry : Real64 := Real64.ofInt 30

/-- Time limits of network operations, in seconds. -/
structure HttpTimeouts where
  connect : Real64 := Real64.ofInt 10
  read : Real64 := Real64.ofInt 30
  write : Real64 := Real64.ofInt 10
  pool : Real64 := Real64.ofInt 5

structure Config where
  runnerUrl : Option Text := none
  interpreter : List Text := [text "node"]
  timeout : Int := 30
  world : World := .isolated
  pool : PoolLimits := {}
  timeouts : HttpTimeouts := {}

namespace Config

/-! ## Fields -/

def checkText (v : Value) : Checked Text :=
  match v with
  | .text t => .ok t
  | _ => reject .notText v

def checkUrl (v : Value) : Checked (Option Text) :=
  match v with
  | .null => .ok none
  | v => some <$> checkText v

/-- The items of a list of texts, each checked in its place. -/
def checkTexts (i : Nat) : List Value → Checked (List Text)
  | [] => .ok []
  | v :: rest =>
    match checkText v, checkTexts (i + 1) rest with
    | .ok t, .ok ts => .ok (t :: ts)
    | first, others => .error ((issues first).map (·.under (.index i)) ++ issues others)

def checkInterpreter (v : Value) : Checked (List Text) :=
  match v.items? with
  | some items => checkTexts 0 items
  | none => reject .notList v

def checkTimeout (v : Value) : Checked Int := do
  let i ← checkInteger v
  if 0 < i then .ok i else reject (.notAbove 0) v

def checkWorld (v : Value) : Checked World :=
  match World.ofValue v with
  | .ok w => .ok w
  | .error _ => reject .unknownWorld v

/-- The field `name` of a mapping: its default if it is absent. -/
def field {α : Type} (entries : List (Value × Value)) (name : String) (default : α)
    (check : Value → Checked α) : Checked α :=
  match Value.lookup (text name) entries with
  | none => .ok default
  | some v => (check v).mapError fun is => is.map (·.under (.key (text name)))

/-- An issue for each key that is not among the declared ones. -/
def unknownKeys (names : List String) (entries : List (Value × Value)) : List Issue :=
  entries.filterMap fun (k, v) =>
    match k with
    | .text t => if (names.map text).contains t then none else some ⟨[.key t], .unknownKey, v⟩
    | .int i => some ⟨[.index i], .keyNotText, k⟩
    | k => some ⟨[.key k.display], .keyNotText, k⟩

/-- The value, provided that nothing is wrong. -/
def settled {α : Type} (is : List Issue) (value : Checked α) : Checked α :=
  if is.isEmpty then value else .error is

/-! ## Models -/

def poolKeys : List String := ["max_connections", "max_keepalive", "keepalive_expiry"]

def checkPool (v : Value) : Checked PoolLimits :=
  match v with
  | .map es =>
    let connections := field es "max_connections" ({} : PoolLimits).maxConnections checkInteger
    let keepalive := field es "max_keepalive" ({} : PoolLimits).maxKeepalive checkInteger
    let expiry := field es "keepalive_expiry" ({} : PoolLimits).keepaliveExpiry checkNumber
    settled (issues connections ++ issues keepalive ++ issues expiry ++ unknownKeys poolKeys es) do
      return ⟨← connections, ← keepalive, ← expiry⟩
  | v => reject (.notMapping (text "ConnectionPoolConfig")) v

def timeoutKeys : List String := ["connect", "read", "write", "pool"]

def checkTimeouts (v : Value) : Checked HttpTimeouts :=
  match v with
  | .map es =>
    let connect := field es "connect" ({} : HttpTimeouts).connect checkNumber
    let read := field es "read" ({} : HttpTimeouts).read checkNumber
    let write := field es "write" ({} : HttpTimeouts).write checkNumber
    let pool := field es "pool" ({} : HttpTimeouts).pool checkNumber
    settled (issues connect ++ issues read ++ issues write ++ issues pool ++
        unknownKeys timeoutKeys es) do
      return ⟨← connect, ← read, ← write, ← pool⟩
  | v => reject (.notMapping (text "HttpTimeoutConfig")) v

def keys : List String :=
  ["runner_url", "interpreter", "runner_timeout_seconds", "world", "connection_pool",
    "http_timeout"]

/-- The configuration that a mapping describes. -/
def ofEntries (es : List (Value × Value)) : Checked Config :=
  let url := field es "runner_url" none checkUrl
  let interpreter := field es "interpreter" ({} : Config).interpreter checkInterpreter
  let timeout := field es "runner_timeout_seconds" ({} : Config).timeout checkTimeout
  let world := field es "world" ({} : Config).world checkWorld
  let pool := field es "connection_pool" {} checkPool
  let timeouts := field es "http_timeout" {} checkTimeouts
  settled (issues url ++ issues interpreter ++ issues timeout ++ issues world ++ issues pool ++
      issues timeouts ++ unknownKeys keys es) do
    return ⟨← url, ← interpreter, ← timeout, ← world, ← pool, ← timeouts⟩

def ofValue (v : Value) : Checked Config :=
  match v with
  | .map es => ofEntries es
  | v => reject (.notMapping (text "RunnerConfig")) v

/-! ## Loading -/

/-- Why no configuration was loaded. -/
inductive LoadError where
  | file (e : MappingFile.LoadError)
  | invalid (issues : List Issue)

def LoadError.message : LoadError → Text
  | .file e => e.message
  | .invalid is => renderIssues is

/-- The place of the configuration file below the working directory. -/
def defaultPath (files : Tree) : Path :=
  files.home.below [text ".snippet-runner", text "config.yaml"]

/-- The entries of the file that was named, or of the default file if there is one. -/
def entriesIn (files : Tree) : Option Path → Except MappingFile.LoadError (List (Value × Value))
  | some path => MappingFile.load files .config path
  | none =>
    if files.holds (defaultPath files) then MappingFile.read files .config (defaultPath files)
    else .ok []

/-- A runner address from the environment replaces the one in the data; an empty one is none. -/
def withUrl (url : Option Text) (entries : List (Value × Value)) : List (Value × Value) :=
  match url with
  | none | some [] => entries
  | some url => Value.insertEntry (.text (text "runner_url")) (.text url) entries

/-- Loads the configuration. -/
def load (files : Tree) (path : Option Path) (environmentUrl : Option Text) :
    Except LoadError Config := do
  let entries ← (entriesIn files path).mapError .file
  (ofEntries (withUrl environmentUrl entries)).mapError .invalid

end Config

end Snippets
