import Snippets.External.Script

/-!
Compilers of runner sources and the runners they make. The built-in compiler makes scripts; a host
may bring a compiler of its own, of which only the behaviour is known.
-/

namespace Snippets

/-- What becomes of closing a runner. -/
inductive Closing where
  /-- the runner cannot be closed, and need not be -/
  | absent
  | succeeds
  | fails (f : Fault)
  deriving DecidableEq, Repr

/-- How a host's compiler and its runners behave. -/
structure HostedCompiler where
  fault : Option Fault := none
  runFault : Option Fault := none
  closing : Closing := .succeeds
  deriving DecidableEq, Repr

inductive Compiler where
  | script (settings : ScriptSettings)
  | hosted (c : HostedCompiler)
  deriving DecidableEq, Repr

/-- A compiled runner; those of a host are numbered from one. -/
inductive CompiledRunner where
  | script (r : ScriptRunner)
  | hosted (number : Nat) (behaviour : HostedCompiler)
  deriving DecidableEq, Repr

/-- What compilers and runners work on. -/
structure Bench where
  scratch : Scratch := {}
  processes : Supply ProcessEnd := ⟨.exit 0 [], []⟩
  /-- what the system says if it gives no scratch files -/
  refusal : Option Text := none
  /-- how many runners the host's compiler has made -/
  made : Nat := 0
  /-- what running a runner of the host meets at the moment, whatever runner it is -/
  runFault : Option Fault := none
  /-- what closing a runner of the host meets at the moment -/
  closeFault : Option Fault := none
  deriving DecidableEq, Repr

/-- What the system says when a source is to be written to a scratch file, if it gives none. None is
asked for if the source is blank. -/
def Bench.refusalOf (b : Bench) (source : Text) : Option Text :=
  if (Text.trim source).isEmpty then none else b.refusal

/-- The bench after some work, what was done and noted, and the result. -/
structure Worked (α : Type) where
  bench : Bench
  effects : List Effect := []
  logs : List Log := []
  result : α

def Compiler.compile (c : Compiler) (source : Text) (b : Bench) :
    Worked (Except CompileError CompiledRunner) :=
  match c with
  | .script settings =>
    match b.refusalOf source with
    | some message => { bench := b, result := .error (.fault (.system message)) }
    | none =>
      match settings.compile source b.scratch with
      | (scratch, .ok r) =>
        { bench := { b with scratch }, logs := [ScriptSettings.compiledNote r]
          result := .ok (.script r) }
      | (scratch, .error e) => { bench := { b with scratch }, result := .error e }
  | .hosted behaviour =>
    match behaviour.fault with
    | some f => { bench := b, effects := [.compile source], result := .error (.fault f) }
    | none =>
      { bench := { b with made := b.made + 1 }, effects := [.compile source]
        result := .ok (.hosted (b.made + 1) behaviour) }

namespace CompiledRunner

/-- Runs a batch. -/
def run (r : CompiledRunner) (world : World) (filters : List (List Text)) (b : Bench) :
    Worked (Option Failure) :=
  match r with
  | script r =>
    let (run, processes) := r.run world.context filters b.processes
    { bench := { b with processes }, effects := [run.effect], logs := run.logs
      result := run.failure }
  | hosted number behaviour =>
    { bench := b, effects := [.run number world filters]
      result := (b.runFault <|> behaviour.runFault).map .ofFault }

/-- Whether there is a way to close a runner. -/
def isClosable : CompiledRunner → Bool
  | script _ => true
  | hosted _ behaviour => behaviour.closing != .absent

/-- Closes a runner. -/
def close (r : CompiledRunner) (b : Bench) : Worked (Option Failure) :=
  match r with
  | script r => { bench := { b with scratch := r.close b.scratch }, result := none }
  | hosted number behaviour =>
    match behaviour.closing with
    | .absent => { bench := b, result := none }
    | .succeeds =>
      { bench := b, effects := [.close number], result := b.closeFault.map .ofFault }
    | .fails f =>
      { bench := b, effects := [.close number], result := some (.ofFault (b.closeFault.getD f)) }

end CompiledRunner

end Snippets
