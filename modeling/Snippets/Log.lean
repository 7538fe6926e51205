import Snippets.Text.Basic

/-! Notes that the program leaves for its operator, each with a level. -/

namespace Snippets

inductive Level where
  | debug
  | info
  | warning
  | error
  deriving DecidableEq, Repr

/-- Levels from the least to the most severe. -/
def Level.rank : Level → Nat
  | .debug => 0
  | .info => 1
  | .warning => 2
  | .error => 3

structure Log where
  level : Level
  message : Text
  deriving DecidableEq, Repr

namespace Log

def debug (message : Text) : Log := ⟨.debug, message⟩
def info (message : Text) : Log := ⟨.info, message⟩
def warning (message : Text) : Log := ⟨.warning, message⟩
def error (message : Text) : Log := ⟨.error, message⟩

end Log

end Snippets
