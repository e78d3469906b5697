namespace Bandscan

inductive Level where
  | error | warn | info | debug | trace
  deriving DecidableEq, Repr

namespace Level

def rank : Level → Nat
  | error => 1
  | warn => 2
  | info => 3
  | debug => 4
  | trace => 5

def name : Level → String
  | error => "ERROR"
  | warn => "WARN"
  | info => "INFO"
  | debug => "DEBUG"
  | trace => "TRACE"

end Level

/-- A remark for whoever watches the scan. Notes never influence it. -/
structure Note where
  level : Level
  text : String
  deriving DecidableEq, Repr

namespace Note

def error (text : String) : Note := ⟨.error, text⟩
def warn (text : String) : Note := ⟨.warn, text⟩
def info (text : String) : Note := ⟨.info, text⟩
def debug (text : String) : Note := ⟨.debug, text⟩
def trace (text : String) : Note := ⟨.trace, text⟩

/-- The notes shown at a verbosity from 0 (none) to 5 (all). -/
def shown (verbosity : Nat) (notes : List Note) : List Note :=
  notes.filter fun n => n.level.rank ≤ verbosity

end Note

end Bandscan
