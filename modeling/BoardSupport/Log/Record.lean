import BoardSupport.Text

/-!
Log records: how urgent they are, where they come from and what they say.
-/

namespace BoardSupport.Log

/-- Urgency of a record, the most urgent first. -/
inductive Level where
  | error
  | warn
  | info
  | debug
  | trace
  deriving DecidableEq

namespace Level

def rank : Level → Nat
  | .error => 1
  | .warn => 2
  | .info => 3
  | .debug => 4
  | .trace => 5

def name : Level → String
  | .error => "ERROR"
  | .warn => "WARN"
  | .info => "INFO"
  | .debug => "DEBUG"
  | .trace => "TRACE"

end Level

/-- The least urgent level that passes, or none at all. -/
abbrev Filter := Option Level

def Filter.admits : Filter → Level → Bool
  | none, _ => false
  | some most, l => decide (l.rank ≤ most.rank)

/-- The statement that wrote a record, by a path and a line. The console shows both, so they
belong to the text of the log. -/
structure Site where
  path : String
  line : Nat
  deriving DecidableEq

structure Record where
  level : Level
  site : Site
  text : String
  deriving DecidableEq

end BoardSupport.Log
