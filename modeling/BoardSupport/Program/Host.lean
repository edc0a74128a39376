import BoardSupport.Interrupt.Mask
import BoardSupport.Interrupt.Policy
import BoardSupport.Interrupt.Reception
import BoardSupport.Log.Logger
import BoardSupport.Peripheral.Console
import BoardSupport.Peripheral.Timer
import BoardSupport.Trap.Dispatcher

/-!
The board support program: what it keeps, and what it runs on.

The program logs through a ring to the console and stamps each record with the system timer. So
a log record makes bus accesses, and whatever happens between accesses also happens within a
record.
-/

namespace BoardSupport.Program

/-- Who serves a source. -/
inductive Service where
  /-- The reception of the self-test. -/
  | reception
  /-- A handler from outside the program, by number. -/
  | custom (i : Nat)
  deriving DecidableEq

/-- Units of the self-test. -/
def testLength : Nat := 16

/-- What the program keeps. Each part is set up at most once. -/
structure State where
  /-- The records that are handed to the logger at all. -/
  filter : Log.Filter := none
  /-- The ring of the logger, once logging is set up. -/
  ring : Option Log.Ring := none
  /-- The policy for external interrupts. -/
  policy : Option (SourceTable Service) := none
  /-- The phase of the dispatcher, once there is one. -/
  phase : Option Trap.Phase := none
  /-- What the self-test received. -/
  received : ReceiveBuffer := .new .byte testLength
  /-- Drains by the self-test's reception, once there is one. -/
  completions : Option Nat := none

/-- What the program runs on. -/
structure Host (σ : Type) where
  /-- The bus. It hears of every record before the program's own logger does. -/
  bus : Platform σ
  core : Core σ
  /-- A round of a wait that makes no access. -/
  pause : Proc σ Unit
  /-- Number of the hart. -/
  hart : Nat
  /-- Where the program's state is. -/
  state : Cell σ State
  /-- Handlers from outside the program. -/
  custom : Nat → Word → Proc σ Unit

namespace Host

variable {σ : Type} (h : Host σ)

def ring : Cell σ Log.Ring where
  get := fun s => (h.state.get s).ring.getD (.new 0)
  put := fun r s => h.state.put { h.state.get s with ring := some r } s

def policy : Cell σ (SourceTable Service) where
  get := fun s => (h.state.get s).policy.getD .empty
  put := fun t s => h.state.put { h.state.get s with policy := some t } s

def phase : Cell σ Trap.Phase where
  get := fun s => (h.state.get s).phase.getD .idle
  put := fun p s => h.state.put { h.state.get s with phase := some p } s

def received : Cell σ ReceiveBuffer where
  get := fun s => (h.state.get s).received
  put := fun b s => h.state.put { h.state.get s with received := b } s

def completions : Cell σ Nat where
  get := fun s => (h.state.get s).completions.getD 0
  put := fun n s => h.state.put { h.state.get s with completions := some n } s

/-- The logger stamps records with the hart and the timer and writes to the console. -/
def logger : Log.Logger σ where
  ring := h.ring
  filter := some .debug
  stamp := do return { hart := h.hart, ticks := (← SystemTimer.value h.bus).toNat }
  accept := Console.writeBytes h.bus

/-- A record of the program. Before logging is set up the logger does not get it. -/
def log (r : Log.Record) : Proc σ Unit := do
  h.bus.log r
  let s ← h.state.read
  if s.filter.admits r.level && s.ring.isSome then h.logger.log (.ofRecord r)

/-- What the program's drivers run on. -/
def platform : Platform σ := { h.bus with log := h.log }

end Host

end BoardSupport.Program
