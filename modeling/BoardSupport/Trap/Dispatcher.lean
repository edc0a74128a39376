import BoardSupport.Trap.Cause
import BoardSupport.Platform

/-!
The trap dispatcher. An interrupt runs the handler of its class and resumes where it broke in;
a synchronous exception ends the program, and after it every trap does.
-/

namespace BoardSupport.Trap

/-- One handler for each class. -/
structure Table (η : Type) where
  external : η
  timer : η
  software : η

def Table.handler {η : Type} (t : Table η) : Class → η
  | .external => t.external
  | .timer => t.timer
  | .software => t.software

inductive Phase where
  | idle
  /-- A handler is running. -/
  | dispatching
  /-- An exception was taken and no trap is served any more. -/
  | terminating
  deriving DecidableEq

def Phase.name : Phase → String
  | .idle => "Idle"
  | .dispatching => "Dispatching"
  | .terminating => "Terminating"

/-- A trap from which there is no return. -/
structure Fatal where
  cause : Cause
  address : Nat
  deriving DecidableEq

namespace Fatal

def message (f : Fatal) : String :=
  "synchronous exception " ++ f.cause.text ++ " at 0x" ++ Text.hex f.address

/-- One more than the code of the cause. -/
def exitCode (f : Fatal) : Nat := f.cause.code + 1

end Fatal

def path : String := "bsp_core::exceptions::trap"

variable {σ : Type}

/-- Back from a handler: a dispatcher that an exception has ended stays ended. -/
def Phase.leave (now previous : Phase) : Phase :=
  if now = .dispatching then previous else now

/-- Serve a trap that broke in at the address. The result is where to go on. -/
def dispatch (p : Platform σ) (phase : Cell σ Phase) (handle : Class → Proc σ Unit)
    (cause : Cause) (address : Nat) : Proc σ (Except Fatal Nat) := do
  let previous ← phase.read
  if !cause.isInterrupt || previous == .terminating then
    phase.write .terminating
    p.error path 161 (cause.text ++ " at 0x" ++ Text.hex address)
    return .error ⟨cause, address⟩
  else
    match cause.class? with
    | none =>
      p.warn path 170 ("unknown " ++ cause.text ++ " at 0x" ++ Text.hex address)
      return .ok address
    | some c =>
      if previous = .idle then
        phase.write .dispatching
      else
        p.warn path 182 ("nested " ++ cause.text ++ " while dispatching")
      p.trace path 186 ("dispatch " ++ cause.text)
      handle c
      phase.update (·.leave previous)
      return .ok address

end BoardSupport.Trap
