import BoardSupport.Program.Host

/-!
Interrupts of the program: setting them up, and the entry of every trap.
-/

namespace BoardSupport.Program.Host

variable {σ : Type} (h : Host σ)

/-- The self-test's reception on the UART. -/
def reception : Reception σ where
  channel := Link.uart.channel h.platform
  buffer := h.received
  completions := h.completions

/-- Serve a claimed source. -/
def serve : Service → Word → Proc σ Unit
  | .reception, id => h.reception.handle id
  | .custom i, id => h.custom i id

/-- The handler of each class: external interrupts go to the policy, a software interrupt is
cleared, the timer is ignored. -/
def handleClass : Trap.Class → Proc σ Unit
  | .external => discard (SourceTable.process h.platform h.policy h.serve)
  | .software => SoftwareInterrupt.clear h.platform
  | .timer => pure ()

/-- The policy with the source's handler, if there is no policy yet. -/
def initPolicy (id : Word) (service : Service) : Proc σ Unit := do
  if (← h.state.read).policy.isNone then
    match SourceTable.empty.register id service with
    | .ok t => h.policy.write t
    | .error e => Proc.fault (.failed "register interrupt source handler" e.text)

/-- The dispatcher, if there is none yet. -/
def initDispatcher : Proc σ Unit := do
  if (← h.state.read).phase.isNone then h.phase.write .idle

def interruptsPath : String := "bsp::exceptions::interrupt"

/-- Set up controller and dispatcher with a handler for a source, and let interrupts in. -/
def initInterrupts (id : Word) (config : SourceConfig) (service : Service) : Proc σ Unit := do
  let p := h.platform
  p.trace interruptsPath 33 "Initializing interrupts…"
  Controller.configure p id config
  Controller.setThreshold p 0#32
  h.initPolicy id service
  h.initDispatcher
  Controller.enable p id
  discard (h.core.setClass .external true)
  discard (h.core.setClass .software true)
  discard (h.core.setGlobal true)
  p.info interruptsPath 60 "Interrupts initialized!"

def handlersPath : String := "bsp::exceptions::handlers"

/-- The entry of a trap, with the cause and the address as the core gives them. The cause is in
the low 32 bits. The result is where to go on; a fatal trap ends the program. -/
def handleTrap (mcause mepc : BitVec 64) : Proc σ (BitVec 64) := do
  if (← h.state.read).phase.isNone then
    Proc.fault (.missing "trap dispatcher to be initialized before interrupts are enabled")
  let p := h.platform
  match ← Trap.dispatch p h.phase h.handleClass ⟨mcause.setWidth 32⟩ mepc.toNat with
  | .ok address => return BitVec.ofNat 64 address
  | .error e =>
    p.error handlersPath 21 e.message
    Console.writeText p "trap\n"
    throw (.exit e.exitCode)

end BoardSupport.Program.Host
