import BoardSupport.Peripheral.Uart
import BoardSupport.Program.Interrupts

/-!
The self-test: a pattern is sent on the UART, whose line is looped back, received through
interrupts, and compared.
-/

namespace BoardSupport.Program.SelfTest

/-- Receive queue length that raises the receive interrupt. -/
def rxThreshold : Word := 4#32

/-- The units 1 to 16. -/
def pattern : List Word := (List.range testLength).map fun i => BitVec.ofNat 32 (i + 1)

def path : String := "bsp::self_test"

variable {σ : Type} (h : Host σ)

/-- Send the units one by one. -/
def sendAll (c : Channel σ) : List Word → Proc σ Unit
  | [] => pure ()
  | unit :: rest => do
    c.send .byte [unit]
    sendAll c rest

/-- Wait until as many units are received as were sent. -/
def awaitAll : Proc σ Unit :=
  h.platform.await do
    if (← h.received.read).count < testLength then
      h.pause
      return false
    else
      return true

/-- Compare from number `i` up. The result is how many units differ. -/
def compare (i : Nat) : List (Word × Word) → Proc σ Nat
  | [] => pure 0
  | (expected, actual) :: rest => do
    if expected = actual then
      h.platform.info path 111
        ("Data " ++ Text.decimal i ++ ": PASS, 0x" ++ Text.hex actual.toNat)
      compare (i + 1) rest
    else
      h.platform.error path 114
        ("Data " ++ Text.decimal i ++ ": FAIL, 0x" ++ Text.hex expected.toNat ++ " vs. 0x" ++
          Text.hex actual.toNat)
      return (← compare (i + 1) rest) + 1

/-- Take the writing end of the buffer for the reception, the first time. -/
def initReception : Proc σ Unit := do
  if (← h.state.read).completions.isNone then
    let b ← Proc.ofOption (.missing "receive buffer has no other writer")
      (← h.received.read).takeWriter
    h.received.write b
    h.completions.write 0

/-- Configure the UART and its receive interrupt. -/
def setUp : Proc σ Unit := do
  let p := h.platform
  match ← Uart.init p {} with
  | .ok _ => pure ()
  | .error e => Proc.fault (.failed "configure UART" e.message)
  p.info path 34 "UART config done!"
  initReception h
  h.initInterrupts (BitVec.ofNat 32 Source.uart) { priority := 7#32, mode := .level } .reception
  (Link.uart.channel p).setRxIrq true rxThreshold
  p.info path 88 "IRQs config done!"

/-- Run the test. The result is the exit code of the program. -/
def run : Proc σ Nat := do
  let p := h.platform
  setUp h
  sendAll (Link.uart.channel p) pattern
  p.info path 94
    ("Data sent done (TN = " ++ Text.decimal testLength ++ ", RN = " ++
      Text.decimal (← h.received.read).count ++ ")!")
  awaitAll h
  p.info path 102
    ("Data recv done (TN = " ++ Text.decimal testLength ++ ", RN = " ++
      Text.decimal (← h.received.read).count ++ ") in " ++
      Text.decimal (← h.completions.read) ++ " interrupts!")
  let failures ← compare h 0 (pattern.zip (← h.received.read).received)
  if 0 < failures then
    p.error path 119 "Data check failed!"
    return 1
  else
    p.info path 122 "Data check passed!"
    return 0

end BoardSupport.Program.SelfTest
