import BoardSupport.MemoryMap
import BoardSupport.Register.Block
import BoardSupport.Register.Field

/-!
Timers: the 64-bit system timer and the 32-bit blocks for general purposes and the watchdog.

The system timer's count is in two registers of 32 bits. It is read high, low, high until both
high halves agree, so that a carry between the halves is not seen as a value.
-/

namespace BoardSupport

/-! The configuration register of every timer. -/

namespace TimerControl

def countEnable : Field := .bit "count_enable" 0
def autoClear : Field := .bit "auto_clear" 1
def eventEnable : Field := .bit "event_enable" 2
def clockDivider : Field := ⟨"clock_divider", 16, 16, false⟩

def format : Format := ⟨"TimerConfig", [countEnable, autoClear, eventEnable, clockDivider]⟩

def path : String := "bsp_core::platform::timer"

end TimerControl

namespace SystemTimer

variable {σ : Type}

abbrev Count := BitVec 64

def high (c : Count) : Word := c.extractLsb' 32 32

def low (c : Count) : Word := c.extractLsb' 0 32

def registers (p : Platform σ) : Registers σ := ⟨p, MemoryMap.system⟩

def control (p : Platform σ) : Proc σ Word := (registers p).read SystemRegister.timerConfig

/-- The compare value, low half first. -/
def setCompare (p : Platform σ) (compare : Count) : Proc σ Unit := do
  (registers p).write SystemRegister.compareLow (low compare)
  (registers p).write SystemRegister.compareHigh (high compare)

/-- Clock, clearing and compare value. The counter goes on or rests as it did. -/
def init (p : Platform σ) (autoClear : Bool) (divider : BitVec 16) (compare : Count) :
    Proc σ Unit := do
  let old ← control p
  let new := TimerControl.clockDivider.put (divider.setWidth 32)
    (TimerControl.autoClear.putBool autoClear old)
  p.debug TimerControl.path 70
    ("system timer config " ++ TimerControl.format.text new ++ ", compare=" ++
      Text.decimal compare.toNat)
  (registers p).write SystemRegister.timerConfig new
  setCompare p compare

def setRunning (p : Platform σ) (running : Bool) : Proc σ Unit :=
  (registers p).modify SystemRegister.timerConfig fun v =>
    return TimerControl.countEnable.putBool running v

def start (p : Platform σ) : Proc σ Unit := setRunning p true

def stop (p : Platform σ) : Proc σ Unit := setRunning p false

def isRunning (p : Platform σ) : Proc σ Bool := do
  return TimerControl.countEnable.isSet (← control p)

/-- One reading of the count, or none if the high half changed meanwhile. -/
def sample (p : Platform σ) : Proc σ (Option Count) := do
  let h ← (registers p).read SystemRegister.timerHigh
  let l ← (registers p).read SystemRegister.timerLow
  if h = (← (registers p).read SystemRegister.timerHigh) then
    return some (h ++ l)
  else
    p.trace TimerControl.path 117
      ("torn system timer read (high=0x" ++ Text.hex h.toNat ++ ", low=0x" ++ Text.hex l.toNat ++
        "), retrying")
    return none

def value (p : Platform σ) : Proc σ Count :=
  p.iterate (fun _ => do
    match ← sample p with
    | some c => return .inr c
    | none => return .inl ()) ()

/-- Overwrite the count. A running counter is stopped around the two writes. -/
def setValue (p : Platform σ) (c : Count) : Proc σ Unit := do
  let running ← isRunning p
  if running then stop p
  (registers p).write SystemRegister.timerLow (low c)
  (registers p).write SystemRegister.timerHigh (high c)
  if running then start p

end SystemTimer

/-! A timer block of 32 bits, given by its registers. -/

namespace BlockTimer

/-- Offsets of the registers. -/
def controlRegister : Nat := 0x0
def valueRegister : Nat := 0x4
def compareRegister : Nat := 0x8
def clearRegister : Nat := 0xc

variable {σ : Type}

/-- Configure the block with its counter at rest. -/
def init (r : Registers σ) (autoClear event : Bool) (divider : BitVec 16) (compare : Word) :
    Proc σ Unit := do
  let w := TimerControl.clockDivider.put (divider.setWidth 32)
    (TimerControl.eventEnable.putBool event (TimerControl.autoClear.putBool autoClear 0#32))
  r.platform.debug TimerControl.path 178
    ("timer " ++ r.name ++ " config " ++ TimerControl.format.text w ++ ", compare=" ++
      Text.decimal compare.toNat)
  r.write controlRegister w
  r.write compareRegister compare

def setRunning (r : Registers σ) (running : Bool) : Proc σ Unit :=
  r.modify controlRegister fun v => return TimerControl.countEnable.putBool running v

def value (r : Registers σ) : Proc σ Word := r.read valueRegister

/-- Back to zero; this is what feeds the watchdog. -/
def clear (r : Registers σ) : Proc σ Unit := r.write clearRegister 1#32

end BlockTimer

end BoardSupport
