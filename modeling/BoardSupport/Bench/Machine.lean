import BoardSupport.Bench.Command
import BoardSupport.Bench.Script
import BoardSupport.Program.Boot
import BoardSupport.Program.SelfTest

/-!
The board support program on a machine: a board and a hart that takes interrupts.

Interrupts are looked for after every access of the program and after every change of the
hart's enables. Everything the program does takes ticks, of which the machine has a limited
number.
-/

namespace BoardSupport.Bench

/-- Operations on the machine. -/
inductive MachineOp where
  | initLogging
  | initInterrupts (id : Word) (c : SourceConfig) (s : Script MachineOp)
  | selfTest
  /-- Enter the trap handler by hand, with interrupts off meanwhile. -/
  | trap (cause address : BitVec 64)
  /-- Take an interrupt as the hart does. -/
  | take (cause : BitVec 64)
  | setGlobal (enabled : Bool)
  | setClass (c : Trap.Class) (enabled : Bool)
  | hart
  | withMasked (c : Trap.Class) (ops : List MachineOp)
  | without (ops : List MachineOp)
  | log (l : Log.Level) (text : String)
  | timer (c : SystemTimer.Count)
  | softwareAssert
  | initSections (flash sram : List UInt8)
  | memoryRegion
  | board (c : BoardCommand)
  /-- Look for interrupts now. -/
  | interrupts

/-- How many ticks the machine has. -/
def tickLimit : Nat := 20000

/-- Where an interrupt breaks in. -/
def resumeAddress : BitVec 64 := 0x20000400#64

structure Machine where
  board : Board := {}
  program : Program.State := {}
  hartId : Nat := 0
  /-- The hart's enables; the global one is cleared while a trap is handled. -/
  flags : CoreFlags := {}
  /-- Ticks that are left. -/
  left : Nat := tickLimit
  /-- Accesses so far, without characters of the console. -/
  accesses : Nat := 0
  accessHooks : List (Hook MachineOp) := []
  lineHooks : List (Hook MachineOp) := []
  /-- Console lines begun so far. -/
  lines : Nat := 0
  /-- The console line that is not complete, if one is begun. -/
  line : Option (Array UInt8) := none
  scripts : Array (Script MachineOp) := #[]
  /-- Memory of the sections. -/
  memory : Nat → UInt8 := fun _ => 0
  events : Array Event := #[]

namespace Machine

def seen : Cell Machine (Array Event) := ⟨events, fun a m => { m with events := a }⟩

def boardCell : Cell Machine Board := ⟨board, fun b m => { m with board := b }⟩

def programCell : Cell Machine Program.State := ⟨program, fun s m => { m with program := s }⟩

def allScripts : Cell Machine (Array (Script MachineOp)) :=
  ⟨scripts, fun a m => { m with scripts := a }⟩

def tick : Proc Machine Unit := do
  let m ← get
  if m.left = 0 then Proc.hang
  set { m with left := m.left - 1 }

variable (perform : MachineOp → Proc Machine Reply)

/-- A handler from outside the program: its operations, on its first calls. -/
def scripted (i : Nat) (id : Word) : Proc Machine Unit := do
  emit seen (.sourceHandler id.toNat)
  runScript seen allScripts perform i

/-! ### Interrupts -/

/-- The interrupt that the hart would take now. -/
def interrupt? (m : Machine) : Option (BitVec 64) :=
  if m.flags.global then
    if m.flags.external && m.board.interruptAsserted then some 0x8000000b#64
    else if m.flags.software &&
        m.board.memory (MemoryMap.system + SystemRegister.softwareInterrupt) != 0#32 then
      some 0x80000003#64
    else none
  else none

/-- Take interrupts until there is none to take. Each takes a tick. -/
def look : Proc Machine Unit := fun m =>
  Platform.rounds (fun _ => do
    match (← get).interrupt? with
    | some cause =>
      discard (perform (.take cause))
      return .inl ()
    | none => return .inr ()) (m.left + 1) () m

/-! ### The bus -/

/-- Count an access, and run what is to be run before it. -/
def beginAccess : Proc Machine Unit := do
  tick
  let m ← get
  let number := m.accesses + 1
  let (due, rest) := Hook.due m.accessHooks number
  set { m with accesses := number, accessHooks := rest }
  runNested seen perform due

/-- Begin a console line if none is begun, and run what is to be run before it. -/
def beginCharacter : Proc Machine Unit := do
  tick
  let m ← get
  if m.line.isNone then
    let number := m.lines + 1
    let (due, rest) := Hook.due m.lineHooks number
    set { m with lines := number, line := some #[], lineHooks := rest }
    runNested seen perform due

/-- A console line as it is shown: a record's line number is left out. -/
def shownLine (bytes : List UInt8) : String :=
  let s := Text.decode bytes
  match s.toList with
  | '\x1b' :: _ =>
    let rest := s.toList.dropWhile (· != '@')
    let after := (rest.drop 1).dropWhile Char.isDigit
    if ['|', ' '].isPrefixOf after then
      String.ofList (s.toList.takeWhile (· != '@') ++ '@' :: after)
    else s
  | _ => s

/-- A character of the console. A line is seen when it is complete. -/
def character (b : UInt8) : Proc Machine Unit := do
  let m ← get
  let line := m.line.getD #[]
  if b = 10 then
    set { m with line := none }
    emit seen (.line (shownLine line.toList))
  else
    set { m with line := some (line.push b) }

def isCharacter (address : Nat) (w : Width) : Bool :=
  w == .byte && address == MemoryMap.system + SystemRegister.scratch

def load (address : Nat) (w : Width) : Proc Machine Word := do
  beginAccess perform
  match (← get).board.load address w with
  | .ok (v, b) =>
    boardCell.write b
    emit seen (.load w address v)
    return v
  | .error f => Proc.fault f

def store (address : Nat) (w : Width) (v : Word) : Proc Machine Unit := do
  if isCharacter address w then
    beginCharacter perform
    boardCell.update (·.store address w v)
    character (UInt8.ofNat v.toNat)
  else
    beginAccess perform
    boardCell.update (·.store address w v)
    emit seen (.store w address v)

/-- The bus as the program sees it: interrupts are looked for after every access. -/
def bus : Platform Machine :=
  Platform.after
    { load := load perform, store := store perform, log := fun _ => pure (), patience := left }
    (look perform)

/-- A write to one of the hart's enables, and a look for interrupts. -/
def writeBit (name : String) (on : Bool) (f : CoreFlags → CoreFlags) : Proc Machine Unit := do
  modify fun m => { m with flags := f m.flags }
  emit seen (.hartBit name on)
  look perform

def bitName : Trap.Class → String
  | .software => "mie.msoft"
  | .timer => "mie.mtimer"
  | .external => "mie.mext"

def core : Core Machine where
  setGlobal := fun enabled => do
    let was := (← get).flags.global
    writeBit perform "mstatus.mie" enabled fun f => { f with global := enabled }
    return was
  setClass := fun c enabled => do
    let was := (← get).flags.get c
    writeBit perform (bitName c) enabled fun f => f.put enabled c
    return was

/-- What the program runs on. -/
def host (hartId : Nat) : Program.Host Machine where
  bus := bus perform
  core := core perform
  pause := do tick; look perform
  hart := hartId
  state := programCell
  custom := scripted perform

/-- The classes' enables as bits of one number. -/
def enableBits (f : CoreFlags) : Nat :=
  [Trap.Class.software, .timer, .external].foldl
    (fun acc c => acc + if f.get c then 1 <<< c.code else 0) 0

/-- Memory with bytes put at an address. -/
def place (memory : Nat → UInt8) (start : Nat) (bytes : List UInt8) : Nat → UInt8 := fun a =>
  if start ≤ a then (bytes[a - start]?).getD (memory a) else memory a

def bytesAt (memory : Nat → UInt8) (start n : Nat) : List UInt8 :=
  (List.range n).map fun i => memory (start + i)

def setGlobalFlag (on : Bool) : Proc Machine Unit :=
  modify fun m => { m with flags := { m.flags with global := on } }

/-- Perform an operation, with nested operations performed as given. -/
def performWith (op : MachineOp) : Proc Machine Reply := do
  let h := host perform (← get).hartId
  match op with
  | .initLogging => do h.initLogging {} {}; return .none
  | .initInterrupts id c s => do
    h.initInterrupts id c (.custom (← addScript allScripts s))
    return .none
  | .selfTest => do return .number (← Program.SelfTest.run h)
  | .trap cause address => do
    let was := (← get).flags.global
    setGlobalFlag false
    let r ← h.handleTrap cause address
    setGlobalFlag was
    return .text (Text.decimal r.toNat)
  | .take cause => do
    tick
    setGlobalFlag false
    emit seen (.trapTaken cause.toNat)
    let r ← h.handleTrap cause resumeAddress
    emit seen (.trapLeft r.toNat)
    setGlobalFlag true
    return .none
  | .setGlobal enabled => do return .bool (← h.core.setGlobal enabled)
  | .setClass c enabled => do return .bool (← h.core.setClass c enabled)
  | .hart => do
    let f := (← get).flags
    return .hart f (enableBits f)
  | .withMasked c ops => do return .list (← h.core.withMasked c (Proc.sequence (ops.map perform)))
  | .without ops => do return .list (← h.core.without (Proc.sequence (ops.map perform)))
  | .log l text => do h.log ⟨l, ⟨"app", 1⟩, text⟩; return .none
  | .timer c => do
    SystemTimer.init h.platform false 0#16 (BitVec.allOnes 64)
    SystemTimer.start h.platform
    SystemTimer.setValue h.platform c
    return .none
  | .softwareAssert => do SoftwareInterrupt.assert h.platform; return .none
  | .initSections flash sram => do
    let image : Program.Image := {}
    let memory := place (place (← get).memory MemoryMap.flashStart flash) MemoryMap.sramStart sram
    let memory := image.initSections memory
    modify fun m => { m with memory }
    return .sections (bytesAt memory MemoryMap.sramStart sram.length)
      (bytesAt memory MemoryMap.flashStart flash.length)
  | .memoryRegion => do
    let image : Program.Image := {}
    return .region image.region.1 image.region.2
  | .board c => boardCell.run c.perform
  | .interrupts => do look perform; return .none

end Machine

/-- Run the steps of a machine until one halts. -/
def Machine.run (m : Machine) (steps : List MachineOp) : List Outcome :=
  runSteps (fun m => { m with events := #[] }) (·.events.toList)
    (performNested Machine.performWith nestingLimit) steps m

end BoardSupport.Bench
