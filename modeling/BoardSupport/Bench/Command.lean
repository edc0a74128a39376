import BoardSupport.Bench.Reply
import BoardSupport.Interrupt.Controller
import BoardSupport.Peripheral.Console
import BoardSupport.Peripheral.Gpio
import BoardSupport.Peripheral.I2c
import BoardSupport.Peripheral.Timer
import BoardSupport.Text.Utf8

/-!
Commands to the drivers, over any platform, and commands to the board behind the drivers' back.
-/

namespace BoardSupport.Bench

variable {σ : Type}

inductive UartCommand where
  | init (c : Uart.Config)
  | config
  | control
  | setParity (p : Uart.Parity)
  | send (units : List Word)
  | recv (n : Nat)

def UartCommand.perform (p : Platform σ) : UartCommand → Proc σ Reply
  | .init c => do return .ofConfig (← Uart.init p c)
  | .config => do return .uart (← Uart.config p)
  | .control => do return .word (← Uart.control p)
  | .setParity parity => do Uart.setParity p parity; return .none
  | .send units => do (Uart.channel p).send .byte units; return .none
  | .recv n => do return .words (← (Uart.channel p).recv .byte n)

inductive ChannelCommand where
  | txCapacity
  | txLength
  | rxCapacity
  | rxLength
  | clearTx
  | clearRx
  | send (w : Width) (units : List Word)
  | recv (w : Width) (n : Nat)
  | trySend (w : Width) (unit : Word)
  | tryRecv (w : Width)
  | setTxIrq (enabled : Bool) (threshold : Word)
  | setRxIrq (enabled : Bool) (threshold : Word)
  | enabledIrqs
  | pendingIrqs

def ChannelCommand.perform (c : Channel σ) : ChannelCommand → Proc σ Reply
  | .txCapacity => do return .word (← c.txCapacity)
  | .txLength => do return .word (← c.txLength)
  | .rxCapacity => do return .word (← c.rxCapacity)
  | .rxLength => do return .word (← c.rxLength)
  | .clearTx => do c.clearTx; return .none
  | .clearRx => do c.clearRx; return .none
  | .send w units => do c.send w units; return .none
  | .recv w n => do return .words (← c.recv w n)
  | .trySend w unit => do return .bool (← c.trySend w unit)
  | .tryRecv w => do return .optional (← c.tryRecv w)
  | .setTxIrq enabled threshold => do c.setTxIrq enabled threshold; return .none
  | .setRxIrq enabled threshold => do c.setRxIrq enabled threshold; return .none
  | .enabledIrqs => do return .word (← c.enabledIrqs)
  | .pendingIrqs => do return .irqs (← c.pendingIrqs)

inductive SpiCommand where
  | init (c : Spi.Config) (select : Word) (receive : Bool)
  | config
  | setSelect (lines : Word)
  | setIdle (lines : Word)
  | send (w : Width) (units : List Word)
  | recv (w : Width) (n : Nat)

def SpiCommand.perform (c : Channel σ) : SpiCommand → Proc σ Reply
  | .init settings select receive => do
    return .ofConfig (← Spi.init c.regs settings select receive)
  | .config => do return .spi (← Spi.config c.regs)
  | .setSelect lines => do Spi.setSelect c.regs lines; return .none
  | .setIdle lines => do Spi.setIdle c.regs lines; return .none
  | .send w units => do c.send w units; return .none
  | .recv w n => do return .words (← c.recv w n)

inductive I2cCommand where
  | init (c : I2c.Config)
  | isBusy
  | start (frames : Word)
  | waitIdle
  | transfer (frames : List Word)

def I2cCommand.perform (p : Platform σ) : I2cCommand → Proc σ Reply
  | .init c => do I2c.init p c; return .none
  | .isBusy => do return .bool (← I2c.isBusy p)
  | .start frames => do I2c.start p frames; return .none
  | .waitIdle => do I2c.waitIdle p; return .none
  | .transfer frames => do I2c.transfer p frames; return .none

inductive GpioCommand where
  | setMode (mode : Word)
  | setDirection (pin : Word) (d : Gpio.Direction)
  | setPull (pin : Word) (pull : Gpio.Pull)
  | write (pin : Word) (high : Bool)
  | read (pin : Word)
  | readAll
  | setIrq (pin : Word) (enabled : Bool)
  | pending

def GpioCommand.perform (p : Platform σ) : GpioCommand → Proc σ Reply
  | .setMode mode => do Gpio.setMode p mode; return .none
  | .setDirection pin d => do Gpio.setDirection p pin d; return .none
  | .setPull pin pull => do Gpio.setPull p pin pull; return .none
  | .write pin high => do Gpio.write p pin high; return .none
  | .read pin => do return .bool (← Gpio.read p pin)
  | .readAll => do return .word (← Gpio.readAll p)
  | .setIrq pin enabled => do Gpio.setIrq p pin enabled; return .none
  | .pending => do return .word (← Gpio.pending p)

inductive SystemTimerCommand where
  | init (autoClear : Bool) (divider : BitVec 16) (compare : SystemTimer.Count)
  | start
  | stop
  | isRunning
  | setCompare (compare : SystemTimer.Count)
  | value
  | setValue (c : SystemTimer.Count)

def SystemTimerCommand.perform (p : Platform σ) : SystemTimerCommand → Proc σ Reply
  | .init autoClear divider compare => do
    SystemTimer.init p autoClear divider compare
    return .none
  | .start => do SystemTimer.start p; return .none
  | .stop => do SystemTimer.stop p; return .none
  | .isRunning => do return .bool (← SystemTimer.isRunning p)
  | .setCompare compare => do SystemTimer.setCompare p compare; return .none
  | .value => do return .text (Text.decimal (← SystemTimer.value p).toNat)
  | .setValue c => do SystemTimer.setValue p c; return .none

inductive BlockTimerCommand where
  | init (autoClear event : Bool) (divider : BitVec 16) (compare : Word)
  | start
  | stop
  | value
  | clear

def BlockTimerCommand.perform (r : Registers σ) : BlockTimerCommand → Proc σ Reply
  | .init autoClear event divider compare => do
    BlockTimer.init r autoClear event divider compare
    return .none
  | .start => do BlockTimer.setRunning r true; return .none
  | .stop => do BlockTimer.setRunning r false; return .none
  | .value => do return .word (← BlockTimer.value r)
  | .clear => do BlockTimer.clear r; return .none

inductive ConsoleCommand where
  | writeBytes (bytes : List UInt8)
  | writeText (s : String)
  | reportExit (code : Word)

def ConsoleCommand.perform (p : Platform σ) : ConsoleCommand → Proc σ Reply
  | .writeBytes bytes => do Console.writeBytes p bytes; return .none
  | .writeText s => do Console.writeText p s; return .bool true
  | .reportExit code => do Console.reportExit p code; return .none

inductive ControllerCommand where
  | configure (id : Word) (c : SourceConfig)
  | enable (id : Word)
  | disable (id : Word)
  | isEnabled (id : Word)
  | isPending (id : Word)
  | setThreshold (level : Word)
  | claim
  | complete (id : Word)

def ControllerCommand.perform (p : Platform σ) : ControllerCommand → Proc σ Reply
  | .configure id c => do Controller.configure p id c; return .none
  | .enable id => do Controller.enable p id; return .none
  | .disable id => do Controller.disable p id; return .none
  | .isEnabled id => do return .bool (← Controller.isEnabled p id)
  | .isPending id => do return .bool (← Controller.isPending p id)
  | .setThreshold level => do Controller.setThreshold p level; return .none
  | .claim => do return .optional (← Controller.claim p)
  | .complete id => do Controller.complete p id; return .none

inductive RegistersCommand where
  | base
  | name
  | read (offset : Nat)
  | write (offset : Nat) (v : Word)
  | writeByte (offset : Nat) (v : UInt8)
  /-- Keep the bits of the first mask, then flip those of the second. -/
  | modify (offset : Nat) (keep flip : Word)
  /-- A load at the base. -/
  | load (w : Width)

def RegistersCommand.perform (r : Registers σ) : RegistersCommand → Proc σ Reply
  | .base => return .text (Text.decimal r.base)
  | .name => return .text r.name
  | .read offset => do return .word (← r.read offset)
  | .write offset v => do r.write offset v; return .none
  | .writeByte offset v => do r.writeByte offset v; return .none
  | .modify offset keep flip => do
    r.modify offset fun v => return (v &&& keep) ^^^ flip
    return .none
  | .load w => do return .word (← r.platform.load r.base w)

/-- A command to a driver. -/
inductive Command where
  | uart (c : UartCommand)
  | spi0 (c : SpiCommand)
  | spi1 (c : SpiCommand)
  | i2c (c : I2cCommand)
  | channel (link : Link) (c : ChannelCommand)
  | gpio (c : GpioCommand)
  | systemTimer (c : SystemTimerCommand)
  | timer (c : BlockTimerCommand)
  | watchdog (c : BlockTimerCommand)
  | softwareAssert
  | softwareClear
  | console (c : ConsoleCommand)
  | controller (c : ControllerCommand)
  | load (address : Nat) (w : Width)
  | store (address : Nat) (w : Width) (v : Word)
  | registers (base : Nat) (c : RegistersCommand)

def Command.perform (p : Platform σ) : Command → Proc σ Reply
  | .uart c => c.perform p
  | .spi0 c => c.perform (Link.spi0.channel p)
  | .spi1 c => c.perform (Link.spi1.channel p)
  | .i2c c => c.perform p
  | .channel link c => c.perform (link.channel p)
  | .gpio c => c.perform p
  | .systemTimer c => c.perform p
  | .timer c => c.perform ⟨p, MemoryMap.timer⟩
  | .watchdog c => c.perform ⟨p, MemoryMap.watchdog⟩
  | .softwareAssert => do SoftwareInterrupt.assert p; return .none
  | .softwareClear => do SoftwareInterrupt.clear p; return .none
  | .console c => c.perform p
  | .controller c => c.perform p
  | .load address w => do return .word (← p.load address w)
  | .store address w v => do p.store address w v; return .none
  | .registers base c => c.perform ⟨p, base⟩

/-- What happens to the board, or is asked of it, without a bus access. -/
inductive BoardCommand where
  | setWire (link : Link) (wire : Wire)
  | peerSend (link : Link) (unit : Word)
  | peerDrain (link : Link) (n : Nat)
  | queues (link : Link)
  | raise (id : Nat)
  | asserted
  | events
  | trigger (id : Nat)
  | console
  | peek (address : Nat)
  | poke (address : Nat) (v : Word)

def BoardCommand.perform : BoardCommand → Proc Board Reply
  | .setWire link wire => do modify (·.setWire link wire); return .none
  | .peerSend link unit => do return .bool (← modifyGet (·.peerSend link unit))
  | .peerDrain link n => do return .number (← modifyGet (·.peerDrain link n))
  | .queues link => do return .queues ((← get).queues link)
  | .raise id => do
    match (← get).raise id with
    | .ok b => set b; return .none
    | .error f => Proc.fault f
  | .asserted => do return .bool (← get).interruptAsserted
  | .events => do return .texts ((← get).arbiter.events.map ClaimEvent.text)
  | .trigger id => do
    match (← get).arbiter.triggerOf id with
    | .ok v => return .word v
    | .error f => Proc.fault f
  | .console => do
    let b ← get
    return .console (Text.decode b.console.toList) (b.scratchWords.map (·.toNat))
  | .peek address => do
    match (← get).load address .word with
    | .ok (v, b) => set b; return .word v
    | .error f => Proc.fault f
  | .poke address v => do modify (·.store address .word v); return .none

end BoardSupport.Bench
