import BoardSupport.Peripheral.Gpio
import BoardSupport.Proofs.Station

/-!
The pins as a table.

To a program every pin has a direction, a pull, a level and an interrupt enable, which it sets one
pin at a time. The board keeps them in six registers with a bit for each pin, and the direction and
the pull take two registers each. Still every entry is what the last call about it gave, and the two
bits of a direction or of a pull are never both set. A pin that is not there has no bit, so that a
call about it changes nothing.
-/

namespace BoardSupport.Gpio

/-! ### Calls and pins -/

/-- What a call sets of a pin. -/
inductive Setting where
  | direction (d : Direction)
  | pull (p : Pull)
  | level (high : Bool)
  | irq (enabled : Bool)

namespace Setting

def direction? : Setting → Option Direction
  | .direction d => some d
  | _ => none

def pull? : Setting → Option Pull
  | .pull p => some p
  | _ => none

def level? : Setting → Option Bool
  | .level high => some high
  | _ => none

def irq? : Setting → Option Bool
  | .irq enabled => some enabled
  | _ => none

end Setting

/-- A call that sets something of a pin, which need not be there. -/
structure PinCall where
  pin : Word
  setting : Setting

namespace PinCall

def perform {σ : Type} (p : Platform σ) (c : PinCall) : Proc σ Unit :=
  match c.setting with
  | .direction d => setDirection p c.pin d
  | .pull r => setPull p c.pin r
  | .level high => write p c.pin high
  | .irq enabled => setIrq p c.pin enabled

/-- What the call sets of this pin, if it is about this pin. -/
def about (pin : Fin pinCount) (c : PinCall) : Option Setting :=
  if c.pin.toNat = pin then some c.setting else none

end PinCall

structure Pins where
  direction : Fin pinCount → Direction
  pull : Fin pinCount → Pull
  high : Fin pinCount → Bool
  irq : Fin pinCount → Bool

/-- Each entry as the last call about it gave it. Without one a pin is disabled, floats, is low and
does not interrupt. -/
def Pins.after (calls : List PinCall) : Pins where
  direction pin :=
    (calls.filterMap fun c => (c.about pin).bind Setting.direction?).getLastD .disabled
  pull pin := (calls.filterMap fun c => (c.about pin).bind Setting.pull?).getLastD .none
  high pin := (calls.filterMap fun c => (c.about pin).bind Setting.level?).getLastD false
  irq pin := (calls.filterMap fun c => (c.about pin).bind Setting.irq?).getLastD false

/-- The registers that calls set. -/
inductive PinRegister where
  | inputEnable
  | outputEnable
  | pullUp
  | pullDown
  | outputValue
  | irqEnable
  deriving DecidableEq

namespace PinRegister

def offset : PinRegister → ℕ
  | .inputEnable => Gpio.inputEnable
  | .outputEnable => Gpio.outputEnable
  | .pullUp => Gpio.pullUp
  | .pullDown => Gpio.pullDown
  | .outputValue => Gpio.outputValue
  | .irqEnable => Gpio.irqEnable

def address (r : PinRegister) : ℕ := MemoryMap.gpio + r.offset

lemma offset_lt (r : PinRegister) : r.offset < MemoryMap.blockSize := by cases r <;> decide

lemma address_inj {r r' : PinRegister} : r.address = r'.address ↔ r = r' := by
  constructor
  · cases r <;> cases r' <;> decide
  · rintro rfl
    rfl

end PinRegister

/-- The bit of the pin in the register. -/
def Pins.bit (t : Pins) (r : PinRegister) (pin : Fin pinCount) : Bool :=
  match r with
  | .inputEnable => t.direction pin == .input
  | .outputEnable => t.direction pin == .output
  | .pullUp => t.pull pin == .up
  | .pullDown => t.pull pin == .down
  | .outputValue => t.high pin
  | .irqEnable => t.irq pin

/-! ### One bit -/

/-- The word with the bit of the pin set or cleared. -/
def withBit (pin : Word) (on : Bool) (v : Word) : Word :=
  if on then v ||| pinMask pin else v &&& ~~~pinMask pin

lemma pinMask_of_ge {pin : Word} (h : pinCount ≤ pin.toNat) : pinMask pin = 0#32 :=
  if_neg (by omega)

lemma getLsbD_pinMask (pin : Word) {j : ℕ} (hj : j < pinCount) :
    (pinMask pin).getLsbD j = decide (j = pin.toNat) := by
  have hwidth : j < 32 := hj
  by_cases hpin : pin.toNat < pinCount
  · rw [pinMask, if_pos hpin, BitVec.getLsbD_shiftLeft, BitVec.getLsbD_one]
    simp only [hwidth, decide_true, Bool.true_and]
    by_cases heq : j = pin.toNat
    · simp [heq]
    · simp only [heq, decide_false]
      by_cases hlt : j < pin.toNat
      · simp [hlt]
      · simp [show j - pin.toNat ≠ 0 by omega]
  · -- a pin out of range has an empty mask
    have hne : j ≠ pin.toNat := by omega
    simp [pinMask_of_ge (Nat.not_lt.1 hpin), hne]

lemma getLsbD_withBit (pin : Word) (on : Bool) (v : Word) {j : ℕ} (hj : j < pinCount) :
    (withBit pin on v).getLsbD j = if j = pin.toNat then on else v.getLsbD j := by
  have hwidth : j < 32 := hj
  cases on with
  | true =>
    rw [withBit, if_pos rfl, BitVec.getLsbD_or, getLsbD_pinMask pin hj]
    by_cases heq : j = pin.toNat <;> simp [heq]
  | false =>
    rw [withBit, if_neg Bool.false_ne_true, BitVec.getLsbD_and, BitVec.getLsbD_not,
      getLsbD_pinMask pin hj]
    by_cases heq : j = pin.toNat <;> simp [heq, hwidth]

/-- A pin that is not there has no bit to set or to clear. -/
lemma withBit_of_ge {pin : Word} (h : pinCount ≤ pin.toNat) (on : Bool) (v : Word) :
    withBit pin on v = v := by
  rw [withBit, pinMask_of_ge h, BitVec.or_zero, BitVec.not_zero, BitVec.and_allOnes, ite_self]

end BoardSupport.Gpio

namespace BoardSupport.Board

/-- The plain memory, as a place in the board. -/
def memoryCell : Cell Board (ℕ → Word) := ⟨Board.memory, fun m b => { b with memory := m }⟩

lemma memoryCell_lawful : memoryCell.Lawful where
  get_put _ _ := rfl
  put_get _ := rfl
  put_put _ _ _ := rfl

lemma poke_eq_put (b : Board) (a : ℕ) (v : Word) :
    b.poke a v = memoryCell.put (Function.update b.memory a v) b := by
  have hupdate : (fun a' => if a' = a then v else b.memory a') = Function.update b.memory a v := by
    funext a'
    rw [Function.update_apply]
  rw [poke, hupdate]
  rfl

end BoardSupport.Board

namespace BoardSupport.Gpio

/-! ### One call -/

variable {patience : ℕ} {b : Board}

/-- The registers of the pins are plain memory. -/
lemma place_gpio {o : ℕ} (h : o < MemoryMap.blockSize) :
    Board.place (MemoryMap.gpio + o) = .memory := by
  have hout : ∀ base, base + MemoryMap.blockSize ≤ MemoryMap.gpio ∨
      MemoryMap.gpio + MemoryMap.blockSize ≤ base →
      Board.inBlock base (MemoryMap.gpio + o) = false := by
    intro base hbase
    simp only [Board.inBlock, Bool.and_eq_false_iff, decide_eq_false_iff_not]
    omega
  have hfind :
      (Link.all.find? fun link => Board.inBlock link.base (MemoryMap.gpio + o)) = none := by
    rw [List.find?_eq_none]
    intro link _
    rw [hout link.base (by cases link <;> decide)]
    exact Bool.false_ne_true
  rw [Board.place, hout MemoryMap.system (by decide), hfind]
  rfl

lemma base_add_lt {o : ℕ} (h : o < MemoryMap.blockSize) : MemoryMap.gpio + o < addressLimit := by
  simp only [MemoryMap.blockSize] at h
  simp only [MemoryMap.gpio, addressLimit, UInt64.size]
  omega

lemma read_board {o : ℕ} (h : o < MemoryMap.blockSize) :
    (registers (Board.platform patience)).read o b = .ok (b.memory (MemoryMap.gpio + o)) b := by
  have hload : b.load (MemoryMap.gpio + o) .word = .ok (b.memory (MemoryMap.gpio + o), b) := by
    rw [Board.load, place_gpio h]
    rfl
  rw [Registers.read_eq _ (base_add_lt h)]
  exact Board.platform_load_of_ok hload

lemma write_board {o : ℕ} (h : o < MemoryMap.blockSize) (v : Word) :
    (registers (Board.platform patience)).write o v b =
      .ok () (b.poke (MemoryMap.gpio + o) v) := by
  have hstore : b.store (MemoryMap.gpio + o) .word v = b.poke (MemoryMap.gpio + o) v := by
    rw [Board.store, place_gpio h]
    rfl
  rw [Registers.write_eq _ (base_add_lt h)]
  exact congrArg (EStateM.Result.ok ()) hstore

lemma checkedMask_board (pin : Word) :
    checkedMask (Board.platform patience) pin b = .ok (pinMask pin) b := by
  rw [checkedMask]
  split <;> rfl

/-- The memory with the bit of the pin set or cleared in the register. -/
def setPin (pin : Word) (m : ℕ → Word) (r : PinRegister) (on : Bool) : ℕ → Word :=
  Function.update m r.address (withBit pin on (m r.address))

lemma setBit_board (r : PinRegister) (pin : Word) (on : Bool) :
    setBit (Board.platform patience) r.offset pin on b =
      .ok () (Board.memoryCell.put (setPin pin b.memory r on) b) := by
  have hword : ∀ v, (do
      let mask ← checkedMask (Board.platform patience) pin
      return if on then v ||| mask else v &&& ~~~mask : Proc Board Word) b =
      .ok (withBit pin on v) b := fun v => Proc.bind_of_ok (checkedMask_board pin)
  refine (Proc.bind_of_ok (read_board r.offset_lt)).trans ?_
  refine (Proc.bind_of_ok (hword _)).trans ?_
  rw [write_board r.offset_lt, Board.poke_eq_put]
  rfl

lemma getLsbD_setPin (pin : Word) (m : ℕ → Word) (r r' : PinRegister) (on : Bool) {j : ℕ}
    (hj : j < pinCount) :
    (setPin pin m r on r'.address).getLsbD j =
      if r' = r ∧ j = pin.toNat then on else (m r'.address).getLsbD j := by
  by_cases hr : r' = r
  · subst hr
    rw [setPin, Function.update_self, getLsbD_withBit pin on _ hj]
    simp only [true_and]
  · rw [setPin, Function.update_of_ne (mt PinRegister.address_inj.1 hr)]
    simp only [hr, false_and, if_false]

/-- The bits that a setting sets or clears, by their register and in their order. -/
def Setting.bits : Setting → List (PinRegister × Bool)
  | .direction d => [(.inputEnable, d == .input), (.outputEnable, d == .output)]
  | .pull p => [(.pullUp, p == .up), (.pullDown, p == .down)]
  | .level high => [(.outputValue, high)]
  | .irq enabled => [(.irqEnable, enabled)]

namespace PinCall

/-- The memory after the call. -/
def update (m : ℕ → Word) (c : PinCall) : ℕ → Word :=
  c.setting.bits.foldl (fun m bit => setPin c.pin m bit.1 bit.2) m

lemma perform_board (c : PinCall) (patience : ℕ) (b : Board) :
    c.perform (Board.platform patience) b =
      .ok () (Board.memoryCell.put (c.update b.memory) b) := by
  rcases c with ⟨pin, d | p | high | enabled⟩
  · refine (Proc.bind_of_ok (setBit_board .inputEnable pin (d == .input))).trans ?_
    exact setBit_board .outputEnable pin (d == .output)
  · refine (Proc.bind_of_ok (setBit_board .pullUp pin (p == .up))).trans ?_
    exact setBit_board .pullDown pin (p == .down)
  · exact setBit_board .outputValue pin high
  · exact setBit_board .irqEnable pin enabled

end PinCall

/-- The bit that the setting gives to the register, if it gives one. -/
def Setting.bit? (r : PinRegister) (s : Setting) : Option Bool :=
  match r with
  | .inputEnable => s.direction?.map (· == .input)
  | .outputEnable => s.direction?.map (· == .output)
  | .pullUp => s.pull?.map (· == .up)
  | .pullDown => s.pull?.map (· == .down)
  | .outputValue => s.level?
  | .irqEnable => s.irq?

namespace PinCall

def bit? (r : PinRegister) (pin : Fin pinCount) (c : PinCall) : Option Bool :=
  (c.about pin).bind (Setting.bit? r)

/-- A call gives the bits of its setting to its pin, and leaves the other pins of the same words
alone. -/
lemma getLsbD_update (r : PinRegister) (pin : Fin pinCount) (m : ℕ → Word) (c : PinCall) :
    (c.update m r.address).getLsbD pin = (c.bit? r pin).getD ((m r.address).getLsbD pin) := by
  by_cases hpin : c.pin.toNat = pin
  · -- its own pin, setting by setting and register by register
    have hbit : ∀ m r' on, (setPin c.pin m r' on r.address).getLsbD pin =
        if r = r' then on else (m r.address).getLsbD pin := by
      intro m r' on
      rw [getLsbD_setPin c.pin m r' r on pin.isLt]
      simp only [hpin, and_true]
    rw [bit?, about, if_pos hpin, Option.bind_some, update]
    cases c.setting <;> cases r <;>
      simp [Setting.bits, hbit, Setting.bit?, Setting.direction?, Setting.pull?, Setting.level?,
        Setting.irq?]
  · -- none of the writes touches the bit of another pin
    have hnone : c.bit? r pin = none := by rw [bit?, about, if_neg hpin, Option.bind_none]
    rw [hnone, Option.getD_none]
    refine foldl_kept (fun m : ℕ → Word => (m r.address).getLsbD pin) (fun m bit => ?_) _ m
    rw [getLsbD_setPin c.pin m bit.1 r bit.2 pin.isLt, if_neg fun h => hpin h.2.symm]

lemma update_elsewhere {a : ℕ} (ha : ∀ r : PinRegister, a ≠ r.address) (m : ℕ → Word)
    (c : PinCall) : c.update m a = m a := by
  refine foldl_kept (fun m : ℕ → Word => m a) (fun m bit => ?_) c.setting.bits m
  exact Function.update_of_ne (ha bit.1) _ _

/-- A call about a pin that is not there leaves every register as it is. -/
lemma update_of_ge {c : PinCall} (h : pinCount ≤ c.pin.toNat) (m : ℕ → Word) : c.update m = m :=
  foldl_kept (fun m : ℕ → Word => m)
    (fun m bit => by rw [setPin, withBit_of_ge h, Function.update_eq_self]) c.setting.bits m

/-! ### Any number of calls -/

/-- The memory after the calls. -/
def updates (calls : List PinCall) (m : ℕ → Word) : ℕ → Word := calls.foldl update m

lemma forM_perform_board (calls : List PinCall) (patience : ℕ) (b : Board) :
    calls.forM (perform (Board.platform patience)) b =
      .ok () { b with memory := updates calls b.memory } :=
  Board.memoryCell_lawful.forM_of_update (fun c b => perform_board c patience b) calls b

/-- The last bits that the calls give to a register are those of the table. -/
lemma getLastD_bit? (calls : List PinCall) (r : PinRegister) (pin : Fin pinCount) :
    (calls.filterMap (bit? r pin)).getLastD false = (Pins.after calls).bit r pin := by
  have hmap : ∀ {α : Type} (given : Setting → Option α) (f : α → Bool) (a : α), f a = false →
      (calls.filterMap fun c => (c.about pin).bind fun s => (given s).map f).getLastD false =
        f ((calls.filterMap fun c => (c.about pin).bind given).getLastD a) := by
    intro α given f a ha
    have hcalls : (calls.filterMap fun c => (c.about pin).bind fun s => (given s).map f) =
        (calls.filterMap fun c => (c.about pin).bind given).map f := by
      simp only [List.map_filterMap, Option.map_bind, Function.comp_def]
    rw [hcalls, ← ha, List.getLastD_map]
  cases r with
  | inputEnable => exact hmap Setting.direction? (· == .input) .disabled rfl
  | outputEnable => exact hmap Setting.direction? (· == .output) .disabled rfl
  | pullUp => exact hmap Setting.pull? (· == .up) .none rfl
  | pullDown => exact hmap Setting.pull? (· == .down) .none rfl
  | outputValue => rfl
  | irqEnable => rfl

lemma getLsbD_updates (calls : List PinCall) (r : PinRegister) (pin : Fin pinCount) :
    (updates calls Board.new.memory r.address).getLsbD pin = (Pins.after calls).bit r pin := by
  have hlast := foldl_eq_last (fun m : ℕ → Word => (m r.address).getLsbD pin)
    (getLsbD_update r pin) calls Board.new.memory
  refine hlast.trans ?_
  rw [← getLastD_bit?]
  exact congrArg (List.getLastD _) BitVec.getLsbD_zero

end PinCall

/-- The two directions and the two pulls exclude each other. -/
lemma Pins.bit_exclusive (t : Pins) (pin : Fin pinCount) :
    (t.bit .inputEnable pin && t.bit .outputEnable pin) = false ∧
      (t.bit .pullUp pin && t.bit .pullDown pin) = false := by
  simp only [Pins.bit]
  constructor
  · cases t.direction pin <;> rfl
  · cases t.pull pin <;> rfl

end BoardSupport.Gpio

namespace BoardSupport.Board

open Gpio

/-- The registers of the pins hold this table, and the driver reads them so. -/
structure HasPins (b : Board) (t : Pins) : Prop where
  read : ∀ (r : PinRegister) patience,
    (registers (Board.platform patience)).read r.offset b = .ok (b.memory r.address) b
  bit : ∀ (r : PinRegister) (pin : Fin pinCount),
    (b.memory r.address).getLsbD pin = t.bit r pin

/-- Everything but the registers that calls about pins set is as it was. -/
structure SameBesidePins (b b' : Board) : Prop where
  queues : ∀ link, b'.queues link = b.queues link
  arbiter : b'.arbiter = b.arbiter
  console : b'.console = b.console
  scratchWords : b'.scratchWords = b.scratchWords
  memory : ∀ a, (∀ r : PinRegister, a ≠ r.address) → b'.memory a = b.memory a

/-- Registers whose bits exclude each other in the table have no bit in common. -/
lemma HasPins.and_eq_zero {b : Board} {t : Pins} (h : b.HasPins t) {r r' : PinRegister}
    (hexcl : ∀ pin, (t.bit r pin && t.bit r' pin) = false) :
    b.memory r.address &&& b.memory r'.address = 0#32 := by
  apply BitVec.eq_of_getLsbD_eq
  intro j hj
  rw [BitVec.getLsbD_and, h.bit r ⟨j, hj⟩, h.bit r' ⟨j, hj⟩, hexcl, BitVec.getLsbD_zero]

end BoardSupport.Board

namespace BoardSupport.Gpio.PinCall

variable {patience : ℕ}

lemma hasPins_updates (calls : List PinCall) :
    ({ Board.new with memory := updates calls Board.new.memory } : Board).HasPins
      (Pins.after calls) where
  read r _ := read_board r.offset_lt
  bit r pin := getLsbD_updates calls r pin

lemma sameBesidePins_updates (calls : List PinCall) (b : Board) :
    b.SameBesidePins { b with memory := updates calls b.memory } where
  queues link := by cases link <;> rfl
  arbiter := rfl
  console := rfl
  scratchWords := rfl
  memory a ha := foldl_kept (fun m : ℕ → Word => m a) (update_elsewhere ha) calls b.memory

lemma perform_of_ge {c : PinCall} (h : pinCount ≤ c.pin.toNat) (b : Board) :
    c.perform (Board.platform patience) b = .ok () b := by
  rw [perform_board, update_of_ge h]
  rfl

lemma read_of_ge {pin : Word} (h : pinCount ≤ pin.toNat) (b : Board) :
    Gpio.read (Board.platform patience) pin b = .ok false b := by
  refine (Proc.bind_of_ok (read_board (by decide))).trans ?_
  refine (Proc.bind_of_ok (checkedMask_board pin)).trans ?_
  rw [pinMask_of_ge h, BitVec.and_zero]
  rfl

/-- **The pins are a table.** On a fresh board every sequence of calls returns, whatever pins they
are about. Afterwards the registers hold for every pin the last direction, pull, level and interrupt
enable that was set, so that no pin is both input and output or pulled both up and down. Everything
else on the board is as it was. On any board a call about a pin that is not there changes nothing,
and reading such a pin gives false. -/
theorem calls_refine_pins (patience : ℕ) :
    (∀ calls : List PinCall,
      ∃ b', calls.forM (perform (Board.platform patience)) Board.new = .ok () b' ∧
        b'.HasPins (Pins.after calls) ∧
        b'.memory PinRegister.inputEnable.address &&& b'.memory PinRegister.outputEnable.address =
          0#32 ∧
        b'.memory PinRegister.pullUp.address &&& b'.memory PinRegister.pullDown.address = 0#32 ∧
        Board.new.SameBesidePins b') ∧
    ∀ (b : Board) (pin : Word), pinCount ≤ pin.toNat →
      (∀ setting, perform (Board.platform patience) ⟨pin, setting⟩ b = .ok () b) ∧
        Gpio.read (Board.platform patience) pin b = .ok false b := by
  refine ⟨fun calls => ?_, fun b pin h => ⟨fun setting => perform_of_ge h b, read_of_ge h b⟩⟩
  have hpins := hasPins_updates calls
  exact ⟨_, forM_perform_board calls patience Board.new, hpins,
    hpins.and_eq_zero fun pin => ((Pins.after calls).bit_exclusive pin).1,
    hpins.and_eq_zero fun pin => ((Pins.after calls).bit_exclusive pin).2,
    sameBesidePins_updates calls Board.new⟩

/-- The last pin is made an output and then an input, and the pin behind it does not exist. -/
def lastPins : List PinCall :=
  [⟨31#32, .direction .output⟩, ⟨31#32, .direction .input⟩, ⟨32#32, .pull .down⟩,
    ⟨31#32, .pull .up⟩, ⟨30#32, .level true⟩]

theorem calls_refine_pins_last :
    pinCount ≤ (32#32).toNat ∧
    ∃ b', lastPins.forM (perform (Board.platform 0)) Board.new = .ok () b' ∧
      (b'.memory PinRegister.inputEnable.address).getLsbD 31 = true ∧
      (b'.memory PinRegister.outputEnable.address).getLsbD 31 = false ∧
      (b'.memory PinRegister.pullUp.address).getLsbD 31 = true ∧
      b'.memory PinRegister.pullUp.address &&& b'.memory PinRegister.pullDown.address = 0#32 ∧
      (b'.memory PinRegister.outputValue.address).getLsbD 31 = false ∧
      (b'.memory PinRegister.outputValue.address).getLsbD 30 = true ∧
      b'.arbiter = Board.new.arbiter ∧
      perform (Board.platform 0) ⟨32#32, .direction .output⟩ b' = .ok () b' ∧
      Gpio.read (Board.platform 0) 0xffffffff#32 b' = .ok false b' := by
  have hbeyond : pinCount ≤ (32#32).toNat := by decide
  obtain ⟨htable, hout⟩ := calls_refine_pins 0
  obtain ⟨b', hrun, hpins, -, hpulls, hsame⟩ := htable lastPins
  exact ⟨hbeyond, b', hrun, hpins.bit .inputEnable ⟨31, by decide⟩,
    hpins.bit .outputEnable ⟨31, by decide⟩, hpins.bit .pullUp ⟨31, by decide⟩, hpulls,
    hpins.bit .outputValue ⟨31, by decide⟩, hpins.bit .outputValue ⟨30, by decide⟩, hsame.arbiter,
    (hout b' 32#32 hbeyond).1 (.direction .output), (hout b' 0xffffffff#32 (by decide)).2⟩

end BoardSupport.Gpio.PinCall
