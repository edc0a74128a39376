import BoardSupport.Board.Basic
import BoardSupport.Interrupt.Mask
import BoardSupport.Interrupt.Policy
import BoardSupport.Peripheral.Spi
import BoardSupport.Peripheral.Uart
import BoardSupport.Trap.Dispatcher

/-!
What an operation of a bench gives back.
-/

namespace BoardSupport.Bench

inductive Reply where
  | none
  | bool (b : Bool)
  | number (n : Nat)
  | text (s : String)
  | numbers (ns : List Nat)
  | texts (ss : List String)
  | list (rs : List Reply)
  | uart (c : Uart.Config)
  | spi (c : Spi.Config)
  /-- Interrupt conditions of a channel. -/
  | irqs (w : Word)
  /-- Units stored by an append, and how many were taken. -/
  | appended (stored taken : Nat)
  | buffer (count dropped : Nat) (received : List Nat)
  | reception (completions count : Nat)
  | queues (q : Queues)
  | core (f : CoreFlags)
  | console (s : String) (words : List Nat)
  /-- The hart's enables, those of the classes also as one number. -/
  | hart (f : CoreFlags) (mie : Nat)
  | region (start length : Nat)
  | sections (sram flash : List UInt8)
  | badConfig (e : ConfigError)
  | notRegistered (e : RegisterError)
  | fatal (f : Trap.Fatal)

namespace Reply

def word (w : Word) : Reply := .number w.toNat

def words (ws : List Word) : Reply := .numbers (ws.map (·.toNat))

def optional : Option Word → Reply
  | some w => .number w.toNat
  | Option.none => .none

def ofConfig : Except ConfigError Unit → Reply
  | .ok _ => .none
  | .error e => .badConfig e

/-- The address to go on at, in decimal. -/
def ofDispatch : Except Trap.Fatal Nat → Reply
  | .ok address => .text (Text.decimal address)
  | .error f => .fatal f

end Reply

end BoardSupport.Bench
