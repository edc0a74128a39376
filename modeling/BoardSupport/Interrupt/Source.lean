import BoardSupport.Proc
import BoardSupport.Word

/-!
External interrupt sources by number.
-/

namespace BoardSupport.Source

/-- How many sources the controller has. -/
def count : Nat := 64

def uart : Nat := 0
def spi0 : Nat := 1
def spi1 : Nat := 2
def i2c : Nat := 3
def timer : Nat := 4
def watchdog : Nat := 5

/-- The source of a pin, the first of which is source 8. -/
def gpio (pin : Word) : Except Fault Word :=
  if pin.uaddOverflow 8#32 then .error .addOverflow else .ok (pin + 8#32)

end BoardSupport.Source
