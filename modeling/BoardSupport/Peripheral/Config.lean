import BoardSupport.Text

/-!
What the configurations of the serial peripherals share: the bit order, and why a
configuration has no register value.
-/

namespace BoardSupport

/-- Which bit of a unit goes first. -/
inductive Endian where
  | little
  | big
  deriving DecidableEq

def Endian.name : Endian → String
  | .little => "Little"
  | .big => "Big"

def Endian.ofBig (big : Bool) : Endian := if big then .big else .little

inductive ConfigError where
  | zeroRate
  /-- The divider for the rate has no place in 16 bits. -/
  | dividerOutOfRange (rate divider : Nat)
  | dataBits (bits : Nat)
  | unitLength (bits : Nat)
  deriving DecidableEq

def ConfigError.message : ConfigError → String
  | .zeroRate => "baud rate must be non-zero"
  | .dividerOutOfRange rate divider =>
    "clock divider " ++ Text.decimal divider ++ " for " ++ Text.decimal rate ++
      " does not fit in 16 bits"
  | .dataBits bits => "unsupported number of UART data bits: " ++ Text.decimal bits
  | .unitLength bits => "unsupported SPI unit length: " ++ Text.decimal bits

end BoardSupport
