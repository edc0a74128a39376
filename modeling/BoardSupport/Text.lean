/-!
Text of numbers and of named values, as log records and diagnostics show them.
-/

namespace BoardSupport.Text

/-- Decimal digits without leading zeros. -/
def decimal (n : Nat) : String := String.ofList (Nat.toDigits 10 n)

/-- Hexadecimal digits in lower case without leading zeros. -/
def hex (n : Nat) : String := String.ofList (Nat.toDigits 16 n)

/-- The UTF-8 bytes of a text. -/
def utf8 (s : String) : List UInt8 := s.toUTF8.toList

def bool (b : Bool) : String := if b then "true" else "false"

/-- The blanks that fill the text up to the width, one by one. -/
def padding (width : Nat) (s : String) : List String := List.replicate (width - s.length) " "

/-- A name with its fields in braces. -/
def named (name : String) (fields : List (String × String)) : String :=
  name ++ " \x7b " ++ ", ".intercalate (fields.map fun f => f.1 ++ ": " ++ f.2) ++ " \x7d"

end BoardSupport.Text
