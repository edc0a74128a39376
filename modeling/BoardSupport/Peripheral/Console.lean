import BoardSupport.MemoryMap
import BoardSupport.Register.Block

/-!
The console: characters are byte stores to the scratch register, and a word store of the exit
token tells the host that the program has finished.
-/

namespace BoardSupport

namespace Console

def exitToken : Word := 0xcafe0235#32

variable {σ : Type}

def registers (p : Platform σ) : Registers σ := ⟨p, MemoryMap.system⟩

def writeBytes (p : Platform σ) : List UInt8 → Proc σ Unit
  | [] => pure ()
  | b :: bs => do
    (registers p).writeByte SystemRegister.scratch b
    writeBytes p bs

def writeText (p : Platform σ) (s : String) : Proc σ Unit := writeBytes p (Text.utf8 s)

/-- The exit code in text, then the token. -/
def reportExit (p : Platform σ) (code : Word) : Proc σ Unit := do
  writeText p ("\nProgram exited: " ++ Text.hex code.toNat ++ "\n")
  (registers p).write SystemRegister.scratch exitToken

end Console

/-! The software interrupt line of the core. -/

namespace SoftwareInterrupt

variable {σ : Type}

def assert (p : Platform σ) : Proc σ Unit :=
  Registers.write ⟨p, MemoryMap.system⟩ SystemRegister.softwareInterrupt 1#32

def clear (p : Platform σ) : Proc σ Unit :=
  Registers.write ⟨p, MemoryMap.system⟩ SystemRegister.softwareInterrupt 0#32

end SoftwareInterrupt

end BoardSupport
