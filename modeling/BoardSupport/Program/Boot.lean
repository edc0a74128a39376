import BoardSupport.Program.Host

/-!
Start of the program: the sections of its image, and logging.
-/

namespace BoardSupport.Program

/-- Where the sections of the image are. -/
structure Image where
  dataStart : Nat := 0x10000000
  dataEnd : Nat := 0x10000018
  bssStart : Nat := 0x10000018
  bssEnd : Nat := 0x10000040
  /-- Where the initial data is kept. -/
  dataLoad : Nat := 0x20000100
  imageStart : Nat := 0x20000000
  imageEnd : Nat := 0x20000118

namespace Image

/-- Memory after start: the data section holds its initial data and the rest is zero. -/
def initSections (i : Image) (memory : Nat → UInt8) : Nat → UInt8 := fun a =>
  if i.bssStart ≤ a ∧ a < i.bssEnd then 0
  else if i.dataStart ≤ a ∧ a < i.dataEnd then memory (i.dataLoad + (a - i.dataStart))
  else memory a

/-- Start and length of the image. -/
def region (i : Image) : Nat × Nat := (i.imageStart, i.imageEnd - i.imageStart)

end Image

/-- What the program was built from. -/
structure Build where
  version : String := "0.1.0"
  branch : String := "main"
  revision : String := "0123abc"
  timestamp : String := "2024-01-02T03:04:05Z"

def Build.banner (b : Build) : String :=
  "\x1b[1muv board support\x1b[0m v" ++ b.version ++ " (git: " ++ b.branch ++ "@" ++
    b.revision ++ ")"

/-- Slots of the log ring. -/
def ringSize : Nat := 32

namespace Host

variable {σ : Type} (h : Host σ)

def loggingPath : String := "bsp::logging"

/-- Set up logging, which may be done once. -/
def initLogging (build : Build) (image : Image) : Proc σ Unit := do
  let installed := (← h.state.read).ring.isSome
  h.state.update fun s => { s with filter := some .debug }
  if installed then Proc.fault (.failed "install logger" "SetLoggerError(())")
  h.state.update fun s => { s with ring := some (.new ringSize) }
  h.platform.info loggingPath 39 build.banner
  h.platform.debug loggingPath 46 ("Build timestamp: " ++ build.timestamp)
  h.platform.debug loggingPath 47
    ("Image memory region: (0x" ++ Text.hex image.region.1 ++ ", " ++ Text.hex image.region.2 ++
      ")")

end Host

end BoardSupport.Program
