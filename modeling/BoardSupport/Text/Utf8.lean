/-!
Reading text from bytes that may not be UTF-8.

A byte that starts no character, and the start of a character that does not go on as it has to,
are each read as one replacement character.
-/

namespace BoardSupport.Text

def replacement : Char := Char.ofNat 0xfffd

/-- A character of which some bytes are still to come. -/
structure Unfinished where
  missing : Nat
  /-- The range in which the next byte has to be. -/
  low : Nat
  high : Nat
  /-- The bits so far. -/
  code : Nat

/-- What a byte begins where a character has to begin. -/
inductive Lead where
  | whole (c : Char)
  | start (p : Unfinished)
  | invalid

/-- Ranges that would spell a character too long, a surrogate or a code point out of range are
left out. -/
def lead (b : Nat) : Lead :=
  if b < 0x80 then .whole (Char.ofNat b)
  else if b < 0xc2 then .invalid
  else if b < 0xe0 then .start ⟨1, 0x80, 0xbf, b - 0xc0⟩
  else if b = 0xe0 then .start ⟨2, 0xa0, 0xbf, 0⟩
  else if b = 0xed then .start ⟨2, 0x80, 0x9f, 0xd⟩
  else if b < 0xf0 then .start ⟨2, 0x80, 0xbf, b - 0xe0⟩
  else if b = 0xf0 then .start ⟨3, 0x90, 0xbf, 0⟩
  else if b < 0xf4 then .start ⟨3, 0x80, 0xbf, b - 0xf0⟩
  else if b = 0xf4 then .start ⟨3, 0x80, 0x8f, 4⟩
  else .invalid

/-- The characters that a byte completes, and the one that it leaves open. -/
def feed (open? : Option Unfinished) (b : Nat) : List Char × Option Unfinished :=
  let fresh : List Char × Option Unfinished :=
    match lead b with
    | .whole c => ([c], none)
    | .start p => ([], some p)
    | .invalid => ([replacement], none)
  match open? with
  | none => fresh
  | some p =>
    if p.low ≤ b ∧ b ≤ p.high then
      let code := p.code * 64 + b % 64
      if p.missing = 1 then ([Char.ofNat code], none)
      else ([], some ⟨p.missing - 1, 0x80, 0xbf, code⟩)
    else (replacement :: fresh.1, fresh.2)

def decodeFrom (open? : Option Unfinished) : List UInt8 → List Char
  | [] => if open?.isSome then [replacement] else []
  | b :: rest =>
    let (cs, next) := feed open? b.toNat
    cs ++ decodeFrom next rest

/-- The text of the bytes. -/
def decode (bytes : List UInt8) : String := String.ofList (decodeFrom none bytes)

end BoardSupport.Text
