/-!
Bus words and the widths in which they are moved.

A bus word has 32 bits. An access moves one, two or four bytes, and a queue carries units of
one of the same three widths in the low bits of a word.
-/

namespace BoardSupport

abbrev Word := BitVec 32

/-- Width of an access, and of the units of a queue. -/
inductive Width where
  | byte
  | half
  | word
  deriving DecidableEq

namespace Width

def bytes : Width → Nat
  | .byte => 1
  | .half => 2
  | .word => 4

/-- The part of a word that the width holds, zero above it. -/
def cut : Width → Word → Word
  | .byte, v => v &&& 0xff#32
  | .half, v => v &&& 0xffff#32
  | .word, v => v

@[simp] theorem cut_word (v : Word) : Width.word.cut v = v := rfl

@[simp] theorem cut_zero (w : Width) : w.cut 0#32 = 0#32 := by cases w <;> rfl

@[simp] theorem cut_cut (w : Width) (v : Word) : w.cut (w.cut v) = w.cut v := by
  cases w <;> simp [cut, BitVec.and_assoc]

end Width

end BoardSupport
