import BoardSupport.Word
import BoardSupport.Text

/-!
Fields of a register word.

A field is a run of bits with a name. Putting a value into a field keeps the value's low bits
and leaves the rest of the word alone. A format lists the fields of one register in the order
in which its text shows them.
-/

namespace BoardSupport

/-- The bits of a word from `low` up, `size` of them. -/
structure Field where
  name : String
  low : Nat
  size : Nat
  /-- Shown as a truth value and not as a number. -/
  flag : Bool := false

namespace Field

/-- A field of one bit that holds a truth value. -/
def bit (name : String) (low : Nat) : Field := ⟨name, low, 1, true⟩

/-- As many low ones as the field has bits. -/
def ones (f : Field) : Word := (BitVec.allOnes f.size).setWidth 32

def mask (f : Field) : Word := f.ones <<< f.low

def get (f : Field) (w : Word) : Word := (w >>> f.low) &&& f.ones

def put (f : Field) (v w : Word) : Word := (w &&& ~~~f.mask) ||| ((v <<< f.low) &&& f.mask)

def isSet (f : Field) (w : Word) : Bool := f.get w != 0#32

def putBool (f : Field) (b : Bool) (w : Word) : Word := f.put (if b then 1#32 else 0#32) w

def text (f : Field) (w : Word) : String :=
  if f.flag then Text.bool (f.isSet w) else Text.decimal (f.get w).toNat

/-! Bit by bit. -/

theorem getLsbD_ones (f : Field) (i : Nat) :
    f.ones.getLsbD i = (decide (i < 32) && decide (i < f.size)) := by
  simp [ones]

theorem getLsbD_mask (f : Field) (i : Nat) :
    f.mask.getLsbD i =
      (decide (i < 32) && decide (f.low ≤ i) && decide (i < f.low + f.size)) := by
  rw [mask, BitVec.getLsbD_shiftLeft, getLsbD_ones]
  by_cases h : i < f.low
  · simp [h, Nat.not_le.mpr h]
  · have e : (i - f.low < f.size) = (i < f.low + f.size) := by
      apply propext; omega
    by_cases h2 : i < 32
    · simp [h, h2, Nat.not_lt.mp h, e, show i - f.low < 32 by omega]
    · simp [h2]

theorem getLsbD_get (f : Field) (w : Word) (i : Nat) :
    (f.get w).getLsbD i = (w.getLsbD (f.low + i) && decide (i < f.size)) := by
  rw [get, BitVec.getLsbD_and, BitVec.getLsbD_ushiftRight, getLsbD_ones]
  by_cases h : i < 32
  · simp [h]
  · simp [h, BitVec.getLsbD_of_ge w (f.low + i) (by omega)]

/-- A field that is put has the low bits of the value, and the rest of the word is as before. -/
theorem getLsbD_put (f : Field) (v w : Word) (i : Nat) :
    (f.put v w).getLsbD i =
      if f.low ≤ i ∧ i < f.low + f.size ∧ i < 32 then v.getLsbD (i - f.low)
      else w.getLsbD i := by
  rw [put, BitVec.getLsbD_or, BitVec.getLsbD_and, BitVec.getLsbD_and, BitVec.getLsbD_not,
    BitVec.getLsbD_shiftLeft, getLsbD_mask]
  by_cases h : i < 32
  · by_cases h1 : f.low ≤ i
    · by_cases h2 : i < f.low + f.size <;> simp [h, h1, h2, Nat.not_lt.mpr h1]
    · simp [h, h1]
  · simp [h, BitVec.getLsbD_of_ge w i (by omega)]

/-- What is got from a field is what was put there, as far as the field holds it. -/
theorem get_put (f : Field) (h : f.low + f.size ≤ 32) (v w : Word) :
    f.get (f.put v w) = v &&& f.ones := by
  apply BitVec.eq_of_getLsbD_eq
  intro i hi
  rw [getLsbD_get, getLsbD_put, BitVec.getLsbD_and, getLsbD_ones]
  by_cases h2 : i < f.size
  · simp [h2, hi, show f.low + i < 32 by omega]
  · simp [h2]

/-- Fields apart from each other do not change each other. -/
theorem get_put_of_disjoint (f g : Field) (h : f.low + f.size ≤ g.low ∨ g.low + g.size ≤ f.low)
    (v w : Word) : g.get (f.put v w) = g.get w := by
  apply BitVec.eq_of_getLsbD_eq
  intro i _
  rw [getLsbD_get, getLsbD_get, getLsbD_put]
  by_cases h2 : i < g.size
  · have : ¬ (f.low ≤ g.low + i ∧ g.low + i < f.low + f.size ∧ g.low + i < 32) := by omega
    simp [this]
  · simp [h2]

end Field

/-- The fields of a register. -/
structure Format where
  name : String
  fields : List Field

namespace Format

def field? (m : Format) (name : String) : Option Field :=
  m.fields.find? (·.name == name)

/-- The word's number, then every field. -/
def text (m : Format) (w : Word) : String :=
  Text.named m.name
    ((".0", Text.decimal w.toNat) :: m.fields.map fun f => (f.name, f.text w))

/-- The words met on the way when fields are put one after the other, the start included.
A name that the format lacks changes nothing. -/
def states (m : Format) (w : Word) : List (String × Word) → List Word
  | [] => [w]
  | (name, v) :: rest =>
    w :: m.states (((m.field? name).map fun f => f.put v w).getD w) rest

end Format

end BoardSupport
