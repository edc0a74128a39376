import Mathlib.Tactic
import BoardSupport.Register.Field

/-!
Fields that are put and got.

The last value put into a field is the one that is found there, and what is outside a field does
not notice. For a field of one bit, putting back what is there changes nothing.
-/

namespace BoardSupport.Field

variable {f g : Field}

lemma get_putBool_of_disjoint (h : f.low + f.size ≤ g.low ∨ g.low + g.size ≤ f.low) (b : Bool)
    (w : Word) : g.get (f.putBool b w) = g.get w := get_put_of_disjoint f g h _ w

lemma get_putBool (hlow : f.low < 32) (hsize : f.size = 1) (b : Bool) (w : Word) :
    f.get (f.putBool b w) = if b then 1#32 else 0#32 := by
  have hones : f.ones = 1#32 := by
    unfold ones
    rw [hsize]
    rfl
  unfold putBool
  rw [get_put f (by omega), hones]
  cases b <;> rfl

lemma isSet_put_of_disjoint (h : f.low + f.size ≤ g.low ∨ g.low + g.size ≤ f.low) (v w : Word) :
    g.isSet (f.put v w) = g.isSet w := by
  rw [isSet, get_put_of_disjoint f g h, isSet]

lemma isSet_putBool_of_disjoint (h : f.low + f.size ≤ g.low ∨ g.low + g.size ≤ f.low) (b : Bool)
    (w : Word) : g.isSet (f.putBool b w) = g.isSet w := isSet_put_of_disjoint h _ w

lemma isSet_putBool (hlow : f.low < 32) (hsize : f.size = 1) (b : Bool) (w : Word) :
    f.isSet (f.putBool b w) = b := by
  rw [isSet, get_putBool hlow hsize]
  cases b <;> rfl

/-- A value that is no wider than the field is put as it is. -/
lemma setWidth_and_ones (f : Field) {n : ℕ} (hsize : f.size = n) (d : BitVec n) :
    d.setWidth 32 &&& f.ones = d.setWidth 32 := by
  apply BitVec.eq_of_getLsbD_eq
  intro i hi
  rw [BitVec.getLsbD_and, BitVec.getLsbD_setWidth, getLsbD_ones, hsize]
  by_cases hlow : i < n
  · simp [hi, hlow]
  · simp [BitVec.getLsbD_of_ge d i (by omega)]

/-- A value as wide as the field comes back from it. -/
lemma setWidth_and_ones_setWidth (f : Field) {n : ℕ} (hsize : f.size = n) (hn : n ≤ 32)
    (d : BitVec n) : (d.setWidth 32 &&& f.ones).setWidth n = d := by
  rw [setWidth_and_ones f hsize, BitVec.setWidth_setWidth_of_le d hn, BitVec.setWidth_eq]

/-- Bits outside the field, picked out by a mask. -/
lemma put_and_of_disjoint {m : Word} (h : f.mask &&& m = 0#32) (v w : Word) :
    f.put v w &&& m = w &&& m := by
  unfold put
  apply BitVec.eq_of_getLsbD_eq
  intro i hi
  have hbit := congrArg (BitVec.getLsbD · i) h
  simp only [BitVec.getLsbD_and, BitVec.getLsbD_zero] at hbit
  simp only [BitVec.getLsbD_or, BitVec.getLsbD_and, BitVec.getLsbD_not, hi]
  revert hbit
  cases f.mask.getLsbD i <;> cases m.getLsbD i <;> simp

lemma putBool_and_of_disjoint {m : Word} (h : f.mask &&& m = 0#32) (b : Bool) (w : Word) :
    f.putBool b w &&& m = w &&& m := put_and_of_disjoint h _ w

lemma put_put (v u w : Word) : f.put v (f.put u w) = f.put v w := by
  apply BitVec.eq_of_getLsbD_eq
  intro i _
  simp only [getLsbD_put]
  split <;> rfl

lemma isSet_eq_getLsbD (hsize : f.size = 1) (w : Word) : f.isSet w = w.getLsbD f.low := by
  have hget : f.get w = if w.getLsbD f.low then 1#32 else 0#32 := by
    apply BitVec.eq_of_getLsbD_eq
    intro i _
    rw [getLsbD_get, hsize]
    rcases Nat.eq_zero_or_pos i with rfl | hpos
    · cases w.getLsbD f.low <;> simp
    · have hne : i ≠ 0 := by omega
      cases w.getLsbD f.low <;> simp [hne]
  rw [isSet, hget]
  cases w.getLsbD f.low <;> rfl

/-- A field taken over from another word. -/
lemma getLsbD_put_get (f : Field) (raw w : Word) (i : ℕ) :
    (f.put (f.get raw) w).getLsbD i =
      if f.low ≤ i ∧ i < f.low + f.size then raw.getLsbD i else w.getLsbD i := by
  rw [getLsbD_put, getLsbD_get]
  rcases Nat.lt_or_ge i 32 with hi | hi
  · simp only [hi, and_true]
    split_ifs with hin
    · have hback : f.low + (i - f.low) = i := by omega
      have hsize : i - f.low < f.size := by omega
      simp [hback, hsize]
    · rfl
  · rw [if_neg (by omega), BitVec.getLsbD_of_ge w i hi, BitVec.getLsbD_of_ge raw i hi, ite_self]

/-- Fields taken over from another word, one after the other. -/
lemma getLsbD_foldl_put_get (fields : List Field) (raw w : Word) (i : ℕ) :
    (fields.foldl (fun w f => f.put (f.get raw) w) w).getLsbD i =
      if ∃ f ∈ fields, f.low ≤ i ∧ i < f.low + f.size then raw.getLsbD i else w.getLsbD i := by
  induction fields generalizing w with
  | nil => simp
  | cons f rest ih =>
    rw [List.foldl_cons, ih, getLsbD_put_get]
    simp only [List.exists_mem_cons_iff]
    by_cases hf : f.low ≤ i ∧ i < f.low + f.size <;> simp [hf]

/-- What is got from a field has a place in any width that is not below the field's size. -/
lemma setWidth_setWidth_get (f : Field) {n : ℕ} (hsize : f.size ≤ n) (w : Word) :
    ((f.get w).setWidth n).setWidth 32 = f.get w := by
  apply BitVec.eq_of_getLsbD_eq
  intro i hi
  rw [BitVec.getLsbD_setWidth, BitVec.getLsbD_setWidth, getLsbD_get]
  by_cases hn : i < n
  · simp [hi, hn]
  · simp [show ¬ i < f.size by omega]

lemma putBool_isSet {f : Field} (hsize : f.size = 1) (raw w : Word) :
    f.putBool (f.isSet raw) w = f.put (f.get raw) w := by
  apply BitVec.eq_of_getLsbD_eq
  intro i hi
  rw [putBool, getLsbD_put_get, getLsbD_put, isSet_eq_getLsbD hsize, hsize]
  by_cases hlow : i = f.low
  · subst hlow
    have hbit : (if raw.getLsbD f.low = true then 1#32 else 0#32).getLsbD 0 =
        raw.getLsbD f.low := by cases raw.getLsbD f.low <;> rfl
    rw [if_pos ⟨le_rfl, by omega, hi⟩, Nat.sub_self, hbit, if_pos ⟨le_rfl, by omega⟩]
  · have hout : ¬ (f.low ≤ i ∧ i < f.low + 1) := by omega
    rw [if_neg fun hin => hout ⟨hin.1, hin.2.1⟩, if_neg hout]

lemma toNat_get_lt (f : Field) (w : Word) : (f.get w).toNat < 2 ^ f.size := by
  have hones : f.ones.toNat < 2 ^ f.size := by
    rw [ones, BitVec.toNat_setWidth]
    exact (Nat.mod_le _ _).trans_lt (BitVec.allOnes f.size).isLt
  rw [get, BitVec.toNat_and]
  exact Nat.and_le_right.trans_lt hones

/-- A field of one bit, cleared or set and then put back as it was. -/
lemma putBool_isSet_putBool (hsize : f.size = 1) (b : Bool) (w : Word) :
    f.putBool (f.isSet w) (f.putBool b w) = w := by
  rw [putBool_isSet hsize, putBool, put_put]
  apply BitVec.eq_of_getLsbD_eq
  intro i _
  rw [getLsbD_put_get, ite_self]

end BoardSupport.Field
