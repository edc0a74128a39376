import Mathlib.Tactic
import BoardSupport.Log.Ring

/-!
The log ring as a queue of chunks.

All chunks ever reserved are a list, by position: what was written to a chunk once it is
published, and nothing before. The ring holds those from the tail on, one to a slot, and its other
slots are empty. While fewer positions are reserved than 64 bits count, positions are numbers.
-/

namespace BoardSupport.Log.Ring

/-- The state of a slot that holds a chunk. -/
def slotOf : Option (List UInt8) → Slot
  | none => .writing
  | some bytes => .ready bytes

lemma slotOf_ne_empty (b : Option (List UInt8)) : slotOf b ≠ .empty := by
  cases b <;> simp [slotOf]

section

variable (r : Ring) (i j : ℕ) (s : Slot)

@[simp] lemma setSlot_head : (r.setSlot i s).head = r.head := rfl
@[simp] lemma setSlot_size : (r.setSlot i s).size = r.size := by simp [setSlot, size]

lemma slotAt_setSlot : (r.setSlot i s).slotAt j =
    if i = j ∧ i < r.size then s else r.slotAt j := by
  unfold slotAt setSlot size
  rw [List.getElem?_set]
  split_ifs <;> grind

end

/-- The ring holds the chunks of `l` from position `t` on; those before it are published. -/
structure Holds (r : Ring) (t : ℕ) (l : List (Option (List UInt8))) : Prop where
  tail : r.tail = BitVec.ofNat 64 t
  head : r.head = BitVec.ofNat 64 l.length
  le : t ≤ l.length
  fits : l.length ≤ t + r.size
  bound : l.length < 2 ^ 64
  drained : ∀ p < t, ∃ b, l[p]? = some (some b)
  slot : ∀ p b, t ≤ p → l[p]? = some b → r.slotAt (p % r.size) = slotOf b
  free : ∀ i < r.size, (∀ p, t ≤ p → p < l.length → p % r.size ≠ i) → r.slotAt i = .empty

variable {r : Ring} {t p q N : ℕ} {l : List (Option (List UInt8))} {b : List UInt8}

lemma holds_new (N : ℕ) : (new N).Holds 0 [] := by
  refine ⟨rfl, rfl, le_rfl, Nat.zero_le _, by decide, by simp, by simp, fun i hi _ => ?_⟩
  have hi' : i < N := by simpa [new, size] using hi
  simp [slotAt, new, hi']

/-- Two positions of one round of the ring share no slot. -/
lemma eq_of_mod_eq (hp : t ≤ p) (hp' : p < t + N) (hq : t ≤ q) (hq' : q < t + N)
    (h : p % N = q % N) : p = q := by
  wlog hle : p ≤ q generalizing p q with hsymm
  · exact (hsymm hq hq' hp hp' h.symm (by omega)).symm
  have hdvd : N ∣ q - p := (Nat.modEq_iff_dvd' hle).1 h
  have hzero : q - p = 0 := Nat.eq_zero_of_dvd_of_lt hdvd (by omega)
  omega

lemma Holds.toNat_tail (h : r.Holds t l) : r.tail.toNat = t := by
  have hle := h.le
  have hbound := h.bound
  rw [h.tail, BitVec.toNat_ofNat, Nat.mod_eq_of_lt (by omega)]

lemma Holds.toNat_head (h : r.Holds t l) : r.head.toNat = l.length := by
  rw [h.head, BitVec.toNat_ofNat, Nat.mod_eq_of_lt h.bound]

lemma Holds.toNat_sub (h : r.Holds t l) : (r.head - r.tail).toNat = l.length - t := by
  have hle := h.le
  have hbound := h.bound
  rw [BitVec.toNat_sub, h.toNat_head, h.toNat_tail]
  omega

/-- A chunk that is still written to has not been drained. -/
lemma Holds.le_of_writing (h : r.Holds t l) (hp : l[p]? = some none) : t ≤ p := by
  by_contra hlt
  obtain ⟨b, hb⟩ := h.drained p (by omega)
  rw [hp] at hb
  cases hb

/-- Counters and flags beside the ring do not matter. -/
lemma Holds.congr {r' : Ring} (h : r.Holds t l) (hslots : r'.slots = r.slots)
    (hhead : r'.head = r.head) (htail : r'.tail = r.tail) : r'.Holds t l := by
  have hsize : r'.size = r.size := congrArg List.length hslots
  have hat : ∀ i, r'.slotAt i = r.slotAt i := fun i => by rw [slotAt, slotAt, hslots]
  refine ⟨htail.trans h.tail, hhead.trans h.head, h.le, ?_, h.bound, h.drained, ?_, ?_⟩
  · rw [hsize]; exact h.fits
  · intro p b hp hb
    rw [hat, hsize]; exact h.slot p b hp hb
  · intro i hi hfree
    rw [hsize] at hi hfree
    rw [hat]; exact h.free i hi hfree

lemma Holds.reserve_full (h : r.Holds t l) (hfull : l.length = t + r.size) :
    r.reserve = (none, r) := by
  rw [reserve, if_pos]
  rw [h.toNat_sub]
  omega

/-- The ring after a reservation. -/
def reserved (r : Ring) (i : ℕ) : Ring :=
  ({ r with head := r.head + 1#64 } : Ring).setSlot i .writing

@[simp] lemma reserved_size (i : ℕ) : (r.reserved i).size = r.size := setSlot_size _ _ _

/-- A reservation that is made finds its slot empty. -/
lemma Holds.reserve_eq (h : r.Holds t l) (hroom : l.length < t + r.size) :
    r.reserve = (some (l.length % r.size), r.reserved (l.length % r.size)) := by
  have hle := h.le
  have hempty : r.slotAt (l.length % r.size) = .empty := by
    refine h.free _ (Nat.mod_lt _ (by omega)) fun p hp hp' he => ?_
    have := eq_of_mod_eq hp (by omega) hle hroom he
    omega
  have hnot : ¬ r.size ≤ (r.head - r.tail).toNat := by rw [h.toNat_sub]; omega
  have hindex : r.index r.head = l.length % r.size := by rw [index, h.toNat_head]
  rw [reserve, if_neg hnot, hindex]
  exact if_pos hempty

lemma Holds.reserved (h : r.Holds t l) (hroom : l.length < t + r.size)
    (hbound : l.length + 1 < 2 ^ 64) :
    (r.reserved (l.length % r.size)).Holds t (l ++ [none]) := by
  have hle := h.le
  have hilt : l.length % r.size < r.size := Nat.mod_lt _ (by omega)
  have hat : ∀ j, (r.reserved (l.length % r.size)).slotAt j =
      if l.length % r.size = j then .writing else r.slotAt j := by
    intro j
    rw [Ring.reserved, slotAt_setSlot]
    show (if _ ∧ l.length % r.size < r.size then _ else r.slotAt j) = _
    simp [hilt]
  refine ⟨h.tail, ?_, by simp; omega, ?_, by simpa using hbound, ?_, ?_, ?_⟩
  · show r.head + 1#64 = _
    rw [h.head, List.length_append, List.length_singleton, BitVec.ofNat_add]
  · rw [reserved_size, List.length_append, List.length_singleton]
    exact hroom
  · intro p hp
    rw [List.getElem?_append_left (by omega)]
    exact h.drained p hp
  · intro p b hp hb
    rw [reserved_size, hat]
    rcases Nat.lt_or_ge p l.length with hlt | hge
    · -- two positions that share a slot are at least a round apart
      rw [List.getElem?_append_left hlt] at hb
      rw [if_neg, h.slot p b hp hb]
      intro he
      have := eq_of_mod_eq hle hroom hp (by omega) he
      omega
    · have hlast : p = l.length := by
        have := (List.getElem?_eq_some_iff.1 hb).1
        simp at this
        omega
      subst hlast
      obtain rfl : none = b := by simpa using hb
      rw [if_pos rfl]
      rfl
  · intro j hj hfree
    rw [reserved_size] at hj hfree
    rw [hat, if_neg (hfree l.length hle (by simp))]
    exact h.free j hj fun p hp hp' => hfree p hp (by simp; omega)

lemma Holds.publish (h : r.Holds t l) (hp : t ≤ p) (hlt : p < l.length) :
    (r.setSlot (p % r.size) (.ready b)).Holds t (l.set p (some b)) := by
  have hfits := h.fits
  have hilt : p % r.size < r.size := Nat.mod_lt _ (by omega)
  refine ⟨h.tail, by simpa using h.head, by simpa using h.le, by simpa using h.fits,
    by simpa using h.bound, ?_, ?_, ?_⟩
  · intro q hq
    rw [List.getElem?_set, if_neg (by omega)]
    exact h.drained q hq
  · intro q b' hq hb'
    rw [setSlot_size, slotAt_setSlot]
    rw [List.getElem?_set] at hb'
    by_cases hpq : p = q
    · subst hpq
      rw [if_pos rfl, if_pos hlt] at hb'
      obtain rfl := Option.some.inj hb'
      rw [if_pos ⟨rfl, hilt⟩]
      rfl
    · rw [if_neg hpq] at hb'
      rw [if_neg, h.slot q b' hq hb']
      rintro ⟨he, -⟩
      have hqlt := (List.getElem?_eq_some_iff.1 hb').1
      exact hpq (eq_of_mod_eq hp (by omega) hq (by omega) he)
  · intro i hi hfree
    rw [setSlot_size] at hi hfree
    rw [slotAt_setSlot, if_neg fun hpi => hfree p hp (by simpa using hlt) hpi.1]
    exact h.free i hi fun q hq hq' => hfree q hq (by simpa using hq')

/-- The front is the chunk at the tail, once it is published. -/
lemma Holds.front?_eq (h : r.Holds t l) : r.front? = (l[t]?).join := by
  have hle := h.le
  have hbound := h.bound
  unfold front?
  rcases Nat.lt_or_ge t l.length with hlt | hge
  · -- something waits, so tail and head differ also as words
    have hne : r.tail ≠ r.head := by
      intro he
      have := congrArg BitVec.toNat he
      rw [h.toNat_tail, h.toNat_head] at this
      omega
    have hslot := h.slot t l[t] le_rfl (List.getElem?_eq_getElem hlt)
    rw [if_neg hne, index, h.toNat_tail, hslot, List.getElem?_eq_getElem hlt]
    cases l[t] <;> rfl
  · have hlen : t = l.length := by omega
    subst hlen
    rw [if_pos (h.tail.trans h.head.symm)]
    simp

lemma Holds.pop (h : r.Holds t l) (hb : l[t]? = some (some b)) : r.pop.Holds (t + 1) l := by
  have hlt : t < l.length := (List.getElem?_eq_some_iff.1 hb).1
  have hfits := h.fits
  have hilt : t % r.size < r.size := Nat.mod_lt _ (by omega)
  have hindex : r.index r.tail = t % r.size := by rw [index, h.toNat_tail]
  have hsize : r.pop.size = r.size := setSlot_size _ _ _
  have hat : ∀ j, r.pop.slotAt j = if t % r.size = j then .empty else r.slotAt j := by
    intro j
    show (r.setSlot (r.index r.tail) .empty).slotAt j = _
    rw [slotAt_setSlot, hindex]
    simp [hilt]
  refine ⟨?_, h.head, hlt, by rw [hsize]; omega, h.bound, ?_, ?_, ?_⟩
  · show r.tail + 1#64 = _
    rw [h.tail, BitVec.ofNat_add]
  · intro p hp
    rcases Nat.lt_succ_iff_lt_or_eq.1 hp with hp | rfl
    · exact h.drained p hp
    · exact ⟨b, hb⟩
  · intro p b hp hb
    have hplt := (List.getElem?_eq_some_iff.1 hb).1
    rw [hsize, hat, if_neg, h.slot p b (by omega) hb]
    intro he
    have := eq_of_mod_eq le_rfl (by omega) (by omega) (by omega) he
    omega
  · intro i hi hfree
    rw [hsize] at hi hfree
    rw [hat]
    split_ifs with hti
    · rfl
    · -- not the slot of the old tail, so it was free before
      refine h.free i hi fun p hp hp' => ?_
      rcases Nat.eq_or_lt_of_le hp with rfl | hp
      · exact hti
      · exact hfree p hp hp'

/-! ### Soundness -/

/-- Positions from the tail to the head are in use, no more than there are slots, and theirs are
the slots that are not empty; so a reservation is refused only when the ring is full. -/
structure Sound (N : ℕ) (r : Ring) : Prop where
  size : r.size = N
  tail_le : r.tail.toNat ≤ r.head.toNat
  head_le : r.head.toNat ≤ r.tail.toNat + N
  used : ∀ i < N, r.slotAt i ≠ .empty ↔ ∃ p, r.tail.toNat ≤ p ∧ p < r.head.toNat ∧ p % N = i
  claims : r.head.toNat < r.tail.toNat + N → r.reserve.1.isSome

lemma Holds.sound (h : r.Holds t l) (hN : r.size = N) : r.Sound N := by
  subst hN
  refine ⟨rfl, ?_, ?_, fun i hi => ?_, ?_⟩
  · rw [h.toNat_tail, h.toNat_head]; exact h.le
  · rw [h.toNat_tail, h.toNat_head]; exact h.fits
  · rw [h.toNat_tail, h.toNat_head]
    constructor
    · intro hne
      by_contra hnone
      push Not at hnone
      exact hne (h.free i hi hnone)
    · rintro ⟨p, hp, hlt, rfl⟩
      rw [h.slot p l[p] hp (List.getElem?_eq_getElem hlt)]
      exact slotOf_ne_empty _
  · rw [h.toNat_tail, h.toNat_head]
    intro hroom
    rw [h.reserve_eq hroom]
    rfl

end BoardSupport.Log.Ring
