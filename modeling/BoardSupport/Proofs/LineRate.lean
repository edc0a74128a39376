import BoardSupport.Proofs.LineEncoding

/-!
The divider for a rate of the UART's line.

The divider is the whole number whose multiple of the rate comes closest to the clock, and of two
that come equally close the lower one. It is computed with operations on words, one of which adds
one to a quotient that may be as great as a word can be. It never overflows: the quotient is that
great for a rate of one alone, and then there is nothing to round up.
-/

namespace BoardSupport

/-! ### Operations on words -/

namespace Checked

/-- A sum, unless it is too great for a word. -/
def add (a b : Word) : Option Word := if a.uaddOverflow b then none else some (a + b)

/-- A quotient, unless the divisor is zero. -/
def div (a b : Word) : Option Word := if b = 0#32 then none else some (a / b)

/-- A remainder, unless the divisor is zero. -/
def mod (a b : Word) : Option Word := if b = 0#32 then none else some (a % b)

lemma add_of_lt {a b : Word} (h : a.toNat + b.toNat < UInt32.size) :
    add a b = some (a + b) := by
  have hno : a.uaddOverflow b = false := by
    simp only [BitVec.uaddOverflow, decide_eq_false_iff_not, not_le]
    exact h
  rw [add, hno]
  rfl

end Checked

namespace Uart

variable {clock baud : Word}

/-- The quotient to the nearest as it is computed in words, with no result if one of the operations
has none. -/
def checkedNearest (clock baud : Word) : Option Word := do
  let quotient ← Checked.div clock baud
  let rest ← Checked.mod clock baud
  let half ← Checked.div baud 2#32
  if half < rest then Checked.add quotient 1#32 else some quotient

/-- The divider as it is computed in words. -/
def checkedDivider (clock baud : Word) : Option (Except ConfigError (BitVec 16)) :=
  if baud = 0#32 then some (.error .zeroRate)
  else (checkedNearest clock baud).map fun divider =>
    if 0#32 < divider ∧ divider ≤ 0xffff#32 then .ok (divider.setWidth 16)
    else .error (.dividerOutOfRange baud.toNat divider.toNat)

lemma nearest_lt (clock baud : Word) : nearest clock.toNat baud.toNat < UInt32.size :=
  (nearest_le clock.toNat baud.toNat).trans_lt clock.isLt

/-- The sum is the divider, which is never greater than the clock. -/
lemma checkedNearest_eq (hbaud : baud ≠ 0#32) :
    checkedNearest clock baud = some (BitVec.ofNat 32 (nearest clock.toNat baud.toNat)) := by
  have hdiv : Checked.div clock baud = some (clock / baud) := if_neg hbaud
  have hmod : Checked.mod clock baud = some (clock % baud) := if_neg hbaud
  have hhalf : Checked.div baud 2#32 = some (baud / 2#32) := if_neg (by decide)
  have hup : baud / 2#32 < clock % baud ↔ baud.toNat / 2 < clock.toNat % baud.toNat := by
    simp [BitVec.lt_def]
  have hquotient : (clock / baud).toNat = clock.toNat / baud.toNat := BitVec.toNat_udiv
  have hlt := nearest_lt clock baud
  simp only [checkedNearest, hdiv, hmod, hhalf, Option.bind_eq_bind, Option.bind_some, hup]
  unfold nearest at hlt ⊢
  split_ifs at hlt ⊢ with hmore
  · -- rounding up does not overflow either
    rw [Checked.add_of_lt (by rw [hquotient]; exact hlt)]
    refine congrArg some (BitVec.eq_of_toNat_eq ?_)
    rw [BitVec.toNat_add, BitVec.toNat_ofNat, hquotient]
    rfl
  · refine congrArg some (BitVec.eq_of_toNat_eq ?_)
    rw [BitVec.toNat_ofNat, hquotient, Nat.add_zero]
    exact (Nat.mod_eq_of_lt hlt).symm

/-- Every operation on words has a result, and together they give the divider. -/
lemma checkedDivider_eq (clock baud : Word) :
    checkedDivider clock baud = some (baudDivider clock baud) := by
  rw [baudDivider_eq, checkedDivider]
  by_cases hzero : baud = 0#32
  · rw [if_pos hzero, if_pos hzero]
  rw [if_neg hzero, if_neg hzero, checkedNearest_eq hzero, Option.map_some]
  have hlt := nearest_lt clock baud
  generalize nearest clock.toNat baud.toNat = n at hlt ⊢
  have hn : (BitVec.ofNat 32 n).toNat = n := Nat.mod_eq_of_lt hlt
  have hfits : (0#32 < BitVec.ofNat 32 n ∧ BitVec.ofNat 32 n ≤ 0xffff#32) ↔
      0 < n ∧ n < UInt16.size := by
    rw [BitVec.lt_def, BitVec.le_def, hn]
    exact and_congr_right fun _ => Nat.lt_succ_iff.symm
  simp only [hfits, hn]
  split_ifs with hn16
  · refine congrArg (some ∘ Except.ok) (BitVec.eq_of_toNat_eq ?_)
    rw [BitVec.toNat_setWidth, hn, BitVec.toNat_ofNat]
  · rfl

/-! ### The nearest divider -/

/-- No other multiple of the rate is closer to the clock than that of the divider. -/
lemma Rounds.dist_le {clock baud d : ℕ} (h : Rounds clock baud d) (e : ℕ) :
    |(clock : ℤ) - d * baud| ≤ |(clock : ℤ) - e * baud| := by
  have hbelow := h.below
  have habove := h.above
  have hstep : ∀ {m n : ℕ}, m < n → (m : ℤ) * baud + baud ≤ n * baud := by
    intro m n hlt
    have hsucc : ((m + 1 : ℕ) : ℤ) * baud ≤ n * baud :=
      mul_le_mul_of_nonneg_right (by exact_mod_cast hlt) (Nat.cast_nonneg baud)
    push_cast at hsucc
    linarith
  -- one rate or more away, a multiple is farther from the clock than half a rate
  rcases lt_trichotomy e d with hlt | rfl | hgt
  · have hfar := hstep hlt
    refine le_trans (abs_le.2 ⟨?_, ?_⟩) (le_abs_self _) <;> linarith
  · exact le_refl _
  · have hfar := hstep hgt
    refine le_trans (abs_le.2 ⟨?_, ?_⟩) (neg_le_abs _) <;> linarith

lemma baudDivider_toNat_eq_ok_iff {d : ℕ} :
    (baudDivider clock baud).map BitVec.toNat = .ok d ↔
      baud ≠ 0#32 ∧ (1 ≤ d ∧ d ≤ 65535) ∧ Rounds clock.toNat baud.toNat d := by
  constructor
  · intro h
    cases hdivider : baudDivider clock baud with
    | error e =>
      rw [hdivider] at h
      cases h
    | ok d' =>
      rw [hdivider] at h
      cases h
      obtain ⟨hrate, hpos, hnearest⟩ := baudDivider_eq_ok_iff.1 hdivider
      have hrounds := (rounds_iff (BitVec.toNat_pos_of_ne_zero hrate)).2 hnearest
      exact ⟨hrate, ⟨hpos, Nat.le_of_lt_succ d'.isLt⟩, hrounds⟩
  · rintro ⟨hrate, ⟨hpos, hle⟩, hrounds⟩
    have hd : (BitVec.ofNat 16 d).toNat = d := Nat.mod_eq_of_lt (Nat.lt_succ_of_le hle)
    have hnearest := (rounds_iff (BitVec.toNat_pos_of_ne_zero hrate)).1 hrounds
    have hok : baudDivider clock baud = .ok (BitVec.ofNat 16 d) := by
      rw [baudDivider_eq_ok_iff, hd]
      exact ⟨hrate, hpos, hnearest⟩
    rw [hok]
    exact congrArg Except.ok hd

lemma baudDivider_eq_outOfRange_iff {rate d : ℕ} :
    baudDivider clock baud = .error (.dividerOutOfRange rate d) ↔
      baud ≠ 0#32 ∧ rate = baud.toNat ∧ (d = 0 ∨ 65535 < d) ∧
        Rounds clock.toNat baud.toNat d := by
  rw [baudDivider_eq_error_iff]
  constructor
  · rintro (⟨-, h⟩ | ⟨hrate, d', hrounds, hout, h⟩)
    · cases h
    · cases h
      exact ⟨hrate, rfl, hout, hrounds⟩
  · rintro ⟨hrate, rfl, hout, hrounds⟩
    exact .inr ⟨hrate, d, hrounds, hout, rfl⟩

/-- **Rounding to the nearest divider.** Every operation on words that the divider is computed with
has a result. A number is the divider for a rate exactly if the rate is not zero, the number is not
zero either and has a place in 16 bits, and it is the quotient of the clock and the rate to the
nearest, the lower one halfway. No other multiple of the rate is closer to the clock then. A divider
that is reported to have no place is that quotient, too. -/
theorem baudDivider_nearest (clock baud : Word) :
    checkedDivider clock baud = some (baudDivider clock baud) ∧
    (∀ d : ℕ, (baudDivider clock baud).map BitVec.toNat = .ok d ↔
      baud ≠ 0#32 ∧ (1 ≤ d ∧ d ≤ 65535) ∧ Rounds clock.toNat baud.toNat d) ∧
    (∀ d : ℕ, (baudDivider clock baud).map BitVec.toNat = .ok d → ∀ e : ℕ,
      |(clock.toNat : ℤ) - d * baud.toNat| ≤ |(clock.toNat : ℤ) - e * baud.toNat|) ∧
    ∀ rate d, baudDivider clock baud = .error (.dividerOutOfRange rate d) ↔
      baud ≠ 0#32 ∧ rate = baud.toNat ∧ (d = 0 ∨ 65535 < d) ∧
        Rounds clock.toNat baud.toNat d := by
  refine ⟨checkedDivider_eq clock baud, fun d => baudDivider_toNat_eq_ok_iff, fun d hd => ?_,
    fun rate d => baudDivider_eq_outOfRange_iff⟩
  obtain ⟨-, -, hrounds⟩ := baudDivider_toNat_eq_ok_iff.1 hd
  exact hrounds.dist_le

/-- At 40 MHz the main clock is halfway between two and three periods, and the divider is two. The
greatest clock at the lowest rate has the greatest quotient, which is reported as it is. -/
theorem baudDivider_nearest_halfway :
    (baudDivider mainClock 40000000#32).map BitVec.toNat = .ok 2 ∧
      Rounds mainClock.toNat 40000000 2 ∧ ¬ Rounds mainClock.toNat 40000000 3 ∧
      |(mainClock.toNat : ℤ) - (2 : ℕ) * (40000000#32).toNat| ≤
        |(mainClock.toNat : ℤ) - (3 : ℕ) * (40000000#32).toNat| ∧
      checkedDivider 0xffffffff#32 1#32 = some (.error (.dividerOutOfRange 1 0xffffffff)) ∧
      Rounds 0xffffffff 1 0xffffffff := by
  have htwo : (baudDivider mainClock 40000000#32).map BitVec.toNat = .ok 2 := by decide
  have hthree : (baudDivider mainClock 40000000#32).map BitVec.toNat ≠ .ok 3 := by decide
  have hgreat : baudDivider 0xffffffff#32 1#32 = .error (.dividerOutOfRange 1 0xffffffff) := by
    decide
  obtain ⟨-, hiff, hdist, -⟩ := baudDivider_nearest mainClock 40000000#32
  obtain ⟨hchecked, -, -, hout⟩ := baudDivider_nearest 0xffffffff#32 1#32
  refine ⟨htwo, ((hiff 2).1 htwo).2.2, fun h => hthree ((hiff 3).2 ⟨by decide, by decide, h⟩),
    hdist 2 htwo 3, by rw [hchecked, hgreat], ((hout 1 0xffffffff).1 hgreat).2.2.2⟩

end Uart

end BoardSupport
