import Mathlib.Tactic
import BoardSupport.Peripheral.Spi

/-!
The unit clock of the SPI controllers.

A divider `d` makes a unit clock of `clock / (2 * (d + 1))` from the clock. The divider for a rate
is found by a division that rounds down, so the unit clock falls on the far side of the rate: it is
at least the rate, and it is the rate only where twice the rate divides the clock.
-/

namespace BoardSupport.Spi

variable {clock rate : Word} {d : BitVec 16}

/-- A divider is given where the clock has at least one and at most as many half periods of the rate
as 16 bits can count, one less than their number. -/
lemma clockDivider_eq_ok_iff :
    clockDivider clock rate = .ok d ↔
      rate ≠ 0#32 ∧ clock.toNat / min (2 * rate.toNat) (UInt32.size - 1) = d.toNat + 1 := by
  have hd : d.toNat < UInt16.size := d.isLt
  unfold clockDivider
  dsimp only
  generalize clock.toNat / min (2 * rate.toNat) (UInt32.size - 1) = n
  split_ifs with hzero hnone hfits
  · simp [hzero]
  · simp [hzero, hnone]
  · have hn : (BitVec.ofNat 16 (n - 1)).toNat = n - 1 := by
      rw [BitVec.toNat_ofNat]
      exact Nat.mod_eq_of_lt hfits
    constructor
    · intro h
      cases h
      exact ⟨hzero, by omega⟩
    · rintro ⟨-, h⟩
      refine congrArg Except.ok (BitVec.eq_of_toNat_eq ?_)
      omega
  · constructor
    · intro h
      cases h
    · rintro ⟨-, h⟩
      omega

/-- As long as twice the rate is a word, the divider is the one with the slowest unit clock that is
not below the rate. -/
lemma clockDivider_of_lt (h : 2 * rate.toNat < UInt32.size) :
    clockDivider clock rate = .ok d ↔
      2 * (d.toNat + 1) * rate.toNat ≤ clock.toNat ∧
        clock.toNat < 2 * (d.toNat + 2) * rate.toNat := by
  have hmin : min (2 * rate.toNat) (UInt32.size - 1) = 2 * rate.toNat := by omega
  have hlow : (d.toNat + 1) * (2 * rate.toNat) = 2 * (d.toNat + 1) * rate.toNat := by ring
  have hhigh : (d.toNat + 1 + 1) * (2 * rate.toNat) = 2 * (d.toNat + 2) * rate.toNat := by ring
  rw [clockDivider_eq_ok_iff, hmin]
  constructor
  · rintro ⟨hne, hdiv⟩
    have hpos : 0 < 2 * rate.toNat := by
      have : rate.toNat ≠ 0 := fun h0 => hne (BitVec.eq_of_toNat_eq h0)
      omega
    obtain ⟨hle, hlt⟩ := (Nat.div_eq_iff hpos).1 hdiv
    rw [← hlow, ← hhigh, Nat.succ_mul (d.toNat + 1)]
    omega
  · rintro ⟨hle, hlt⟩
    refine ⟨?_, ?_⟩
    · rintro rfl
      simp at hlt
    · rw [← hlow] at hle
      rw [← hhigh] at hlt
      exact Nat.div_eq_of_lt_le hle hlt

/-- A rate of which twice is no word has a divider for the highest clock alone. -/
lemma clockDivider_of_le (h : UInt32.size ≤ 2 * rate.toNat) :
    clockDivider clock rate = .ok d ↔ clock.toNat = UInt32.size - 1 ∧ d = 0#16 := by
  have hmin : min (2 * rate.toNat) (UInt32.size - 1) = UInt32.size - 1 := by omega
  have hclock : clock.toNat < UInt32.size := clock.isLt
  rw [clockDivider_eq_ok_iff, hmin]
  constructor
  · rintro ⟨-, hdiv⟩
    have hmul := Nat.div_mul_le_self clock.toNat (UInt32.size - 1)
    rw [hdiv] at hmul
    simp only [UInt32.size] at hmul hclock ⊢
    exact ⟨by omega, BitVec.eq_of_toNat_eq (by rw [BitVec.toNat_ofNat]; omega)⟩
  · rintro ⟨hmax, rfl⟩
    refine ⟨?_, ?_⟩
    · rintro rfl
      simp at h
    · rw [hmax]
      rfl

/-- **The unit clock for a rate.** The unit clock of the divider is not above the rate only where
twice the rate divides the clock, or is too great for a word. Short of that it is at least the rate,
and a divider of one more would bring it below. -/
theorem unitClock_of_clockDivider (clock rate : Word) (d : BitVec 16)
    (h : clockDivider clock rate = .ok d) :
    (clock.toNat ≤ 2 * (d.toNat + 1) * rate.toNat ↔
      2 * rate.toNat ∣ clock.toNat ∨ UInt32.size ≤ 2 * rate.toNat) ∧
    (2 * rate.toNat < UInt32.size →
      2 * (d.toNat + 1) * rate.toNat ≤ clock.toNat ∧
        clock.toNat < 2 * (d.toNat + 2) * rate.toNat) := by
  rcases Nat.lt_or_ge (2 * rate.toNat) UInt32.size with hword | hword
  · obtain ⟨hle, hlt⟩ := (clockDivider_of_lt hword).1 h
    refine ⟨?_, fun _ => ⟨hle, hlt⟩⟩
    constructor
    · intro hwithin
      have hexact : clock.toNat = 2 * rate.toNat * (d.toNat + 1) := by
        rw [Nat.le_antisymm hwithin hle]
        ring
      exact .inl ⟨d.toNat + 1, hexact⟩
    · rintro (⟨n, hn⟩ | hgreat)
      · -- the clock is a whole number of half periods, which is less than `d + 2`
        have hn2 : n < d.toNat + 2 := by
          refine Nat.lt_of_mul_lt_mul_left (a := 2 * rate.toNat) ?_
          calc 2 * rate.toNat * n = clock.toNat := hn.symm
            _ < 2 * (d.toNat + 2) * rate.toNat := hlt
            _ = 2 * rate.toNat * (d.toNat + 2) := by ring
        calc clock.toNat = 2 * rate.toNat * n := hn
          _ ≤ 2 * rate.toNat * (d.toNat + 1) := Nat.mul_le_mul_left _ (by omega)
          _ = 2 * (d.toNat + 1) * rate.toNat := by ring
      · omega
  · -- twice the rate saturates, and only the highest clock has a divider
    obtain ⟨hmax, rfl⟩ := (clockDivider_of_le hword).1 h
    refine ⟨⟨fun _ => .inr hword, fun _ => ?_⟩, fun hlt => absurd hword (by omega)⟩
    have hone : 2 * ((0#16).toNat + 1) * rate.toNat = 2 * rate.toNat := by simp
    rw [hone, hmax]
    omega

theorem unitClock_of_clockDivider_sevenMegahertz :
    clockDivider mainClock 7000000#32 = .ok 6#16 ∧
      ¬ mainClock.toNat ≤ 2 * ((6#16).toNat + 1) * (7000000#32).toNat ∧
      2 * ((6#16).toNat + 1) * (7000000#32).toNat ≤ mainClock.toNat ∧
      mainClock.toNat < 2 * ((6#16).toNat + 2) * (7000000#32).toNat := by
  have h : clockDivider mainClock 7000000#32 = .ok 6#16 := by decide
  obtain ⟨hiff, hbounds⟩ := unitClock_of_clockDivider mainClock 7000000#32 6#16 h
  exact ⟨h, fun hle => absurd (hiff.1 hle) (by decide), hbounds (by decide)⟩

/-- For a unit clock of at most 30 MHz the divider makes one of 50 MHz, where the next divider would
make one of 25 MHz. -/
theorem unitClock_above_rate :
    clockDivider mainClock 30000000#32 = .ok 0#16 ∧
      ¬ mainClock.toNat ≤ 2 * ((0#16).toNat + 1) * (30000000#32).toNat ∧
      mainClock.toNat ≤ 2 * ((1#16).toNat + 1) * (30000000#32).toNat := by
  decide

end BoardSupport.Spi
