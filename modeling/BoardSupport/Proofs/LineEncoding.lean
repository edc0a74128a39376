import BoardSupport.Proofs.LineSettings

/-!
The configurations of the UART's line that have a register value, and the register values that are
the value of the configuration in them.

A configuration is refused for the first of three reasons that applies. Any other is found again in
its register value, with the rate that the divider gives in place of the one that was asked for. The
other way round, a register value comes back from its configuration if no bit outside of the fields
is set, if the kind of parity is set only where there is parity, and if its divider is steady.
-/

namespace BoardSupport.Uart

open Control

variable {c : Config} {clock raw w : Word}

/-! ### Rounding -/

/-- The divider is the quotient of the clock and the rate to the nearest, and the lower one
halfway. -/
structure Rounds (clock baud d : ℕ) : Prop where
  below : 2 * ((clock : ℤ) - d * baud) ≤ baud
  above : 2 * ((d : ℤ) * baud - clock) < baud

lemma Rounds.le {clock baud d d' : ℕ} (h : Rounds clock baud d) (h' : Rounds clock baud d') :
    d' ≤ d := by
  have hsum : ((d' : ℤ) - d) * baud < 1 * baud := by
    have hbelow := h.below
    have habove := h'.above
    linarith
  have hlt : (d' : ℤ) - d < 1 := lt_of_mul_lt_mul_right hsum (Nat.cast_nonneg baud)
  omega

lemma rounds_nearest {baud : ℕ} (hbaud : 0 < baud) (clock : ℕ) :
    Rounds clock baud (nearest clock baud) := by
  have hsplit := Nat.div_add_mod clock baud
  have hlt : clock % baud < baud := Nat.mod_lt clock hbaud
  unfold nearest
  generalize clock / baud = q at *
  generalize clock % baud = rest at *
  subst hsplit
  split_ifs with hup
  · have hmore : baud < 2 * rest := by omega
    constructor <;> push_cast <;> linarith
  · have hless : 2 * rest ≤ baud := by omega
    constructor <;> push_cast <;> linarith

lemma rounds_iff {clock baud d : ℕ} (hbaud : 0 < baud) :
    Rounds clock baud d ↔ nearest clock baud = d := by
  have hnearest := rounds_nearest hbaud clock
  constructor
  · intro h
    exact le_antisymm (h.le hnearest) (hnearest.le h)
  · rintro rfl
    exact hnearest

/-! ### Bits of the register -/

/-- Parity that is taken over leaves the kind alone where there is none. -/
lemma putParity_getParity (raw w : Word) :
    putParity (getParity raw) w =
      parityEnable.put (parityEnable.get raw)
        (if raw.getLsbD 7 = true then parityType.put (parityType.get raw) w else w) := by
  have hset : parityEnable.isSet raw = raw.getLsbD 7 := Field.isSet_eq_getLsbD rfl raw
  rw [← Field.putBool_isSet rfl, getParity, hset]
  by_cases henable : raw.getLsbD 7 = true
  · -- each value of the kind's two bits is a parity
    rw [if_pos henable, if_pos henable, henable]
    have hkind : (parityType.get raw).toNat < 4 := Field.toNat_get_lt parityType raw
    have hvalue : parityType.get raw = BitVec.ofNat 32 (parityType.get raw).toNat := by simp
    generalize (parityType.get raw).toNat = kind at hkind hvalue
    rw [hvalue]
    interval_cases kind <;> rfl
  · rw [if_neg henable, if_neg henable, Bool.eq_false_iff.2 henable]
    rfl

/-- The framing that is read from a register value, bit by bit. -/
lemma getLsbD_framing_decode (raw clock : Word) (i : ℕ) :
    (Config.decode raw clock).framing.getLsbD i =
      (decide (i ≤ 5 ∨ i = 7 ∨ (i = 8 ∨ i = 9) ∧ raw.getLsbD 7 = true) && raw.getLsbD i) := by
  have hstop : ((if twoStopBits.isSet raw then StopBits.two else .one) == .two) =
      twoStopBits.isSet raw := by cases twoStopBits.isSet raw <;> rfl
  have hendian : (Endian.ofBig (bigEndian.isSet raw) == .big) = bigEndian.isSet raw := by
    cases bigEndian.isSet raw <;> rfl
  have hdata : ((dataBitsMinus5.get raw).setWidth 8 + 5#8 - 5#8).setWidth 32 =
      dataBitsMinus5.get raw := by
    rw [BitVec.add_sub_cancel, Field.setWidth_setWidth_get _ (by decide)]
  unfold Config.framing Config.decode
  simp only [hstop, hendian, hdata, Field.putBool_isSet (f := txEnable) rfl,
    Field.putBool_isSet (f := rxEnable) rfl, Field.putBool_isSet (f := twoStopBits) rfl,
    Field.putBool_isSet (f := bigEndian) rfl, putParity_getParity]
  have hbit : ∀ {w w' : Word}, (if raw.getLsbD 7 = true then w else w').getLsbD i =
      if raw.getLsbD 7 = true then w.getLsbD i else w'.getLsbD i := by
    intro w w'
    split_ifs <;> rfl
  simp only [Field.getLsbD_put_get, hbit, BitVec.getLsbD_zero, txEnable, rxEnable, dataBitsMinus5,
    twoStopBits, bigEndian, parityEnable, parityType, Field.bit]
  generalize raw.getLsbD i = bit
  generalize raw.getLsbD 7 = enable
  cases bit <;> cases enable <;> simp <;> grind

/-- Bits outside of the fields. -/
def Unused (i : ℕ) : Prop := i = 6 ∨ 10 ≤ i ∧ i ≤ 15

lemma getLsbD_framing_of_unused {i : ℕ} (h : Unused i) (c : Config) :
    c.framing.getLsbD i = false := by
  have hout : ∀ f : Field, f ∈ [txEnable, rxEnable, dataBitsMinus5, twoStopBits, bigEndian,
      parityEnable, parityType] → ∀ v w : Word, (f.put v w).getLsbD i = w.getLsbD i := by
    intro f hf v w
    rw [Field.getLsbD_put, if_neg]
    unfold Unused at h
    simp only [List.mem_cons, List.not_mem_nil, or_false] at hf
    rcases hf with rfl | rfl | rfl | rfl | rfl | rfl | rfl <;>
      simp only [txEnable, rxEnable, dataBitsMinus5, twoStopBits, bigEndian, parityEnable,
        parityType, Field.bit] <;> omega
  unfold Config.framing
  cases c.parity <;>
    simp (disch := simp) only [putParity, Field.putBool, hout, BitVec.getLsbD_zero]

/-! ### What is refused and what is encoded -/

/-- The field of the divider is the upper half of the word. -/
lemma clockDivider_get_eq (w : Word) : clockDivider.get w = (w.extractLsb 31 16).setWidth 32 := by
  apply BitVec.eq_of_getLsbD_eq
  intro i hi
  rw [Field.getLsbD_get, BitVec.getLsbD_setWidth, BitVec.getLsbD_extractLsb]
  simp only [clockDivider, hi, decide_true, Bool.true_and]
  exact Bool.and_comm _ _

lemma divider_eq_extractLsb (w : Word) : divider w = (w.extractLsb 31 16).toNat := by
  have hlt : (w.extractLsb 31 16).toNat < 2 ^ 16 := (w.extractLsb 31 16).isLt
  rw [divider, clockDivider_get_eq, BitVec.toNat_setWidth]
  exact Nat.mod_eq_of_lt (hlt.trans (by decide))

/-- Why a configuration has no register value: of three reasons the first that applies. -/
inductive Refused (c : Config) (clock : Word) : ConfigError → Prop where
  | dataBits (h : ¬ (5 ≤ c.dataBits.toNat ∧ c.dataBits.toNat ≤ 8)) :
      Refused c clock (.dataBits c.dataBits.toNat)
  | zeroRate (bits : 5 ≤ c.dataBits.toNat ∧ c.dataBits.toNat ≤ 8) (h : c.baudRate = 0#32) :
      Refused c clock .zeroRate
  | divider (bits : 5 ≤ c.dataBits.toNat ∧ c.dataBits.toNat ≤ 8) (rate : c.baudRate ≠ 0#32) {d : ℕ}
      (rounds : Rounds clock.toNat c.baudRate.toNat d) (h : d = 0 ∨ 65535 < d) :
      Refused c clock (.dividerOutOfRange c.baudRate.toNat d)

lemma baudDivider_eq_error_iff {baud : Word} {e : ConfigError} :
    baudDivider clock baud = .error e ↔
      baud = 0#32 ∧ e = .zeroRate ∨
      baud ≠ 0#32 ∧ ∃ d, Rounds clock.toNat baud.toNat d ∧ (d = 0 ∨ 65535 < d) ∧
        e = .dividerOutOfRange baud.toNat d := by
  rw [baudDivider_eq]
  by_cases hzero : baud = 0#32
  · simp [hzero, eq_comm]
  have hpos : 0 < baud.toNat := Nat.pos_of_ne_zero fun h => hzero (BitVec.eq_of_toNat_eq h)
  have hrounds : ∀ d, Rounds clock.toNat baud.toNat d ↔ nearest clock.toNat baud.toNat = d :=
    fun d => rounds_iff hpos
  have hsize : UInt16.size = 65536 := rfl
  simp only [hrounds, hzero, hsize, if_false, false_and, false_or, ne_eq, not_false_eq_true,
    true_and, exists_eq_left']
  generalize nearest clock.toNat baud.toNat = d
  split_ifs with hfits
  · simp only [false_iff]
    omega
  · have hout : d = 0 ∨ 65535 < d := by omega
    simp only [hout, true_and, Except.error.injEq]
    exact eq_comm

lemma encode_eq_error_iff {e : ConfigError} :
    c.encode clock = .error e ↔ Refused c clock e := by
  have hbits : (5#8 ≤ c.dataBits ∧ c.dataBits ≤ 8#8) ↔
      5 ≤ c.dataBits.toNat ∧ c.dataBits.toNat ≤ 8 := Iff.rfl
  unfold Config.encode
  split_ifs with hrange <;> rw [hbits] at hrange
  · -- the data bits are in range, so the rate decides
    have hmap : (baudDivider clock c.baudRate).map (fun d =>
        clockDivider.put (d.setWidth 32) c.framing) = .error e ↔
          baudDivider clock c.baudRate = .error e := by
      cases baudDivider clock c.baudRate <;> simp [Except.map]
    rw [hmap, baudDivider_eq_error_iff]
    constructor
    · rintro (⟨hzero, rfl⟩ | ⟨hrate, d, hrounds, hout, rfl⟩)
      · exact .zeroRate hrange hzero
      · exact .divider hrange hrate hrounds hout
    · intro h
      cases h with
      | dataBits h => exact absurd hrange h
      | zeroRate _ hzero => exact .inl ⟨hzero, rfl⟩
      | divider _ hrate hrounds hout => exact .inr ⟨hrate, _, hrounds, hout, rfl⟩
  · -- the data bits are looked at first
    constructor
    · intro h
      cases h
      exact .dataBits hrange
    · intro h
      cases h with
      | dataBits => rfl
      | zeroRate hbits => exact absurd hbits hrange
      | divider hbits => exact absurd hbits hrange

/-- The register value holds the configuration, with the rate that its divider gives. -/
structure Encoded (c : Config) (clock r : Word) : Prop where
  rounds : Rounds clock.toNat c.baudRate.toNat (r.extractLsb 31 16).toNat
  unused : ∀ i, Unused i → r.getLsbD i = false
  decode : Config.decode r clock = { c with baudRate := clock / (r.extractLsb 31 16).setWidth 32 }

lemma encoded_of_encode {r : Word} (h : c.encode clock = .ok r) : Encoded c clock r := by
  obtain ⟨hbits, d, hd, rfl⟩ := encode_eq_ok_iff.1 h
  obtain ⟨hrate, -, hnearest⟩ := baudDivider_eq_ok_iff.1 hd
  have hpos : 0 < c.baudRate.toNat :=
    Nat.pos_of_ne_zero fun hzero => hrate (BitVec.eq_of_toNat_eq hzero)
  refine ⟨?_, fun i hi => ?_, ?_⟩
  · rw [← divider_eq_extractLsb, divider_put, rounds_iff hpos]
    exact hnearest
  · have hlow : ¬ 16 ≤ i := by
      unfold Unused at hi
      omega
    rw [Field.getLsbD_put, if_neg fun hin => hlow hin.1]
    exact getLsbD_framing_of_unused hi c
  · rw [decode_put_framing hbits, ← clockDivider_get_eq, Field.get_put _ (by decide),
      setWidth_and_ones]

/-- **Encoding is faithful.** A configuration is refused exactly for the first of the reasons that
applies, and any other is encoded to a register value that holds it. Applying one that is refused
does nothing on any platform, and one that is encoded is read back from the board. -/
theorem encode_faithful (c : Config) :
    (∀ clock, (∀ e, c.encode clock = .error e ↔ Refused c clock e) ∧
      ∀ r, c.encode clock = .ok r → Encoded c clock r) ∧
    (∀ e, c.encode mainClock = .error e →
      ∀ (σ : Type) (p : Platform σ), init p c = pure (.error e)) ∧
    ∀ r, c.encode mainClock = .ok r → ∀ patience b, ∃ b',
      init (Board.platform patience) c b = .ok (.ok ()) b' ∧
      config (Board.platform patience) b' =
        .ok { c with baudRate := mainClock / (r.extractLsb 31 16).setWidth 32 } b' := by
  refine ⟨fun clock => ⟨fun e => encode_eq_error_iff, fun r => encoded_of_encode⟩,
    fun e he σ p => ?_, fun r hr patience b => ⟨b.poke MemoryMap.uart r, ?_, ?_⟩⟩
  · rw [init, he]
  · rw [init_board, hr]
  · rw [config_board, Board.memory_poke, (encoded_of_encode hr).decode]

/-- A frame of seven bits with odd parity, at a rate that the divider only comes close to. -/
def oddFrame : Config :=
  { rxEnable := false, baudRate := 9600#32, dataBits := 7#8, stopBits := .two, parity := .odd,
    endian := .big }

theorem encode_faithful_oddFrame :
    oddFrame.encode mainClock = .ok 0x28b102b9#32 ∧ Encoded oddFrame mainClock 0x28b102b9#32 ∧
      (∃ b', init (Board.platform 0) oddFrame Board.new = .ok (.ok ()) b' ∧
        config (Board.platform 0) b' = .ok { oddFrame with baudRate := 9599#32 } b') ∧
      init (Board.platform 0) { oddFrame with baudRate := 1000#32 } =
        pure (.error (.dividerOutOfRange 1000 100000)) := by
  have hencode : oddFrame.encode mainClock = .ok 0x28b102b9#32 := by decide
  exact ⟨hencode, ((encode_faithful oddFrame).1 mainClock).2 _ hencode,
    (encode_faithful oddFrame).2.2 _ hencode 0 Board.new,
    (encode_faithful { oddFrame with baudRate := 1000#32 }).2.1 _ (by decide) _ _⟩

/-! ### Register values that come back -/

/-- A register value and the one that its configuration is encoded to with a divider. -/
lemma eq_put_framing_decode_iff {d : BitVec 16} :
    raw = clockDivider.put (d.setWidth 32) (Config.decode raw clock).framing ↔
      (∀ i, Unused i → raw.getLsbD i = false) ∧
      (raw.getLsbD 7 = false → raw.getLsbD 8 = false ∧ raw.getLsbD 9 = false) ∧
      d.setWidth 32 = clockDivider.get raw := by
  have hput : ∀ i, (clockDivider.put (clockDivider.get raw)
      (Config.decode raw clock).framing).getLsbD i =
        if 16 ≤ i ∧ i < 32 then raw.getLsbD i
        else decide (i ≤ 5 ∨ i = 7 ∨ (i = 8 ∨ i = 9) ∧ raw.getLsbD 7 = true) && raw.getLsbD i := by
    intro i
    rw [Field.getLsbD_put_get, getLsbD_framing_decode]
    rfl
  constructor
  · intro h
    have hd : d.setWidth 32 = clockDivider.get raw := by
      have hget := congrArg clockDivider.get h
      rw [Field.get_put _ (by decide), setWidth_and_ones] at hget
      exact hget.symm
    rw [hd] at h
    have hbit : ∀ i, i < 16 →
        ¬ (i ≤ 5 ∨ i = 7 ∨ (i = 8 ∨ i = 9) ∧ raw.getLsbD 7 = true) → raw.getLsbD i = false := by
      intro i hi hout
      have hsame := congrArg (BitVec.getLsbD · i) h
      simp only [hput, if_neg (show ¬ (16 ≤ i ∧ i < 32) by omega), hout, decide_false,
        Bool.false_and] at hsame
      exact hsame
    refine ⟨fun i hi => ?_, fun hnone => ⟨?_, ?_⟩, hd⟩
    · unfold Unused at hi
      exact hbit i (by omega) (by omega)
    · exact hbit 8 (by decide) (by rw [hnone]; decide)
    · exact hbit 9 (by decide) (by rw [hnone]; decide)
  · rintro ⟨hunused, hkind, hd⟩
    apply BitVec.eq_of_getLsbD_eq
    intro i hi
    rw [hd, hput]
    by_cases hhigh : 16 ≤ i
    · rw [if_pos ⟨hhigh, hi⟩]
    rw [if_neg fun h => hhigh h.1]
    by_cases hin : i ≤ 5 ∨ i = 7 ∨ (i = 8 ∨ i = 9) ∧ raw.getLsbD 7 = true
    · rw [decide_eq_true hin, Bool.true_and]
    · -- a bit that is not taken over is one that has to be zero
      have hzero : raw.getLsbD i = false := by
        by_cases hparity : i = 8 ∨ i = 9
        · have hnone : raw.getLsbD 7 = false := by
            rw [← Bool.not_eq_true]
            exact fun hset => hin (.inr (.inr ⟨hparity, hset⟩))
          rcases hparity with rfl | rfl
          · exact (hkind hnone).1
          · exact (hkind hnone).2
        · refine hunused i ?_
          unfold Unused
          omega
      rw [hzero, Bool.and_false]

lemma dataBits_decode (raw clock : Word) :
    5#8 ≤ (Config.decode raw clock).dataBits ∧ (Config.decode raw clock).dataBits ≤ 8#8 := by
  have hlt : (dataBitsMinus5.get raw).toNat < 4 := Field.toNat_get_lt dataBitsMinus5 raw
  have hdata : (Config.decode raw clock).dataBits.toNat = (dataBitsMinus5.get raw).toNat + 5 := by
    have hfive : (5#8).toNat = 5 := rfl
    rw [Config.decode, BitVec.toNat_add, BitVec.toNat_setWidth, hfive]
    omega
  constructor
  · show 5 ≤ (Config.decode raw clock).dataBits.toNat
    omega
  · show (Config.decode raw clock).dataBits.toNat ≤ 8
    omega

/-- **The register values that come back.** A register value is what its own configuration is
encoded to exactly if the bits outside of the fields are zero, the kind of parity is zero where
there is none, and the divider has a nominal rate and at most half of it as its remainder. -/
theorem encode_decode_eq_self_iff (raw clock : Word) :
    (Config.decode raw clock).encode clock = .ok raw ↔
      (∀ i, Unused i → raw.getLsbD i = false) ∧
      (raw.getLsbD 7 = false → raw.getLsbD 8 = false ∧ raw.getLsbD 9 = false) ∧
      1 ≤ (raw.extractLsb 31 16).toNat ∧ (raw.extractLsb 31 16).toNat ≤ clock.toNat ∧
      clock.toNat % (raw.extractLsb 31 16).toNat ≤
        clock.toNat / (raw.extractLsb 31 16).toNat / 2 := by
  have hrate : (Config.decode raw clock).baudRate = clock / clockDivider.get raw := rfl
  have hdivider : (clockDivider.get raw).toNat = (raw.extractLsb 31 16).toNat :=
    divider_eq_extractLsb raw
  simp only [encode_eq_ok_iff, hrate, baudDivider_div_eq_ok_iff, eq_put_framing_decode_iff,
    hdivider]
  constructor
  · rintro ⟨-, d, ⟨⟨hpos, hle⟩, hd⟩, hunused, hkind, hsame⟩
    have hzero : nearest (clock.toNat % (raw.extractLsb 31 16).toNat)
        (clock.toNat / (raw.extractLsb 31 16).toNat) = 0 := by
      have hwidth := congrArg BitVec.toNat hsame
      rw [hdivider, BitVec.toNat_setWidth, Nat.mod_eq_of_lt (d.isLt.trans (by decide))] at hwidth
      omega
    rw [nearest_eq_zero_iff (Nat.div_pos hle hpos)] at hzero
    exact ⟨hunused, hkind, hpos, hle, by omega⟩
  · rintro ⟨hunused, hkind, hpos, hle, hrest⟩
    have hzero : nearest (clock.toNat % (raw.extractLsb 31 16).toNat)
        (clock.toNat / (raw.extractLsb 31 16).toNat) = 0 := by
      rw [nearest_eq_zero_iff (Nat.div_pos hle hpos)]
      omega
    refine ⟨dataBits_decode raw clock, raw.extractLsb 31 16, ⟨⟨hpos, hle⟩, ?_⟩, hunused, hkind,
      (clockDivider_get_eq raw).symm⟩
    rw [hzero, Nat.add_zero]

/-- The remainder may be half of the nominal rate, rounded down, and no more. -/
example : (Config.decode 0x0005000c#32 11#32).encode 11#32 = .ok 0x0005000c#32 ∧
    (Config.decode 0x0005000c#32 12#32).encode 12#32 = .ok 0x0006000c#32 := by decide

end BoardSupport.Uart
