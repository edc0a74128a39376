import BoardSupport.Peripheral.Uart
import BoardSupport.Proofs.Fields
import BoardSupport.Proofs.Station

/-!
The settings of the UART's line, read back from its register and applied again.

The register holds the framing as it is set and the rate as a divider of the clock. The divider for
a rate is rounded to the nearest, and the rate that is read back from it is rounded down. So the
framing comes back as it was, but the divider may have grown: it is the same again exactly where
twice the remainder of its division is at most the nominal rate.
-/

namespace BoardSupport

lemma Proc.of_sequence_singleton {σ α : Type} {s s' : σ} {a : α} {x : Proc σ α}
    (h : sequence [x] s = .ok [a] s') : x s = .ok a s' := by
  cases hx : x s with
  | ok a' s₁ =>
    have hrun := sequence_cons_of_ok hx (rfl : sequence [] s₁ = .ok [] s₁)
    cases hrun.symm.trans h
    rfl
  | error e s₁ =>
    have hrun : sequence [x] s = .error e s₁ := by
      show EStateM.bind x _ s = _
      simp only [EStateM.bind, hx]
    cases hrun.symm.trans h

namespace Uart

open Control

variable {c : Config} {clock w r : Word} {d : BitVec 16}

/-! ### What the register holds -/

lemma get_putParity {g : Field} (h : g.low + g.size ≤ 7 ∨ 10 ≤ g.low) (p : Parity) (w : Word) :
    g.get (putParity p w) = g.get w := by
  have henable : parityEnable.low + parityEnable.size ≤ g.low ∨
      g.low + g.size ≤ parityEnable.low := by
    simp only [parityEnable, Field.bit]
    omega
  have htype : parityType.low + parityType.size ≤ g.low ∨ g.low + g.size ≤ parityType.low := by
    simp only [parityType]
    omega
  cases p <;>
    simp only [putParity, Field.get_putBool_of_disjoint henable,
      Field.get_put_of_disjoint _ _ htype]

lemma getParity_putParity (p : Parity) (w : Word) : getParity (putParity p w) = p := by
  have htype : ∀ v : Word, parityType.get (parityType.put v w) = v &&& 3#32 := fun v =>
    Field.get_put parityType (by decide) v w
  cases p <;>
    simp (disch := decide) only [getParity, putParity, Field.isSet, Field.get_putBool,
      Field.get_putBool_of_disjoint, htype] <;>
    rfl

lemma getParity_put_clockDivider (v w : Word) : getParity (clockDivider.put v w) = getParity w := by
  have henable : parityEnable.get (clockDivider.put v w) = parityEnable.get w :=
    Field.get_put_of_disjoint _ _ (by decide) v w
  have htype : parityType.get (clockDivider.put v w) = parityType.get w :=
    Field.get_put_of_disjoint _ _ (by decide) v w
  unfold getParity Field.isSet
  rw [henable, htype]

/-- The field of the divider holds any divider. -/
lemma setWidth_and_ones (d : BitVec 16) :
    d.setWidth 32 &&& clockDivider.ones = d.setWidth 32 :=
  Field.setWidth_and_ones clockDivider rfl d

/-- The register value that a configuration is turned into holds that configuration, but for its
rate. -/
lemma decode_put_framing (hbits : 5#8 ≤ c.dataBits ∧ c.dataBits ≤ 8#8) (d : BitVec 16)
    (clock : Word) :
    Config.decode (clockDivider.put (d.setWidth 32) c.framing) clock =
      { c with baudRate := clock / d.setWidth 32 } := by
  have hdata : ∀ n : BitVec 8, 5#8 ≤ n → n ≤ 8#8 →
      ((n - 5#8).setWidth 32 &&& dataBitsMinus5.ones).setWidth 8 + 5#8 = n := by decide
  obtain ⟨tx, rx, baud, data, stop, parity, endian⟩ := c
  simp (disch := decide) only [Config.decode, Config.framing, Field.isSet,
    Field.get_put_of_disjoint, get_putParity, Field.get_putBool, Field.get_putBool_of_disjoint,
    Field.get_put, setWidth_and_ones, getParity_put_clockDivider, getParity_putParity,
    hdata data hbits.1 hbits.2]
  cases tx <;> cases rx <;> cases stop <;> cases endian <;> rfl

/-! ### Rounding -/

/-- The quotient of the clock and the rate to the nearest, and to the lower one halfway. -/
def nearest (clock baud : ℕ) : ℕ := clock / baud + if baud / 2 < clock % baud then 1 else 0

lemma nearest_le (clock baud : ℕ) : nearest clock baud ≤ clock := by
  have hsplit := Nat.div_add_mod clock baud
  have hquotient := Nat.div_le_self clock baud
  unfold nearest
  split_ifs with hup
  · rcases Nat.lt_or_ge baud 2 with hsmall | hlarge
    · interval_cases baud
      · simp only [Nat.div_zero, Nat.mod_zero] at hup ⊢
        omega
      · omega
    · -- from a rate of two on the quotient is at most half of the clock
      have hmul : 2 * (clock / baud) ≤ baud * (clock / baud) := Nat.mul_le_mul_right _ hlarge
      omega
  · omega

lemma nearest_mul_add {baud : ℕ} (hbaud : 0 < baud) (n rest : ℕ) :
    nearest (baud * n + rest) baud = n + nearest rest baud := by
  unfold nearest
  rw [Nat.mul_add_div hbaud, Nat.mul_add_mod, Nat.add_assoc]

lemma nearest_eq_zero_iff {rest baud : ℕ} (hbaud : 0 < baud) :
    nearest rest baud = 0 ↔ 2 * rest ≤ baud := by
  unfold nearest
  constructor
  · intro h
    have hlt : rest < baud := by
      by_contra hge
      have := Nat.div_pos (Nat.le_of_not_lt hge) hbaud
      omega
    rw [Nat.div_eq_of_lt hlt, Nat.mod_eq_of_lt hlt] at h
    split_ifs at h with hup
    omega
  · intro h
    have hlt : rest < baud := by omega
    rw [Nat.div_eq_of_lt hlt, Nat.mod_eq_of_lt hlt, if_neg (by omega)]

/-- The divider for the nominal rate of a divider is off by what the remainder rounds to. -/
lemma nearest_div {clock n : ℕ} (hn : 0 < n) (hle : n ≤ clock) :
    nearest clock (clock / n) = n + nearest (clock % n) (clock / n) := by
  have hsplit : clock = clock / n * n + clock % n := (Nat.div_add_mod' clock n).symm
  calc nearest clock (clock / n) = nearest (clock / n * n + clock % n) (clock / n) := by
        rw [← hsplit]
    _ = n + nearest (clock % n) (clock / n) := nearest_mul_add (Nat.div_pos hle hn) n _

lemma baudDivider_eq (clock baud : Word) : baudDivider clock baud =
    if baud = 0#32 then Except.error ConfigError.zeroRate
    else if 0 < nearest clock.toNat baud.toNat ∧ nearest clock.toNat baud.toNat < UInt16.size then
      .ok (BitVec.ofNat 16 (nearest clock.toNat baud.toNat))
    else .error (.dividerOutOfRange baud.toNat (nearest clock.toNat baud.toNat)) := rfl

lemma baudDivider_eq_ok_iff {baud : Word} :
    baudDivider clock baud = .ok d ↔
      baud ≠ 0#32 ∧ 0 < d.toNat ∧ nearest clock.toNat baud.toNat = d.toNat := by
  have hd : d.toNat < UInt16.size := d.isLt
  rw [baudDivider_eq]
  generalize nearest clock.toNat baud.toNat = n
  split_ifs with hzero hfits
  · simp [hzero]
  · have hn : (BitVec.ofNat 16 n).toNat = n := by
      rw [BitVec.toNat_ofNat]
      exact Nat.mod_eq_of_lt hfits.2
    constructor
    · intro h
      cases h
      exact ⟨hzero, by omega, hn.symm⟩
    · rintro ⟨-, -, h⟩
      exact congrArg Except.ok (BitVec.eq_of_toNat_eq (hn.trans h))
  · constructor
    · intro h
      cases h
    · rintro ⟨-, hpos, rfl⟩
      exact absurd ⟨hpos, hd⟩ hfits

/-- The divider for the nominal rate of `n`, where there is such a rate. -/
lemma baudDivider_div_eq_ok_iff {n : Word} {d : BitVec 16} :
    baudDivider clock (clock / n) = .ok d ↔
      (0 < n.toNat ∧ n.toNat ≤ clock.toNat) ∧
      d.toNat = n.toNat + nearest (clock.toNat % n.toNat) (clock.toNat / n.toNat) := by
  have hrate : (clock / n).toNat = clock.toNat / n.toNat := BitVec.toNat_udiv
  have hne : clock / n ≠ 0#32 ↔ 0 < n.toNat ∧ n.toNat ≤ clock.toNat := by
    rw [← Nat.div_pos_iff, ← hrate, Nat.pos_iff_ne_zero, ne_eq, ne_eq, not_iff_not,
      BitVec.toNat_eq]
    rfl
  rw [baudDivider_eq_ok_iff, hrate, hne]
  constructor
  · rintro ⟨⟨hpos, hle⟩, -, hd⟩
    exact ⟨⟨hpos, hle⟩, by rw [← hd, nearest_div hpos hle]⟩
  · rintro ⟨⟨hpos, hle⟩, hd⟩
    exact ⟨⟨hpos, hle⟩, by omega, by rw [hd, nearest_div hpos hle]⟩

/-! ### Reading back and encoding again -/

/-- The divider in a register value. -/
def divider (w : Word) : ℕ := (clockDivider.get w).toNat

lemma divider_put (d : BitVec 16) (w : Word) :
    divider (clockDivider.put (d.setWidth 32) w) = d.toNat := by
  have hlt : d.toNat < 4294967296 := Nat.lt_of_lt_of_le d.isLt (by decide)
  rw [divider, Field.get_put _ (by decide), setWidth_and_ones, BitVec.toNat_setWidth]
  exact Nat.mod_eq_of_lt hlt

lemma encode_eq_ok_iff :
    c.encode clock = .ok r ↔ (5#8 ≤ c.dataBits ∧ c.dataBits ≤ 8#8) ∧
      ∃ d, baudDivider clock c.baudRate = .ok d ∧
        r = clockDivider.put (d.setWidth 32) c.framing := by
  unfold Config.encode
  split_ifs with hbits
  · cases baudDivider clock c.baudRate with
    | ok d =>
      constructor
      · intro h
        cases h
        exact ⟨hbits, d, rfl, rfl⟩
      · rintro ⟨-, d', hd', rfl⟩
        cases hd'
        rfl
    | error e =>
      constructor
      · intro h
        cases h
      · rintro ⟨-, d', hd', -⟩
        cases hd'
  · constructor
    · intro h
      cases h
    · rintro ⟨h, -⟩
      exact absurd h hbits

/-- A register value that was encoded, read back and encoded again: the framing stays, and the
divider is the one for its own nominal rate. -/
lemma encode_decode (h : c.encode clock = .ok r) :
    (Config.decode r clock).encode clock =
      (baudDivider clock (clock / clockDivider.get r)).map fun d =>
        clockDivider.put (d.setWidth 32) c.framing := by
  obtain ⟨hbits, d, -, rfl⟩ := encode_eq_ok_iff.1 h
  have hget : clockDivider.get (clockDivider.put (d.setWidth 32) c.framing) = d.setWidth 32 := by
    rw [Field.get_put _ (by decide), setWidth_and_ones]
  rw [decode_put_framing hbits, hget]
  exact if_pos hbits

lemma divider_of_encode (h : c.encode clock = .ok r) :
    0 < divider r ∧ divider r ≤ clock.toNat := by
  obtain ⟨-, d, hd, rfl⟩ := encode_eq_ok_iff.1 h
  obtain ⟨-, hpos, hnearest⟩ := baudDivider_eq_ok_iff.1 hd
  rw [divider_put, ← hnearest]
  exact ⟨by omega, nearest_le _ _⟩

/-- Encoding the nominal rate of the divider gives the divider back. -/
def Steady (clock w : Word) : Prop :=
  2 * (clock.toNat % divider w) ≤ clock.toNat / divider w

/-- The framing is the same, and the line is no faster. -/
structure Slowed (w w' : Word) : Prop where
  framing : ∀ i < 16, w'.getLsbD i = w.getLsbD i
  divider : divider w ≤ divider w'

lemma slowed_refl (w : Word) : Slowed w w := ⟨fun _ _ => rfl, le_rfl⟩

lemma Slowed.trans {w w' w'' : Word} (h : Slowed w w') (h' : Slowed w' w'') : Slowed w w'' :=
  ⟨fun i hi => (h'.framing i hi).trans (h.framing i hi), h.divider.trans h'.divider⟩

/-- What the second encoding gives, if it gives anything. -/
lemma encode_decode_eq_ok_iff {r' : Word} (h : c.encode clock = .ok r) :
    (Config.decode r clock).encode clock = .ok r' ↔
      ∃ d' : BitVec 16, r' = clockDivider.put (d'.setWidth 32) c.framing ∧
        d'.toNat = divider r + nearest (clock.toNat % divider r) (clock.toNat / divider r) := by
  obtain ⟨hpos, hle⟩ := divider_of_encode h
  have hsome : ∀ d' : BitVec 16, baudDivider clock (clock / clockDivider.get r) = .ok d' ↔
      d'.toNat = divider r + nearest (clock.toNat % divider r) (clock.toNat / divider r) :=
    fun d' => baudDivider_div_eq_ok_iff.trans (and_iff_right ⟨hpos, hle⟩)
  rw [encode_decode h]
  cases hbaud : baudDivider clock (clock / clockDivider.get r) with
  | ok d' =>
    constructor
    · intro hr'
      cases hr'
      exact ⟨d', rfl, (hsome d').1 hbaud⟩
    · rintro ⟨d₁, rfl, hd₁⟩
      have hboth := hbaud.symm.trans ((hsome d₁).2 hd₁)
      cases hboth
      rfl
  | error e =>
    constructor
    · intro hr'
      cases hr'
    · rintro ⟨d₁, -, hd₁⟩
      have hboth := hbaud.symm.trans ((hsome d₁).2 hd₁)
      cases hboth

lemma slowed_of_encode_decode {r' : Word} (h : c.encode clock = .ok r)
    (h' : (Config.decode r clock).encode clock = .ok r') : Slowed r r' := by
  obtain ⟨d', rfl, hd'⟩ := (encode_decode_eq_ok_iff h).1 h'
  obtain ⟨-, d, -, rfl⟩ := encode_eq_ok_iff.1 h
  refine ⟨fun i hi => ?_, by rw [divider_put d']; omega⟩
  have hbelow : ∀ v w : Word, (clockDivider.put v w).getLsbD i = w.getLsbD i := by
    intro v w
    rw [Field.getLsbD_put, if_neg (by simp only [clockDivider]; omega)]
  rw [hbelow, hbelow]

/-- The register value comes back exactly where the divider is steady. -/
lemma encode_decode_eq_iff_steady (h : c.encode clock = .ok r) :
    (Config.decode r clock).encode clock = .ok r ↔ Steady clock r := by
  obtain ⟨hpos, hle⟩ := divider_of_encode h
  unfold Steady
  rw [encode_decode_eq_ok_iff h, ← nearest_eq_zero_iff (Nat.div_pos hle hpos)]
  obtain ⟨-, d, -, hr⟩ := encode_eq_ok_iff.1 h
  have hd : divider r = d.toNat := by rw [hr, divider_put]
  constructor
  · rintro ⟨d', hr', hd'⟩
    have hsame : divider r = d'.toNat := by rw [hr', divider_put]
    omega
  · intro hzero
    exact ⟨d, hr, by omega⟩

/-! ### Applying what was read back -/

variable {σ : Type} {patience : ℕ} {b : Board}

/-- Read the configuration back and apply it. -/
def reapply (p : Platform σ) : Proc σ (Except ConfigError Unit) := do init p (← config p)

/-- On the board the register is memory. -/
lemma plain_control : Link.uart.layout.Plain 0 := by constructor <;> decide

lemma control_board :
    control (Board.platform patience) b = .ok (b.memory MemoryMap.uart) b :=
  Link.uart.read_plain plain_control patience b

lemma writeControl_board (w : Word) :
    (registers (Board.platform patience)).write 0 w b = .ok () (b.poke MemoryMap.uart w) :=
  Link.uart.write_plain plain_control w patience b

lemma config_board :
    config (Board.platform patience) b = .ok (.decode (b.memory MemoryMap.uart) mainClock) b :=
  Proc.bind_of_ok control_board

lemma init_board (c : Config) :
    init (Board.platform patience) c b =
      match c.encode mainClock with
      | .error e => .ok (.error e) b
      | .ok w => .ok (.ok ()) (b.poke MemoryMap.uart w) := by
  unfold init
  cases c.encode mainClock with
  | error e => rfl
  | ok w => exact (Proc.bind_of_ok rfl).trans (Proc.bind_of_ok (writeControl_board w))

/-- A successful start leaves the encoded configuration in the register. -/
lemma encode_of_init {b' : Board} (h : init (Board.platform patience) c b = .ok (.ok ()) b') :
    c.encode mainClock = .ok (b'.memory MemoryMap.uart) := by
  rw [init_board] at h
  cases hc : c.encode mainClock with
  | error e =>
    rw [hc] at h
    cases h
  | ok w =>
    rw [hc] at h
    cases h
    rw [Board.memory_poke]

lemma reapply_board :
    reapply (Board.platform patience) b =
      match (Config.decode (b.memory MemoryMap.uart) mainClock).encode mainClock with
      | .error e => .ok (.error e) b
      | .ok w => .ok (.ok ()) (b.poke MemoryMap.uart w) :=
  (Proc.bind_of_ok config_board).trans (init_board _)

/-- A round on a steady register succeeds and leaves the board as it is. -/
lemma reapply_of_steady (h : c.encode mainClock = .ok (b.memory MemoryMap.uart))
    (hs : Steady mainClock (b.memory MemoryMap.uart)) :
    reapply (Board.platform patience) b = .ok (.ok ()) b := by
  rw [reapply_board, (encode_decode_eq_iff_steady h).2 hs]
  show EStateM.Result.ok _ (b.poke MemoryMap.uart (b.memory MemoryMap.uart)) = _
  rw [Board.poke_memory]

lemma steady_of_reapply (h : c.encode mainClock = .ok (b.memory MemoryMap.uart))
    (hround : reapply (Board.platform patience) b = .ok (.ok ()) b) :
    Steady mainClock (b.memory MemoryMap.uart) := by
  rw [reapply_board] at hround
  rw [← encode_decode_eq_iff_steady h]
  cases hw : (Config.decode (b.memory MemoryMap.uart) mainClock).encode mainClock with
  | error e =>
    rw [hw] at hround
    cases hround
  | ok w =>
    -- what the round wrote is what stands in the register
    rw [hw] at hround
    have hsame : b.poke MemoryMap.uart w = b := by injection hround
    have hmemory := b.memory_poke MemoryMap.uart w
    rw [hsame] at hmemory
    rw [hmemory]

lemma sequence_of_steady (h : c.encode mainClock = .ok (b.memory MemoryMap.uart))
    (hs : Steady mainClock (b.memory MemoryMap.uart)) (k : ℕ) :
    Proc.sequence (List.replicate k (reapply (Board.platform patience))) b =
      .ok (List.replicate k (.ok ())) b := by
  induction k with
  | zero => rfl
  | succ k ih => exact Proc.sequence_cons_of_ok (reapply_of_steady h hs) ih

/-- A round returns, and the register it leaves was encoded from a configuration, too. -/
lemma reapply_slowed (patience : ℕ) (h : c.encode mainClock = .ok (b.memory MemoryMap.uart)) :
    ∃ result b' c', reapply (Board.platform patience) b = .ok result b' ∧
      Config.encode c' mainClock = .ok (b'.memory MemoryMap.uart) ∧
      Slowed (b.memory MemoryMap.uart) (b'.memory MemoryMap.uart) := by
  rw [reapply_board]
  cases h' : (Config.decode (b.memory MemoryMap.uart) mainClock).encode mainClock with
  -- a round that is refused leaves the register as it was
  | error e => exact ⟨_, b, c, rfl, h, slowed_refl _⟩
  | ok w =>
    refine ⟨_, b.poke MemoryMap.uart w, Config.decode (b.memory MemoryMap.uart) mainClock, rfl,
      ?_, ?_⟩
    · rw [Board.memory_poke]
      exact h'
    · rw [Board.memory_poke]
      exact slowed_of_encode_decode h h'

lemma sequence_slowed (h : c.encode mainClock = .ok (b.memory MemoryMap.uart)) (k : ℕ) :
    ∃ results b', Proc.sequence (List.replicate k (reapply (Board.platform patience))) b =
        .ok results b' ∧
      Slowed (b.memory MemoryMap.uart) (b'.memory MemoryMap.uart) := by
  induction k generalizing b c with
  | zero => exact ⟨[], b, rfl, slowed_refl _⟩
  | succ k ih =>
    obtain ⟨result, b₁, c₁, hround, h₁, hslowed⟩ := reapply_slowed patience h
    obtain ⟨results, b₂, hrest, hslowed₂⟩ := ih h₁
    exact ⟨result :: results, b₂, Proc.sequence_cons_of_ok hround hrest, hslowed.trans hslowed₂⟩

/-- **Settings that are read back and applied again.** A register value that a configuration was
encoded to comes back exactly where its divider is steady, and then any number of rounds of reading
back and applying succeeds and changes nothing. Where it is not steady the line gets slower: a round
keeps the framing and never lowers the divider. -/
theorem reapply_iff_steady (c : Config) :
    (∀ clock r, c.encode clock = .ok r →
      ((Config.decode r clock).encode clock = .ok r ↔ Steady clock r) ∧
      ∀ r', (Config.decode r clock).encode clock = .ok r' → Slowed r r') ∧
    ∀ patience b b', init (Board.platform patience) c b = .ok (.ok ()) b' →
      ((∀ k, Proc.sequence (List.replicate k (reapply (Board.platform patience))) b' =
          .ok (List.replicate k (.ok ())) b') ↔ Steady mainClock (b'.memory MemoryMap.uart)) ∧
      ∀ k, ∃ results b'',
        Proc.sequence (List.replicate k (reapply (Board.platform patience))) b' = .ok results b'' ∧
        Slowed (b'.memory MemoryMap.uart) (b''.memory MemoryMap.uart) := by
  refine ⟨fun clock r h => ⟨encode_decode_eq_iff_steady h, fun r' => slowed_of_encode_decode h⟩,
    fun patience b b' hinit => ?_⟩
  have henc := encode_of_init hinit
  refine ⟨⟨fun hall => ?_, fun hs => sequence_of_steady henc hs⟩, fun k => sequence_slowed henc k⟩
  exact steady_of_reapply henc (Proc.of_sequence_singleton (hall 1))

/-- The default of 115200 baud is steady: the divider is 868 and leaves a remainder of 324. -/
theorem reapply_iff_steady_default :
    init (Board.platform 0) {} Board.new = .ok (.ok ()) (Board.new.poke MemoryMap.uart 0x364000f) ∧
      ∀ k, Proc.sequence (List.replicate k (reapply (Board.platform 0)))
          (Board.new.poke MemoryMap.uart 0x364000f) =
        .ok (List.replicate k (.ok ())) (Board.new.poke MemoryMap.uart 0x364000f) := by
  have hinit : init (Board.platform 0) {} Board.new =
      .ok (.ok ()) (Board.new.poke MemoryMap.uart 0x364000f) := by
    have henc : Config.encode {} mainClock = .ok 0x364000f := by decide
    rw [init_board, henc]
  refine ⟨hinit, (((reapply_iff_steady {}).2 0 _ _ hinit).1).2 ?_⟩
  rw [Board.memory_poke]
  unfold Steady
  decide

/-- At 9600 baud the divider is 10417, which reads back as 9599 baud, whose divider is 10418. -/
theorem reapply_slows_9600 :
    Config.encode { baudRate := 9600#32 } mainClock = .ok 0x28b1000f#32 ∧
      (Config.decode 0x28b1000f#32 mainClock).encode mainClock = .ok 0x28b2000f#32 := by
  decide

end Uart

end BoardSupport
