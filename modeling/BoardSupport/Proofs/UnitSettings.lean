import BoardSupport.Peripheral.Spi
import BoardSupport.Proofs.Fields
import BoardSupport.Proofs.Station

/-!
The settings of the SPI controllers in their register.

Every bit of the register belongs to a field, and every value of a field stands for a setting. So
the register values and the configurations whose units have 1 to 32 bits are in one-to-one
correspondence. The four registers that a start writes are plain memory of the controller's own
block.
-/

namespace BoardSupport.Spi

open Control

variable {c : Config} {w : Word}

/-! ### The register and the configurations -/

/-- The units have a length that the register can hold. -/
def Config.Valid (c : Config) : Prop := 1 ≤ c.unitLength.toNat ∧ c.unitLength.toNat ≤ 32

instance (c : Config) : Decidable c.Valid :=
  inferInstanceAs (Decidable (1 ≤ c.unitLength.toNat ∧ c.unitLength.toNat ≤ 32))

lemma encode_of_not_valid (h : ¬ c.Valid) : c.encode = .error (.unitLength c.unitLength.toNat) :=
  if_neg h

/-- A configuration that has a register value is found there again. -/
lemma decode_of_encode (h : c.encode = .ok w) : Config.decode w = c := by
  have hlength : ∀ n : BitVec 8, 1#8 ≤ n → n ≤ 32#8 →
      ((n - 1#8).setWidth 32 &&& unitLengthMinus1.ones).setWidth 8 + 1#8 = n := by decide
  have hdelay := Field.setWidth_and_ones_setWidth clockDelay (n := 8) rfl (by decide)
  have hdivider := Field.setWidth_and_ones_setWidth Control.clockDivider (n := 16) rfl (by decide)
  obtain ⟨cpol, cpha, endian, length, delay, divider⟩ := c
  unfold Config.encode at h
  split_ifs at h with hvalid
  cases h
  simp (disch := decide) only [Config.decode, Field.isSet, Field.get_put_of_disjoint,
    Field.get_putBool, Field.get_putBool_of_disjoint, Field.get_put, hdelay, hdivider,
    hlength length hvalid.1 hvalid.2]
  cases cpol <;> cases cpha <;> cases endian <;> rfl

lemma valid_decode (w : Word) : (Config.decode w).Valid := by
  have hlt : (unitLengthMinus1.get w).toNat < 32 := Field.toNat_get_lt unitLengthMinus1 w
  have hlength : (Config.decode w).unitLength.toNat = (unitLengthMinus1.get w).toNat + 1 := by
    have hone : (1#8).toNat = 1 := rfl
    rw [Config.decode, BitVec.toNat_add, BitVec.toNat_setWidth, hone]
    omega
  unfold Config.Valid
  omega

/-- Every bit of the register belongs to a field. -/
lemma mem_fields_of_lt : ∀ i < 32, ∃ f ∈ Control.format.fields, f.low ≤ i ∧ i < f.low + f.size := by
  decide

/-- A register value is what the configuration in it is encoded to: every field is taken over, and
nothing else is in it. -/
lemma encode_decode (w : Word) : (Config.decode w).encode = .ok w := by
  have hendian : (Endian.ofBig (bigEndian.isSet w) == .big) = bigEndian.isSet w := by
    cases bigEndian.isSet w <;> rfl
  have hencode : (Config.decode w).encode =
      .ok (Control.format.fields.foldl (fun w' f => f.put (f.get w) w') 0#32) := by
    refine (if_pos (valid_decode w)).trans ?_
    simp only [Config.decode, hendian, BitVec.add_sub_cancel,
      Field.setWidth_setWidth_get unitLengthMinus1 (n := 8) (by decide),
      Field.setWidth_setWidth_get clockDelay (n := 8) (by decide),
      Field.setWidth_setWidth_get Control.clockDivider (n := 16) (by decide),
      Field.putBool_isSet (f := cpol) rfl, Field.putBool_isSet (f := cpha) rfl,
      Field.putBool_isSet (f := bigEndian) rfl]
    rfl
  rw [hencode]
  refine congrArg Except.ok (BitVec.eq_of_getLsbD_eq fun i hi => ?_)
  rw [Field.getLsbD_foldl_put_get, if_pos (mem_fields_of_lt i hi)]

/-- Encoding and decoding are the two directions of one correspondence. -/
lemma encode_eq_ok_iff : c.encode = .ok w ↔ Config.decode w = c := by
  constructor
  · exact decode_of_encode
  · rintro rfl
    exact encode_decode w

/-! ### Starting a controller -/

variable {link : Link} {patience : ℕ}

/-- The registers that a start writes have no part in the queues. -/
lemma plain_of_mem (hlink : link = .spi0 ∨ link = .spi1) {o : ℕ}
    (ho : o ∈ [controlRegister, receiveRegister, idleRegister, selectRegister]) :
    link.layout.Plain o := by
  have hlayout : link.layout = .spi := by rcases hlink with rfl | rfl <;> rfl
  rw [hlayout]
  fin_cases ho <;> constructor <;> decide

/-- The board after a start. -/
def started (link : Link) (w select : Word) (receive : Bool) (b : Board) : Board :=
  (((b.poke (link.base + controlRegister) w).poke (link.base + idleRegister) selectIdle).poke
    (link.base + selectRegister) (select &&& 0xf#32)).poke (link.base + receiveRegister)
      (if receive then 1#32 else 0#32)

lemma init_board (hlink : link = .spi0 ∨ link = .spi1) (h : c.encode = .ok w) (select : Word)
    (receive : Bool) (b : Board) :
    init (link.channel (Board.platform patience)).regs c select receive b =
      .ok (.ok ()) (started link w select receive b) := by
  unfold init
  rw [h]
  refine (Proc.bind_of_ok rfl).trans ?_
  refine (Proc.bind_of_ok (link.write_plain (plain_of_mem hlink (by simp)) _ _ _)).trans ?_
  refine (Proc.bind_of_ok (link.write_plain (plain_of_mem hlink (by simp)) _ _ _)).trans ?_
  refine (Proc.bind_of_ok (link.write_plain (plain_of_mem hlink (by simp)) _ _ _)).trans ?_
  exact Proc.bind_of_ok (link.write_plain (plain_of_mem hlink (by simp)) _ _ _)

/-- Blocks of different channels have no address in common. -/
lemma base_add_ne {l link : Link} (h : l ≠ link) {o o' : ℕ} (ho : o < MemoryMap.blockSize)
    (ho' : o' < MemoryMap.blockSize) : l.base + o ≠ link.base + o' := by
  intro heq
  have hplace := congrArg Board.place heq
  rw [Board.place_channel l ho, Board.place_channel link ho'] at hplace
  exact h (Board.Place.channel.inj hplace).1

lemma and_low (v : Word) : v &&& 0xf#32 = BitVec.ofNat 32 (v.toNat % 16) := by
  apply BitVec.eq_of_toNat_eq
  have hmask : v.toNat &&& 15 = v.toNat % 16 := Nat.and_two_pow_sub_one_eq_mod v.toNat 4
  have hlt : v.toNat % 16 < 4294967296 := by omega
  rw [BitVec.toNat_and, BitVec.toNat_ofNat]
  exact hmask.trans (Nat.mod_eq_of_lt hlt).symm

/-- What a start with a configuration leaves: the controller holds it, the chip selects are the low
four of those asked for, and no queue and no register of another channel has changed. -/
structure Started (link : Link) (c : Config) (select : Word) (b b' : Board) : Prop where
  config : ∀ patience, config (link.channel (Board.platform patience)).regs b' = .ok c b'
  select : ∀ patience, (link.channel (Board.platform patience)).regs.read selectRegister b' =
    .ok (BitVec.ofNat 32 (select.toNat % 16)) b'
  queues : ∀ l, b'.queues l = b.queues l
  others : ∀ l ≠ link, ∀ o < MemoryMap.blockSize, ∀ width,
    b'.shown (l.base + o) width = b.shown (l.base + o) width

lemma started_spec (hlink : link = .spi0 ∨ link = .spi1) (w select : Word) (receive : Bool)
    (b : Board) : Started link (Config.decode w) select b (started link w select receive b) where
  config patience := by
    have hmemory : (started link w select receive b).memory (link.base + controlRegister) = w := by
      simp [started, Board.poke, controlRegister, receiveRegister, idleRegister, selectRegister]
    refine (Proc.bind_of_ok (link.read_plain (plain_of_mem hlink (by simp)) _ _)).trans ?_
    rw [hmemory]
    rfl
  select patience := by
    have hmemory : (started link w select receive b).memory (link.base + selectRegister) =
        select &&& 0xf#32 := by
      simp [started, Board.poke, receiveRegister, selectRegister]
    rw [link.read_plain (plain_of_mem hlink (by simp)), hmemory, and_low]
  queues l := by simp only [started, Board.queues_poke]
  others l hl o ho width := by
    have hne : ∀ o' ∈ [controlRegister, receiveRegister, idleRegister, selectRegister],
        l.base + o ≠ link.base + o' := fun o' ho' => base_add_ne hl ho (plain_of_mem hlink ho').lt
    unfold started
    rw [Board.shown_poke_of_ne _ (hne _ (by simp)), Board.shown_poke_of_ne _ (hne _ (by simp)),
      Board.shown_poke_of_ne _ (hne _ (by simp)), Board.shown_poke_of_ne _ (hne _ (by simp))]

/-- **Configurations and register values are the same thing.** A configuration is encoded exactly if
its units have 1 to 32 bits, and is then found again in its register value. Any other is refused,
and starting a controller with it does nothing on any platform. Every register value holds such a
configuration and is what that is encoded to. So a controller of the board that is started with a
configuration gives it back, drives the chip selects asked for, and leaves the other channels
alone. -/
theorem encode_decode_inverse :
    (∀ c : Config,
      (c.Valid → ∃ w, c.encode = .ok w ∧ Config.decode w = c) ∧
      (¬ c.Valid → c.encode = .error (.unitLength c.unitLength.toNat) ∧
        ∀ (σ : Type) (r : Registers σ) (select : Word) (receive : Bool),
          init r c select receive = pure (.error (.unitLength c.unitLength.toNat)))) ∧
    (∀ w, (Config.decode w).Valid ∧ (Config.decode w).encode = .ok w) ∧
    ∀ link, link = .spi0 ∨ link = .spi1 →
      ∀ (c : Config) (select : Word) (receive : Bool) (patience : ℕ) (b : Board), c.Valid →
        ∃ b', init (link.channel (Board.platform patience)).regs c select receive b =
          .ok (.ok ()) b' ∧ Started link c select b b' := by
  have hencode : ∀ c : Config, c.Valid → ∃ w, c.encode = .ok w := fun c h => ⟨_, if_pos h⟩
  refine ⟨fun c => ⟨fun h => ?_, fun h => ⟨encode_of_not_valid h, fun σ r select receive => ?_⟩⟩,
    fun w => ⟨valid_decode w, encode_decode w⟩, fun link hlink c select receive patience b h => ?_⟩
  · obtain ⟨w, hw⟩ := hencode c h
    exact ⟨w, hw, encode_eq_ok_iff.1 hw⟩
  · -- refused before a register is touched
    rw [init, encode_of_not_valid h]
  · obtain ⟨w, hw⟩ := hencode c h
    have hspec := started_spec hlink w select receive b
    rw [encode_eq_ok_iff.1 hw] at hspec
    exact ⟨_, init_board hlink hw select receive b, hspec⟩

/-- Every field at its greatest value. -/
def extreme : Config where
  cpol := true
  cpha := true
  endian := .big
  unitLength := 32#8
  clockDelay := 0xff#8
  clockDivider := 0xffff#16

theorem encode_decode_inverse_extreme :
    (∃ w, extreme.encode = .ok w ∧ Config.decode w = extreme) ∧
      (Config.decode 0#32).encode = .ok 0#32 ∧
      init ⟨Board.platform 0, MemoryMap.spi0⟩ { extreme with unitLength := 33#8 } 1#32 true =
        pure (.error (.unitLength 33)) ∧
      ∃ b', init (Link.spi1.channel (Board.platform 0)).regs extreme 0xf5#32 true Board.new =
        .ok (.ok ()) b' ∧ Started .spi1 extreme 0xf5#32 Board.new b' := by
  obtain ⟨hconfig, hword, hboard⟩ := encode_decode_inverse
  exact ⟨(hconfig extreme).1 (by decide), (hword 0#32).2,
    ((hconfig { extreme with unitLength := 33#8 }).2 (by decide)).2 _ _ _ _,
    hboard .spi1 (.inr rfl) extreme 0xf5#32 true 0 Board.new (by decide)⟩

end BoardSupport.Spi
