import BoardSupport.Proofs.LineEncoding

/-!
Changes of the parity of the UART's line.

Parity has two fields of the register, an enable and a kind. Switching parity off clears the enable
and leaves the kind that was there, and a kind that is left over is not seen as long as parity is
off. So after any number of changes the configuration in the register is the one from before with
the last parity, while the kind is that of the last change that set one.
-/

namespace BoardSupport

namespace Board

/-- A word of plain memory, as a place in the board. -/
def wordCell (a : ℕ) : Cell Board Word := ⟨(·.memory a), fun v b => b.poke a v⟩

lemma wordCell_lawful (a : ℕ) : (wordCell a).Lawful where
  get_put v b := b.memory_poke a v
  put_get b := b.poke_memory a
  put_put v v' b := b.poke_poke a v v'

end Board

namespace Uart

open Control

variable {patience : ℕ}

/-! ### One change -/

/-- The kind that a change to the parity sets, if it sets one. -/
def Parity.kind? : Parity → Option (BitVec 2)
  | .none => .none
  | .space => some 0#2
  | .mark => some 1#2
  | .odd => some 2#2
  | .even => some 3#2

lemma putParity_eq (p : Parity) (w : Word) :
    putParity p w =
      parityEnable.putBool p.kind?.isSome
        (p.kind?.elim w fun kind => parityType.put (kind.setWidth 32) w) := by
  cases p <;> rfl

/-- The fields of the parity are the bits 7, 8 and 9. -/
lemma getLsbD_putParity {i : ℕ} (h7 : i ≠ 7) (h8 : i ≠ 8) (h9 : i ≠ 9) (p : Parity) (w : Word) :
    (putParity p w).getLsbD i = w.getLsbD i := by
  have henable : ¬ (parityEnable.low ≤ i ∧ i < parityEnable.low + parityEnable.size ∧ i < 32) := by
    simp only [parityEnable, Field.bit]
    omega
  have htype : ¬ (parityType.low ≤ i ∧ i < parityType.low + parityType.size ∧ i < 32) := by
    simp only [parityType]
    omega
  rw [putParity_eq, Field.putBool, Field.getLsbD_put, if_neg henable]
  cases p.kind? with
  | none => rfl
  | some kind => exact (Field.getLsbD_put _ _ _ _).trans (if_neg htype)

/-- The kind is in the bits 8 and 9, and a change that sets none leaves them alone. -/
lemma extractLsb'_putParity (p : Parity) (w : Word) :
    (putParity p w).extractLsb' 8 2 = p.kind?.getD (w.extractLsb' 8 2) := by
  apply BitVec.eq_of_getLsbD_eq
  intro i hi
  have henable : ¬ (parityEnable.low ≤ 8 + i ∧ 8 + i < parityEnable.low + parityEnable.size ∧
      8 + i < 32) := by
    simp only [parityEnable, Field.bit]
    omega
  rw [BitVec.getLsbD_extractLsb', putParity_eq, Field.putBool, Field.getLsbD_put, if_neg henable]
  -- without a kind the two bits stay as they are
  cases p.kind? with
  | none => simp [hi]
  | some kind =>
    have htype : parityType.low ≤ 8 + i ∧ 8 + i < parityType.low + parityType.size ∧
        8 + i < 32 := by
      simp only [parityType]
      omega
    rw [Option.elim_some, Field.getLsbD_put, if_pos htype, BitVec.getLsbD_setWidth]
    simp [parityType, hi, show i < 32 by omega]

/-- Only the parity of the configuration changes. -/
lemma decode_putParity (p : Parity) (w clock : Word) :
    Config.decode (putParity p w) clock = { Config.decode w clock with parity := p } := by
  simp (disch := decide) [Config.decode, Field.isSet, get_putParity, getParity_putParity]

/-! ### Any number of changes -/

/-- On the board a change works on the register alone. -/
lemma setParity_board (p : Parity) (b : Board) :
    setParity (Board.platform patience) p b =
      .ok () ((Board.wordCell MemoryMap.uart).put
        (putParity p ((Board.wordCell MemoryMap.uart).get b)) b) := by
  refine (Proc.bind_of_ok control_board).trans ?_
  exact (Proc.bind_of_ok rfl).trans (writeControl_board _)

/-- The register value after the changes. -/
def putParities (ps : List Parity) (w : Word) : Word := ps.foldl (fun w p => putParity p w) w

lemma forM_setParity_board (ps : List Parity) (b : Board) :
    ps.forM (setParity (Board.platform patience)) b =
      .ok () (b.poke MemoryMap.uart (putParities ps (b.memory MemoryMap.uart))) :=
  (Board.wordCell_lawful MemoryMap.uart).forM_of_update setParity_board ps b

lemma getLsbD_putParities {i : ℕ} (h7 : i ≠ 7) (h8 : i ≠ 8) (h9 : i ≠ 9) (ps : List Parity)
    (w : Word) : (putParities ps w).getLsbD i = w.getLsbD i :=
  foldl_kept (fun w : Word => w.getLsbD i) (fun w p => getLsbD_putParity h7 h8 h9 p w) ps w

lemma extractLsb'_putParities (ps : List Parity) (w : Word) :
    (putParities ps w).extractLsb' 8 2 =
      (ps.filterMap Parity.kind?).getLastD (w.extractLsb' 8 2) :=
  foldl_eq_last (fun w : Word => w.extractLsb' 8 2) (fun w p => extractLsb'_putParity p w) ps w

lemma decode_putParities (ps : List Parity) (w clock : Word) :
    Config.decode (putParities ps w) clock =
      { Config.decode w clock with parity := ps.getLastD (getParity w) } := by
  induction ps generalizing w with
  | nil => rfl
  | cons p rest ih =>
    have hrest := ih (putParity p w)
    rw [decode_putParity, getParity_putParity] at hrest
    rw [List.getLastD_cons]
    exact hrest

/-- **Changes of the parity.** Any number of changes returns, and nothing but the register differs
on the board afterwards. In the register the bits outside of 7, 8 and 9 are as they were. The
configuration is the one from before with the parity that was set last, and the kind in the bits 8
and 9 is that of the last change to set one, or the one from before. -/
theorem setParity_changes_parity (ps : List Parity) (hps : ps ≠ []) (b : Board) (patience : ℕ) :
    ∃ w w', control (Board.platform patience) b = .ok w b ∧
      ps.forM (setParity (Board.platform patience)) b = .ok () (b.poke MemoryMap.uart w') ∧
      control (Board.platform patience) (b.poke MemoryMap.uart w') =
        .ok w' (b.poke MemoryMap.uart w') ∧
      (∀ i, i ≠ 7 → i ≠ 8 → i ≠ 9 → w'.getLsbD i = w.getLsbD i) ∧
      (∀ clock, Config.decode w' clock =
        { Config.decode w clock with parity := ps.getLast hps }) ∧
      w'.extractLsb' 8 2 = (ps.filterMap Parity.kind?).getLastD (w.extractLsb' 8 2) := by
  refine ⟨b.memory MemoryMap.uart, putParities ps (b.memory MemoryMap.uart), control_board,
    forM_setParity_board ps b, ?_, fun i h7 h8 h9 => getLsbD_putParities h7 h8 h9 ps _,
    fun clock => ?_, extractLsb'_putParities ps _⟩
  · rw [control_board, Board.memory_poke]
  · rw [decode_putParities, List.getLastD_eq_getLast?, List.getLast?_eq_some_getLast hps,
      Option.getD_some]

/-- The default line goes to even, then to odd, and then off: the kind of odd is left over, and the
configuration is the default one again. -/
theorem setParity_changes_parity_leftOver :
    ∃ w', [Parity.even, .odd, .none].forM (setParity (Board.platform 0))
        (Board.new.poke MemoryMap.uart 0x0364000f#32) =
          .ok () ((Board.new.poke MemoryMap.uart 0x0364000f#32).poke MemoryMap.uart w') ∧
      w'.extractLsb' 8 2 = 2#2 ∧ w'.getLsbD 16 = (0x0364000f#32).getLsbD 16 ∧
      Config.decode w' mainClock = Config.decode 0x0364000f#32 mainClock := by
  obtain ⟨w, w', hw, hrun, -, hbits, hdecode, hkind⟩ := setParity_changes_parity
    [.even, .odd, .none] (by decide) (Board.new.poke MemoryMap.uart 0x0364000f#32) 0
  rw [control_board, Board.memory_poke] at hw
  cases hw
  exact ⟨w', hrun, hkind, hbits 16 (by decide) (by decide) (by decide), hdecode mainClock⟩

end Uart

end BoardSupport
