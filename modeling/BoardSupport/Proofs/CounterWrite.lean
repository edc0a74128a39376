import BoardSupport.Proofs.SystemTimer

/-!
Setting a counter of 64 bits through two registers of 32 while it goes on.

After every access a counter that runs may have gone on by any amount, and its low half may have run
over into the high one. A counter at rest stays where it is. A call that sets the count rests the
counter for its two writes, so it acts as one write of the whole count. What the counter went on by
before the call's last store is lost, and what it goes on by after that is counted from the new
value.
-/

namespace BoardSupport.SystemTimer

/-- Something that happens to a board with a counter. -/
inductive Moment where
  | load (address : ℕ) (w : Width) (v : Word)
  | store (address : ℕ) (w : Width) (v : Word)
  /-- The counter went on by so much. -/
  | tick (d : Count)

/-- How far the counter went on in all. -/
def elapsed (t : List Moment) : Count :=
  (t.filterMap fun
    | .tick d => some d
    | _ => none).foldr (· + ·) 0#64

/-- A board whose counter goes on by itself, and a record of all that happens. -/
structure Clocked where
  board : Board
  /-- How far the counter gets after each of the coming accesses, if it runs by then. -/
  ticks : List Count := []
  trace : List Moment := []

namespace Clocked

def saw (s : Clocked) (board : Board) (m : Moment) : Clocked :=
  { s with board, trace := s.trace ++ [m] }

/-- The time from one access to the next. The counter goes on exactly while its enable is set. -/
def pass (s : Clocked) : Clocked :=
  let t := bank.get s.board
  let d := if t.running then s.ticks.headD 0#64 else 0#64
  { s.saw (bank.put { t with count := t.count + d } s.board) (.tick d) with ticks := s.ticks.tail }

def load (address : ℕ) (w : Width) : Proc Clocked Word := fun s =>
  match s.board.load address w with
  | .ok (v, board) => .ok v (s.saw board (.load address w v))
  | .error f => .error (.fault f) s

def store (address : ℕ) (w : Width) (v : Word) : Proc Clocked Unit := fun s =>
  .ok () (s.saw (s.board.store address w v) (.store address w v))

/-- What the driver runs on: records go to `log`, and a wait lasts for `patience` rounds. -/
def platform (log : Log.Record → Proc Clocked Unit) (patience : ℕ) : Platform Clocked :=
  Platform.after { load, store, log, patience := fun _ => patience } (modify pass)

/-! ### Accesses -/

/-- From `s` to `s'` there was one access, which left the bank `t` on the board, and then the
counter went on by `d`. -/
structure Accessed (b : Board) (t : Bank) (m : Moment) (d : Count) (s s' : Clocked) : Prop where
  board : s'.board = bank.put { t with count := t.count + d } b
  trace : s'.trace = s.trace ++ [m, .tick d]
  rests : t.running = false → d = 0#64

variable {b : Board} {t : Bank} {m : Moment} {d : Count} {s s' : Clocked}
  {log : Log.Record → Proc Clocked Unit} {patience : ℕ} {E : Halt → Prop}

lemma Accessed.board_of_resting (h : Accessed b t m d s s')
    (hrest : t.running = false) : s'.board = bank.put t b := by
  rw [h.board, h.rests hrest, BitVec.add_zero]

lemma Accessed.isPrefix (h : Accessed b t m d s s') : s.trace <+: s'.trace := ⟨_, h.trace.symm⟩

lemma accessed_pass (s : Clocked) (b : Board) (t : Bank) (m : Moment) :
    ∃ d, Accessed b t m d s (s.saw (bank.put t b) m).pass := by
  refine ⟨if t.running then s.ticks.headD 0#64 else 0#64, ?_, ?_,
    fun h => by rw [h]; rfl⟩
  · simp only [pass, saw, bank_lawful.get_put, bank_lawful.put_put]
  · simp only [pass, saw, bank_lawful.get_put, List.append_assoc, List.cons_append, List.nil_append]

lemma ends_read (hs : s.board = bank.put t b) (r : Register) :
    ((registers (platform log patience)).read r.offset).Ends s (fun v s' => v = t.read r ∧
      ∃ d, Accessed b t (.load r.address .word v) d s s') E := by
  have hload : load r.address .word s =
      .ok (t.read r) (s.saw (bank.put t b) (.load r.address .word (t.read r))) := by
    unfold load
    rw [hs, load_put]
  rw [read_eq]
  show (load r.address .word >>= fun v => modify pass >>= fun _ => pure v : Proc _ _).Ends s _ E
  unfold Proc.Ends
  rw [Proc.bind_of_ok hload]
  exact ⟨rfl, accessed_pass s b t _⟩

lemma ends_write (hs : s.board = bank.put t b) (r : Register) (v : Word) :
    ((registers (platform log patience)).write r.offset v).Ends s (fun _ s' =>
      ∃ d, Accessed b (t.write v r) (.store r.address .word v) d s s') E := by
  have hstore : store r.address .word v s =
      .ok () (s.saw (bank.put (t.write v r) b) (.store r.address .word v)) := by
    unfold store
    rw [hs, store_put]
  rw [write_eq]
  show (store r.address .word v >>= fun _ => modify pass : Proc _ _).Ends s _ E
  unfold Proc.Ends
  rw [Proc.bind_of_ok hstore]
  exact accessed_pass s b (t.write v r) _

/-! ### The parts of the call -/

/-- Whether the counter runs is read first; by the end of that it may have gone on. -/
lemma ends_isRunning (hs : s.board = bank.put t b) :
    (isRunning (platform log patience)).Ends s (fun running s' =>
      running = t.running ∧
        ∃ d, Accessed b t (.load Register.control.address .word t.control) d s s') E := by
  rw [isRunning, control, Proc.ends_bind]
  refine (ends_read hs .control).imp ?_
  rintro _ s₁ ⟨rfl, d, h₁⟩
  exact (Proc.ends_pure _).2 ⟨rfl, d, h₁⟩

/-- The configuration is read and written back with the enable changed. A counter that rested before
has not gone on by the time of the store. -/
lemma ends_setRunning (hs : s.board = bank.put t b) (on : Bool) :
    (setRunning (platform log patience) on).Ends s (fun _ s' => ∃ c d s₁, s.trace <+: s₁.trace ∧
      (t.running = false → c = t.count) ∧
      Accessed b { t with control := TimerControl.countEnable.putBool on t.control, count := c }
        (.store Register.control.address .word (TimerControl.countEnable.putBool on t.control))
        d s₁ s') E := by
  rw [setRunning, Registers.modify, Proc.ends_bind]
  refine (ends_read hs .control).imp ?_
  rintro _ s₁ ⟨rfl, d₁, h₁⟩
  rw [Proc.ends_bind, Proc.ends_pure]
  refine (ends_write h₁.board .control _).imp ?_
  rintro _ s₂ ⟨d₂, h₂⟩
  refine ⟨t.count + d₁, d₂, s₁, h₁.isPrefix, fun hrest => ?_, h₂⟩
  rw [h₁.rests hrest, BitVec.add_zero]

/-- While the counter rests, the two writes make up the count. -/
lemma ends_writeHalves (hs : s.board = bank.put t b) (hrest : t.running = false) (c : Count) :
    (writeHalves (platform log patience) c).Ends s (fun _ s' =>
      s.trace <+: s'.trace ∧ s'.board = bank.put { t with count := c } b) E := by
  rw [writeHalves, Proc.ends_bind]
  refine (ends_write hs .low (low c)).imp ?_
  rintro _ s₁ ⟨d₁, h₁⟩
  refine (ends_write (h₁.board_of_resting hrest) .high (high c)).imp ?_
  rintro _ s₂ ⟨d₂, h₂⟩
  refine ⟨h₁.isPrefix.trans h₂.isPrefix, ?_⟩
  rw [h₂.board_of_resting hrest]
  simp only [Bank.write, low_append, high_append_low]

/-! ### The call -/

lemma ends_setValue_resting (hs : s.board = bank.put t b) (hrest : t.running = false) (c : Count) :
    (setValue (platform log patience) c).Ends s (fun _ s' =>
      s.trace <+: s'.trace ∧ s'.board = bank.put { t with count := c } b) E := by
  rw [setValue_eq, Proc.ends_bind]
  refine (ends_isRunning hs).imp ?_
  rintro _ s₁ ⟨rfl, d₁, h₁⟩
  rw [hrest]
  refine (ends_writeHalves (h₁.board_of_resting hrest) hrest c).imp ?_
  rintro _ s' ⟨htrace, hboard⟩
  exact ⟨h₁.isPrefix.trans htrace, hboard⟩

lemma ends_setValue_running (hs : s.board = bank.put t b) (hrun : t.running = true) (c : Count) :
    (setValue (platform log patience) c).Ends s (fun _ s' => ∃ d s₁, s.trace <+: s₁.trace ∧
      Accessed b { t with count := c } (.store Register.control.address .word t.control) d s₁ s')
      E := by
  have hstopped : ∀ c', Bank.running
      { t with control := TimerControl.countEnable.putBool false t.control, count := c' } = false :=
    fun _ => Field.isSet_putBool (by decide) rfl false t.control
  rw [setValue_eq, Proc.ends_bind]
  refine (ends_isRunning hs).imp ?_
  rintro _ s₁ ⟨rfl, d₁, h₁⟩
  rw [hrun, if_pos rfl, Proc.ends_bind]
  -- from the store that stops the counter to the one that starts it, the count is what was written
  refine (ends_setRunning h₁.board false).imp ?_
  rintro _ s₃ ⟨c₃, d₃, s₂, h₂, -, h₃⟩
  rw [Proc.ends_bind]
  refine (ends_writeHalves (h₃.board_of_resting (hstopped c₃)) (hstopped c₃) c).imp ?_
  rintro _ s₄ ⟨h₄, hboard⟩
  refine (ends_setRunning hboard true).imp ?_
  rintro _ s' ⟨c', d, s₅, h₅, hc', h'⟩
  simp only [restart_stopped hrun, hc' (hstopped c)] at h'
  exact ⟨d, s₅, h₁.isPrefix.trans (h₂.trans (h₃.isPrefix.trans (h₄.trans h₅))), h'⟩

/-- **Setting is atomic.** Whatever the counter does between the accesses, the call returns and the
configuration is what it was. A counter that rested has the new value. For a counter that ran, the
last access is the store that starts it again, and it has the new value and what it went on by since
that store. All else on the board is as it was. -/
theorem setValue_atomic (log : Log.Record → Proc Clocked Unit) (patience : ℕ) (c : Count)
    (s : Clocked) :
    ∃ s' m, setValue (platform log patience) c s = .ok () s' ∧ s'.trace = s.trace ++ m ∧
      (bank.get s'.board).control = (bank.get s.board).control ∧
      ((bank.get s.board).running = false →
        s'.board = bank.put { bank.get s.board with count := c } s.board) ∧
      ((bank.get s.board).running = true → ∃ before after,
        m = before ++ .store Register.control.address .word (bank.get s.board).control :: after ∧
        (∀ x ∈ after, ∃ d, x = .tick d) ∧
        s'.board = bank.put { bank.get s.board with count := c + elapsed after } s.board) := by
  have hs : s.board = bank.put (bank.get s.board) s.board := (bank_lawful.put_get _).symm
  cases hrunning : (bank.get s.board).running with
  | false =>
    -- a counter at rest takes the two halves one after the other
    obtain ⟨_, s', hrun, ⟨m, hm⟩, hboard⟩ := (ends_setValue_resting hs hrunning c).returns
    exact ⟨s', m, hrun, hm.symm, by rw [hboard, bank_lawful.get_put], fun _ => hboard, nofun⟩
  | true =>
    -- it is held while the halves are stored and counts on from there
    obtain ⟨_, s', hrun, d, s₁, ⟨m, hm⟩, h⟩ := (ends_setValue_running hs hrunning c).returns
    refine ⟨s', _, hrun, by rw [h.trace, ← hm, List.append_assoc], ?_, nofun, fun _ => ?_⟩
    · rw [h.board, bank_lawful.get_put]
    · refine ⟨m, [.tick d], rfl, fun x hx => ⟨d, List.mem_singleton.1 hx⟩, ?_⟩
      rw [h.board]
      simp [elapsed]

/-- The low half is about to run over, and goes on by five after every access. -/
def carrying : Clocked where
  board := bank.put ⟨1#32, 0x4fffffffe#64, 0#64⟩ {}
  ticks := List.replicate 8 5#64

theorem setValue_atomic_carrying :
    (bank.get carrying.board).running = true ∧ ∃ s' before after,
      setValue (platform (fun _ => pure ()) 0) 0x1fffffffe#64 carrying = .ok () s' ∧
      s'.trace = before ++ .store Register.control.address .word 1#32 :: after ∧
      (∀ x ∈ after, ∃ d, x = .tick d) ∧
      s'.board = bank.put ⟨1#32, 0x1fffffffe#64 + elapsed after, 0#64⟩ carrying.board := by
  have hbank : bank.get carrying.board = ⟨1#32, 0x4fffffffe#64, 0#64⟩ := bank_lawful.get_put _ _
  have hrunning : (bank.get carrying.board).running = true := by rw [hbank]; rfl
  obtain ⟨s', m, hrun, htrace, -, -, hran⟩ :=
    setValue_atomic (fun _ => pure ()) 0 0x1fffffffe#64 carrying
  obtain ⟨before, after, rfl, hafter, hboard⟩ := hran hrunning
  rw [hbank] at htrace hboard
  exact ⟨hrunning, s', before, after, hrun, htrace, hafter, hboard⟩

end Clocked

end BoardSupport.SystemTimer
