import BoardSupport.Proofs.Fields
import BoardSupport.Proofs.WideCounter

/-!
The driver of the system timer refines a timer.

On the board the registers of the timer are plain storage. Their words make up a bank: the
configuration, the count and the compare value. Seen from outside, a bank is a timer that runs or
rests, with a count, a compare value, an automatic clear and a clock divider. Every call of the
driver does to the bank what it is meant to do to the timer, and touches nothing else.
-/

namespace BoardSupport.SystemTimer

/-! ### Halves -/

@[simp] lemma high_append (h l : Word) : high (h ++ l : Count) = h := by
  unfold high
  exact BitVec.extractLsb'_append_eq_left

@[simp] lemma low_append (h l : Word) : low (h ++ l : Count) = l := by
  unfold low
  exact BitVec.extractLsb'_append_eq_right

/-! ### The registers on the board -/

/-- A register of the timer. -/
inductive Register where
  | control
  | low
  | high
  | compareLow
  | compareHigh
  deriving DecidableEq

namespace Register

def all : List Register := [control, low, high, compareLow, compareHigh]

def offset : Register → ℕ
  | control => SystemRegister.timerConfig
  | low => SystemRegister.timerLow
  | high => SystemRegister.timerHigh
  | compareLow => SystemRegister.compareLow
  | compareHigh => SystemRegister.compareHigh

def address (r : Register) : ℕ := MemoryMap.system + r.offset

/-- The register at an address. -/
def at? (a : ℕ) : Option Register := all.find? fun r => r.address == a

@[simp] lemma at?_address (r : Register) : at? r.address = some r := by cases r <;> decide

lemma eq_address {a : ℕ} {r : Register} (h : at? a = some r) : a = r.address := by
  have hfound := List.find?_some h
  exact (beq_iff_eq.1 hfound).symm

lemma offset_lt (r : Register) : r.offset < MemoryMap.blockSize := by cases r <;> decide

end Register

/-- What the registers of the timer hold. -/
structure Bank where
  control : Word
  count : Count
  compare : Count

namespace Bank

/-- The counter is enabled. -/
def running (t : Bank) : Bool := TimerControl.countEnable.isSet t.control

def read (t : Bank) : Register → Word
  | .control => t.control
  | .low => SystemTimer.low t.count
  | .high => SystemTimer.high t.count
  | .compareLow => SystemTimer.low t.compare
  | .compareHigh => SystemTimer.high t.compare

/-- The bank whose registers hold the given words. -/
def ofWords (words : Register → Word) : Bank where
  control := words .control
  count := words .high ++ words .low
  compare := words .compareHigh ++ words .compareLow

lemma read_ofWords (words : Register → Word) (r : Register) : (ofWords words).read r = words r := by
  cases r <;> simp [read, ofWords]

lemma ofWords_read (t : Bank) : ofWords t.read = t := by
  simp only [ofWords, read, high_append_low]

def write (t : Bank) (v : Word) : Register → Bank
  | .control => { t with control := v }
  | .low => { t with count := SystemTimer.high t.count ++ v }
  | .high => { t with count := v ++ SystemTimer.low t.count }
  | .compareLow => { t with compare := SystemTimer.high t.compare ++ v }
  | .compareHigh => { t with compare := v ++ SystemTimer.low t.compare }

lemma read_write (t : Bank) (v : Word) (r r' : Register) :
    (t.write v r).read r' = if r' = r then v else t.read r' := by
  cases r <;> cases r' <;> simp [read, write]

end Bank

/-- The registers of the timer, as a place in the board. -/
def bank : Cell Board Bank where
  get := fun b => .ofWords fun r => b.memory r.address
  put := fun t b => { b with memory := fun a => ((Register.at? a).map t.read).getD (b.memory a) }

lemma read_bank (b : Board) (r : Register) : (bank.get b).read r = b.memory r.address :=
  Bank.read_ofWords _ r

lemma bank_lawful : bank.Lawful where
  get_put t b := by
    have hwords : (fun r : Register => (bank.put t b).memory r.address) = t.read := by
      funext r
      simp [bank]
    exact (congrArg Bank.ofWords hwords).trans t.ofWords_read
  put_get b := by
    show { b with memory := _ } = b
    congr
    funext a
    cases h : Register.at? a with
    | none => rfl
    | some r => rw [Register.eq_address h]; exact read_bank b r
  put_put t u b := by
    show ({ b with memory := _ } : Board) = { b with memory := _ }
    congr
    funext a
    cases h : Register.at? a with
    | none => simp [bank, h]
    | some r => simp

/-- A store to a register of the timer changes the bank alone. -/
lemma poke_bank (b : Board) (r : Register) (v : Word) :
    b.poke r.address v = bank.put ((bank.get b).write v r) b := by
  show ({ b with memory := _ } : Board) = { b with memory := _ }
  congr
  funext a
  cases h : Register.at? a with
  | none =>
    -- a word that is no register of the timer
    have hne : a ≠ r.address := by
      rintro rfl
      simp at h
    simp [hne]
  | some r' =>
    obtain rfl := Register.eq_address h
    simp only [Option.map_some, Option.getD_some, Bank.read_write, read_bank]
    by_cases hr : r' = r
    · simp [hr]
    · have hne : r'.address ≠ r.address := by
        intro heq
        rw [heq, Register.at?_address] at h
        exact hr (Option.some.inj h).symm
      simp [hr, hne]

/-- Stopping a counter that runs and starting it again gives the word that was there. -/
lemma restart_stopped {t : Bank} (h : t.running = true) :
    TimerControl.countEnable.putBool true (TimerControl.countEnable.putBool false t.control) =
      t.control := by
  have hback := Field.putBool_isSet_putBool (f := TimerControl.countEnable) rfl false t.control
  rwa [show TimerControl.countEnable.isSet t.control = true from h] at hback

/-! ### The driver on the board -/

/-- The two writes of a count. -/
def writeHalves {σ : Type} (p : Platform σ) (c : Count) : Proc σ Unit := do
  (registers p).write SystemRegister.timerLow (low c)
  (registers p).write SystemRegister.timerHigh (high c)

lemma setValue_eq {σ : Type} (p : Platform σ) (c : Count) : setValue p c = (do
    if ← isRunning p then
      stop p
      writeHalves p c
      start p
    else
      writeHalves p c) := by
  unfold setValue writeHalves
  refine congrArg (isRunning p >>= ·) (funext fun running => ?_)
  cases running <;> simp

section

variable {b : Board} {t : Bank} {patience : ℕ}

lemma load_put (r : Register) :
    (bank.put t b).load r.address .word = .ok (t.read r, bank.put t b) := by
  rw [← bank_lawful.get_put t b, read_bank, bank_lawful.get_put, Register.address,
    Board.load_system _ .word r.offset_lt (by cases r <;> decide)]
  cases r <;> rfl

lemma store_put (r : Register) (v : Word) :
    (bank.put t b).store r.address .word v = bank.put (t.write v r) b := by
  have hpoke : (bank.put t b).store r.address .word v = (bank.put t b).poke r.address v := by
    unfold Board.store
    rw [Register.address, Board.place_system r.offset_lt]
    cases r <;> rfl
  rw [hpoke, poke_bank, bank_lawful.get_put, bank_lawful.put_put]

lemma read_eq {σ : Type} (p : Platform σ) (r : Register) :
    (registers p).read r.offset = p.load r.address .word :=
  Registers.read_eq _ (Controller.base_add_lt r.offset_lt)

lemma write_eq {σ : Type} (p : Platform σ) (r : Register) (v : Word) :
    (registers p).write r.offset v = p.store r.address .word v :=
  Registers.write_eq _ (Controller.base_add_lt r.offset_lt) v

lemma read_put (r : Register) :
    (registers (Board.platform patience)).read r.offset (bank.put t b) =
      .ok (t.read r) (bank.put t b) := by
  rw [read_eq]
  exact Board.platform_load_of_ok (load_put r)

lemma write_put (r : Register) (v : Word) :
    (registers (Board.platform patience)).write r.offset v (bank.put t b) =
      .ok () (bank.put (t.write v r) b) := by
  rw [write_eq, ← store_put]
  rfl

lemma isRunning_put :
    isRunning (Board.platform patience) (bank.put t b) = .ok t.running (bank.put t b) :=
  Proc.bind_of_ok (read_put .control)

lemma setRunning_put (on : Bool) :
    setRunning (Board.platform patience) on (bank.put t b) =
      .ok () (bank.put { t with control := TimerControl.countEnable.putBool on t.control } b) :=
  (Proc.bind_of_ok (read_put .control)).trans
    ((Proc.bind_of_ok rfl).trans (write_put .control _))

lemma setCompare_put (c : Count) :
    setCompare (Board.platform patience) c (bank.put t b) =
      .ok () (bank.put { t with compare := c } b) := by
  refine (Proc.bind_of_ok (write_put .compareLow (low c))).trans ?_
  refine (write_put .compareHigh (high c)).trans ?_
  simp only [Bank.write, low_append, high_append_low]

lemma init_put (autoClear : Bool) (divider : BitVec 16) (c : Count) :
    init (Board.platform patience) autoClear divider c (bank.put t b) =
      .ok () (bank.put
        { t with
          control := TimerControl.clockDivider.put (divider.setWidth 32)
            (TimerControl.autoClear.putBool autoClear t.control)
          compare := c } b) :=
  (Proc.bind_of_ok (read_put .control)).trans ((Proc.bind_of_ok rfl).trans
    ((Proc.bind_of_ok (write_put .control _)).trans (setCompare_put c)))

lemma writeHalves_put (c : Count) :
    writeHalves (Board.platform patience) c (bank.put t b) =
      .ok () (bank.put { t with count := c } b) := by
  refine (Proc.bind_of_ok (write_put .low (low c))).trans ?_
  refine (write_put .high (high c)).trans ?_
  simp only [Bank.write, low_append, high_append_low]

lemma setValue_put (c : Count) :
    setValue (Board.platform patience) c (bank.put t b) =
      .ok () (bank.put { t with count := c } b) := by
  rw [setValue_eq]
  refine (Proc.bind_of_ok isRunning_put).trans ?_
  cases hrunning : t.running with
  | false => exact writeHalves_put c
  | true =>
    -- the counter is stopped for the two stores and set going again
    refine (Proc.bind_of_ok (setRunning_put false)).trans ?_
    refine (Proc.bind_of_ok (writeHalves_put c)).trans ?_
    refine (setRunning_put true).trans ?_
    rw [restart_stopped hrunning]

lemma value_put :
    value (Board.platform patience) (bank.put t b) = .ok t.count (bank.put t b) := by
  have hsample : sample (Board.platform patience) (bank.put t b) =
      .ok (some t.count) (bank.put t b) := by
    refine (Proc.bind_of_ok (read_put .high)).trans ?_
    refine (Proc.bind_of_ok (read_put .low)).trans ?_
    refine (Proc.bind_of_ok (read_put .high)).trans ?_
    rw [if_pos rfl]
    exact congrArg (fun v => EStateM.Result.ok (some v) (bank.put t b)) (high_append_low t.count)
  unfold value Platform.iterate
  refine Platform.rounds_of_inr ?_ patience
  exact Proc.bind_of_ok hsample

end

/-! ### The timer -/

/-- A timer as its user sees it. -/
structure Timer where
  running : Bool
  count : Count
  compare : Count
  autoClear : Bool
  divider : BitVec 16
  /-- The bits of the configuration that no call is about, in their places. -/
  rest : Word

def Bank.timer (t : Bank) : Timer where
  running := t.running
  count := t.count
  compare := t.compare
  autoClear := TimerControl.autoClear.isSet t.control
  divider := (TimerControl.clockDivider.get t.control).setWidth 16
  rest := t.control &&& 0x0000fffc#32

/-- A call that changes the timer. -/
inductive Call where
  | init (autoClear : Bool) (divider : BitVec 16) (compare : Count)
  | start
  | stop
  | setCompare (compare : Count)
  | setValue (count : Count)

def Call.perform {σ : Type} (p : Platform σ) : Call → Proc σ Unit
  | .init autoClear divider compare => SystemTimer.init p autoClear divider compare
  | .start => SystemTimer.start p
  | .stop => SystemTimer.stop p
  | .setCompare compare => SystemTimer.setCompare p compare
  | .setValue count => SystemTimer.setValue p count

/-- What a call is meant to do. -/
def Timer.step (t : Timer) : Call → Timer
  | .init autoClear divider compare => { t with autoClear, divider, compare }
  | .start => { t with running := true }
  | .stop => { t with running := false }
  | .setCompare compare => { t with compare }
  | .setValue count => { t with count }

lemma timer_setRunning (t : Bank) (on : Bool) :
    Bank.timer { t with control := TimerControl.countEnable.putBool on t.control } =
      { t.timer with running := on } := by
  simp (disch := decide) only [Bank.timer, Bank.running, Field.isSet_putBool,
    Field.isSet_putBool_of_disjoint, Field.get_putBool_of_disjoint, Field.putBool_and_of_disjoint]

lemma timer_init (t : Bank) (autoClear : Bool) (divider : BitVec 16) (c : Count) :
    Bank.timer
      { t with
        control := TimerControl.clockDivider.put (divider.setWidth 32)
          (TimerControl.autoClear.putBool autoClear t.control)
        compare := c } = { t.timer with autoClear, divider, compare := c } := by
  have hdivider : (divider.setWidth 32 &&& TimerControl.clockDivider.ones).setWidth 16 = divider :=
    Field.setWidth_and_ones_setWidth TimerControl.clockDivider rfl (by decide) divider
  simp (disch := decide) only [Bank.timer, Bank.running, Field.isSet_put_of_disjoint,
    Field.get_put, Field.put_and_of_disjoint, Field.isSet_putBool, Field.isSet_putBool_of_disjoint,
    Field.putBool_and_of_disjoint, hdivider]

/-- One call of the driver is one step of the timer. -/
lemma perform_put (call : Call) (t : Bank) (b : Board) (patience : ℕ) :
    ∃ t', call.perform (Board.platform patience) (bank.put t b) = .ok () (bank.put t' b) ∧
      t'.timer = t.timer.step call := by
  cases call with
  | init autoClear divider compare =>
    exact ⟨_, init_put autoClear divider compare, timer_init t autoClear divider compare⟩
  | start => exact ⟨_, setRunning_put true, timer_setRunning t true⟩
  | stop => exact ⟨_, setRunning_put false, timer_setRunning t false⟩
  | setCompare compare => exact ⟨_, setCompare_put compare, rfl⟩
  | setValue count => exact ⟨_, setValue_put count, rfl⟩

def performAll {σ : Type} (p : Platform σ) : List Call → Proc σ Unit
  | [] => pure ()
  | call :: rest => do
    call.perform p
    performAll p rest

lemma performAll_put (calls : List Call) (t : Bank) (b : Board) (patience : ℕ) :
    ∃ t', performAll (Board.platform patience) calls (bank.put t b) = .ok () (bank.put t' b) ∧
      t'.timer = calls.foldl Timer.step t.timer := by
  induction calls generalizing t with
  | nil => exact ⟨t, rfl, rfl⟩
  | cons call rest ih =>
    obtain ⟨t₁, hcall, hstep⟩ := perform_put call t b patience
    obtain ⟨t', hrest, hrun⟩ := ih t₁
    exact ⟨t', (Proc.bind_of_ok hcall).trans hrest, by rw [hrun, hstep, List.foldl_cons]⟩

/-! ### The last call decides -/

namespace Call

/-- Whether the call starts or stops the counter. -/
def running? : Call → Option Bool
  | start => some true
  | stop => some false
  | _ => none

def count? : Call → Option Count
  | setValue count => some count
  | _ => none

def compare? : Call → Option Count
  | init _ _ compare => some compare
  | setCompare compare => some compare
  | _ => none

def autoClear? : Call → Option Bool
  | init autoClear _ _ => some autoClear
  | _ => none

def divider? : Call → Option (BitVec 16)
  | init _ divider _ => some divider
  | _ => none

end Call

/-- The value that the last of the calls to give one gave, or the one that was there before. -/
def lastGiven {α : Type} (given : Call → Option α) (calls : List Call) (before : α) : α :=
  (calls.filterMap given).getLastD before

lemma lastGiven_cons {α : Type} (given : Call → Option α) (call : Call) (calls : List Call)
    (before : α) :
    lastGiven given (call :: calls) before = lastGiven given calls ((given call).getD before) :=
  getLastD_filterMap_cons given call calls before

lemma foldl_step (calls : List Call) (t : Timer) :
    calls.foldl Timer.step t =
      { running := lastGiven Call.running? calls t.running
        count := lastGiven Call.count? calls t.count
        compare := lastGiven Call.compare? calls t.compare
        autoClear := lastGiven Call.autoClear? calls t.autoClear
        divider := lastGiven Call.divider? calls t.divider
        rest := t.rest } := by
  induction calls generalizing t with
  | nil => rfl
  | cons call rest ih =>
    simp only [List.foldl_cons, ih, lastGiven_cons]
    cases call <;> rfl

/-- **The driver is a timer.** From any contents of the registers, every sequence of calls returns.
Afterwards the counter runs as the last start or stop said, its value is the one last set, the two
compare registers hold the halves of the last compare value, and the automatic clear and the divider
are those of the last `init`; where there was no such call, they are as they were. The other bits of
the configuration are as they were, and so is all of the board but the registers of the timer. -/
theorem performAll_refines_timer (calls : List Call) (b : Board) (patience : ℕ) :
    ∃ b', performAll (Board.platform patience) calls b = .ok () b' ∧
      isRunning (Board.platform patience) b' =
        .ok (lastGiven Call.running? calls (bank.get b).running) b' ∧
      value (Board.platform patience) b' =
        .ok (lastGiven Call.count? calls (bank.get b).count) b' ∧
      (registers (Board.platform patience)).read SystemRegister.compareLow b' =
        .ok (low (lastGiven Call.compare? calls (bank.get b).compare)) b' ∧
      (registers (Board.platform patience)).read SystemRegister.compareHigh b' =
        .ok (high (lastGiven Call.compare? calls (bank.get b).compare)) b' ∧
      (∃ w, control (Board.platform patience) b' = .ok w b' ∧
        TimerControl.autoClear.isSet w =
          lastGiven Call.autoClear? calls (bank.get b).timer.autoClear ∧
        (TimerControl.clockDivider.get w).setWidth 16 =
          lastGiven Call.divider? calls (bank.get b).timer.divider ∧
        w &&& 0x0000fffc#32 = (bank.get b).control &&& 0x0000fffc#32) ∧
      ∃ t, b' = bank.put t b := by
  obtain ⟨t, hrun, htimer⟩ := performAll_put calls (bank.get b) b patience
  rw [bank_lawful.put_get] at hrun
  rw [foldl_step] at htimer
  have hrunning := congrArg Timer.running htimer
  have hcount := congrArg Timer.count htimer
  have hcompare := congrArg Timer.compare htimer
  have hclear := congrArg Timer.autoClear htimer
  have hdivider := congrArg Timer.divider htimer
  have hrest := congrArg Timer.rest htimer
  refine ⟨bank.put t b, hrun, ?_, ?_, ?_, ?_,
    ⟨t.control, read_put .control, hclear, hdivider, hrest⟩, t, rfl⟩
  · exact isRunning_put.trans (congrArg (EStateM.Result.ok · (bank.put t b)) hrunning)
  · exact value_put.trans (congrArg (EStateM.Result.ok · (bank.put t b)) hcount)
  · exact (read_put .compareLow).trans
      (congrArg (fun c => EStateM.Result.ok (low c) (bank.put t b)) hcompare)
  · exact (read_put .compareHigh).trans
      (congrArg (fun c => EStateM.Result.ok (high c) (bank.put t b)) hcompare)

end BoardSupport.SystemTimer
