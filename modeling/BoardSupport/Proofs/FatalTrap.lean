import BoardSupport.Bench.Machine
import BoardSupport.Proofs.LogQueue
import BoardSupport.Proofs.Station

/-!
What a fatal trap leaves on the console.

The diagnostic of an exception goes through the log ring like any other record, and the program ends
without a flush. So it reaches the console if the sink is free and what waits before it is published
and short enough. A trap that breaks in on a drain, or on a record that is being written, ends the
program with the diagnostic still in the ring.
-/

namespace BoardSupport

/-! ### Lengths of texts -/

namespace Text

lemma byteArray_toList (bytes : ByteArray) : bytes.toList = bytes.data.toList := by
  have hloop : ∀ (n i : ℕ) (r : List UInt8), bytes.size - i = n →
      ByteArray.toList.loop bytes i r = r.reverse ++ bytes.data.toList.drop i := by
    intro n
    induction n with
    | zero =>
      intro i r hn
      have hi : ¬ i < bytes.size := by omega
      have hend : bytes.data.toList.length ≤ i := Nat.not_lt.1 hi
      rw [ByteArray.toList.loop.eq_def, if_neg hi, List.drop_eq_nil_of_le hend, List.append_nil]
    | succ n ih =>
      intro i r hn
      have hi : i < bytes.size := by omega
      have hlt : i < bytes.data.toList.length := hi
      have hget : bytes.get! i = bytes.data.toList[i] := getElem!_pos bytes.data i hi
      rw [ByteArray.toList.loop.eq_def, if_pos hi, ih _ _ (by omega), hget,
        List.drop_eq_getElem_cons hlt, List.reverse_cons, List.append_assoc]
      rfl
  exact hloop _ 0 [] rfl

lemma utf8_append (a b : String) : utf8 (a ++ b) = utf8 a ++ utf8 b := by
  simp only [utf8, byteArray_toList, String.toUTF8_eq_toByteArray, String.toByteArray_append,
    ByteArray.toList_data_append]

end Text

/-- The path, the line and the message are what makes records of one level and stamp differ in
length. -/
lemma Log.length_recordText (level : Level) (stamp : Stamp) : ∃ n, ∀ path line message,
    (recordText level (some path) (some line) [message] stamp).length = n +
      ((Text.utf8 path).length + (Text.utf8 (Text.decimal line)).length +
        (Text.utf8 message).length) := by
  obtain ⟨front, hfront⟩ : ∃ front, ∀ path line, heading level (some path) (some line) stamp =
      front ++ [path, "@", Text.decimal line, "| "] :=
    ⟨["\x1b[", level.color, "m", level.name] ++ Text.padding 5 level.name ++
      ["\x1b[0m [", Text.decimal stamp.hart, ":"] ++ Text.padding 10 (Text.decimal stamp.ticks) ++
      [Text.decimal stamp.ticks, "] "], fun path line => by simp [heading]⟩
  refine ⟨(front.flatMap Text.utf8).length + (Text.utf8 "@").length + (Text.utf8 "| ").length +
    (Text.utf8 "\n").length, fun path line message => ?_⟩
  rw [recordText, hfront]
  simp only [List.flatMap_append, List.flatMap_cons, List.flatMap_nil, List.length_append,
    List.length_nil]
  omega

namespace Trap.Fatal

/-- The record of the dispatcher. -/
def diagnostic (f : Fatal) (stamp : Log.Stamp) : List UInt8 :=
  Log.recordText .error (some Trap.path) (some 161)
    [f.cause.text ++ " at 0x" ++ Text.hex f.address] stamp

/-- The record of the trap's entry, which follows. -/
def report (f : Fatal) (stamp : Log.Stamp) : List UInt8 :=
  Log.recordText .error (some Program.Host.handlersPath) (some 21) [f.message] stamp

lemma length_report (f : Fatal) (stamp : Log.Stamp) :
    (f.report stamp).length = (f.diagnostic stamp).length + 20 := by
  obtain ⟨n, hn⟩ := Log.length_recordText .error stamp
  have hpath : (Text.utf8 Trap.path).length = (Text.utf8 Program.Host.handlersPath).length + 1 := by
    decide +kernel
  have hline : (Text.utf8 (Text.decimal 161)).length =
      (Text.utf8 (Text.decimal 21)).length + 1 := by decide +kernel
  have hmessage : (Text.utf8 f.message).length =
      (Text.utf8 (f.cause.text ++ " at 0x" ++ Text.hex f.address)).length + 22 := by
    have hassoc : ∀ a b c d : String, a ++ b ++ c ++ d = a ++ (b ++ c ++ d) := by
      intro a b c d
      simp only [String.append_assoc]
    have hsplit : f.message =
        "synchronous exception " ++ (f.cause.text ++ " at 0x" ++ Text.hex f.address) :=
      hassoc _ _ _ _
    have hfirst : (Text.utf8 "synchronous exception ").length = 22 := by decide +kernel
    rw [hsplit, Text.utf8_append, List.length_append, hfirst, Nat.add_comm]
  rw [report, diagnostic, hn, hn, hpath, hline, hmessage]
  ring

lemma length_pieces_report (f : Fatal) (stamp : Log.Stamp) :
    (Log.pieces (f.report stamp)).length ≤ (Log.pieces (f.diagnostic stamp)).length + 1 := by
  have hlen := f.length_report stamp
  simp only [Log.pieces, List.length_map, List.length_range, Log.slotLength]
  omega

end Trap.Fatal

/-! ### Chunks that come out -/

namespace Log.Ring

variable {N t lost : ℕ} {l : List (Option (List UInt8))} {α : Type}

lemma published_append (w : List α) (l : List (Option α)) :
    published (w.map some ++ l) = w ++ published l := by
  induction w with
  | nil => rfl
  | cons a w ih => rw [List.map_cons, List.cons_append, published, ih, List.cons_append]

/-- A chunk that is not published holds back all after it. -/
lemma published_append_of_mem {l : List (Option α)} (h : none ∈ l) (l' : List (Option α)) :
    published (l ++ l') = published l := by
  induction l with
  | nil => cases h
  | cons a l ih =>
    cases a with
    | none => rfl
    | some a =>
      rw [List.cons_append, published, published, ih (by simpa using h)]

lemma published_isPrefix (l l' : List (Option α)) : published l <+: published (l ++ l') := by
  induction l with
  | nil => exact List.nil_prefix
  | cons a l ih =>
    cases a with
    | none => exact List.nil_prefix
    | some a => exact (List.prefix_cons_inj a).2 ih

lemma eq_map_published {l : List (Option α)} (h : none ∉ l) : l = (published l).map some := by
  induction l with
  | nil => rfl
  | cons a l ih =>
    cases a with
    | none => simp at h
    | some a => rw [published, List.map_cons, ← ih (by simpa using h)]

lemma mem_of_mem_published {l : List (Option α)} {a : α} (h : a ∈ published l) : some a ∈ l := by
  induction l with
  | nil => cases h
  | cons b l ih =>
    cases b with
    | none => cases h
    | some b =>
      rcases List.mem_cons.1 h with rfl | h
      · exact List.mem_cons_self
      · exact List.mem_cons_of_mem _ (ih h)

/-- With a chunk that is not published, or with `m` of them waiting, nothing of what is appended is
among the first `m` to come out. -/
lemma some_mem_of_mem_take {l : List (Option α)} {m n : ℕ} (h : none ∈ l ∨ m ≤ l.length)
    (hn : n ≤ m) {more : List α} {a : α} (ha : a ∈ (published (l ++ more.map some)).take n) :
    some a ∈ l := by
  by_cases hnone : none ∈ l
  · rw [published_append_of_mem hnone] at ha
    exact mem_of_mem_published (List.mem_of_mem_take ha)
  · have hlen := h.resolve_left hnone
    rw [eq_map_published hnone] at ha hlen ⊢
    rw [List.length_map] at hlen
    rw [published_append, published_map_some, List.take_append_of_le_length (hn.trans hlen)] at ha
    exact List.mem_map_of_mem (List.mem_of_mem_take ha)

lemma published_drop_of_le {l : List (Option α)} {j : ℕ} (h : j ≤ (published l).length) :
    published (l.drop j) = (published l).drop j := by
  induction j generalizing l with
  | zero => rfl
  | succ j ih =>
    match l with
    | [] => rfl
    | none :: l => simp [published] at h
    | some a :: l =>
      rw [published, List.drop_succ_cons, List.drop_succ_cons]
      exact ih (by simpa [published] using h)

/-- What comes out when the texts are logged one after the other while the sink is free. -/
def told (N : ℕ) : ℕ → List (Option (List UInt8)) → ℕ → List (List UInt8) → List (List UInt8)
  | _, _, _, [] => []
  | t, l, lost, text :: rest =>
    let out := (published ((entered N t l text).drop t)).take (N / 3)
    notice (lost + shortfall N t l text) ++ out ++
      told N (t + out.length) (entered N t l text) 0 rest

lemma length_entered_le_add (h : t ≤ l.length) (text : List UInt8) :
    (entered N t l text).length ≤ l.length + N := by
  rw [entered, List.length_append, List.length_map, List.length_take]
  omega

lemma drop_entered (h : t ≤ l.length) (text : List UInt8) :
    (entered N t l text).drop t =
      l.drop t ++ ((pieces text).take (t + N - l.length)).map some :=
  List.drop_append_of_le_length h

/-- The second of two texts, from where the drain after the first one stopped. -/
lemma drop_entered_entered (h : t ≤ l.length) (k : ℕ) (text text' : List UInt8) :
    (entered N (t + k) (entered N t l text) text').drop (t + k) =
      (l.drop t ++ ((pieces text).take (t + N - l.length) ++
        (pieces text').take (t + k + N - (entered N t l text).length)).map some).drop k := by
  rw [entered, ← List.drop_drop]
  nth_rewrite 1 [entered]
  rw [List.append_assoc, ← List.map_append, List.drop_append_of_le_length h]

lemma eq_of_mem_notice {n : ℕ} {chunk : List UInt8} (h : chunk ∈ notice n) :
    chunk = Text.utf8 lostNotice := by
  unfold notice at h
  split at h
  · exact List.mem_singleton.1 h
  · cases h

/-- With a chunk in front that is not published, or with as many waiting as two drains take, nothing
of two records comes out. -/
lemma mem_told {text text' : List UInt8} (h : t ≤ l.length)
    (hheld : none ∈ l.drop t ∨ 2 * (N / 3) ≤ l.length - t) {chunk : List UInt8}
    (hmem : chunk ∈ told N t l lost [text, text']) :
    chunk = Text.utf8 lostNotice ∨ some chunk ∈ l.drop t := by
  rw [← List.length_drop] at hheld
  simp only [told, List.append_nil, List.mem_append, drop_entered h, drop_entered_entered h] at hmem
  generalize (pieces text).take (t + N - l.length) = new at hmem
  generalize hout : (published (l.drop t ++ new.map some)).take (N / 3) = out at hmem
  generalize (pieces text').take (t + out.length + N - (entered N t l text).length) = new' at hmem
  have hk : out.length ≤ N / 3 := by
    rw [← hout]
    exact List.length_take_le _ _
  rcases hmem with (hmem | hmem) | hmem | hmem
  · exact .inl (eq_of_mem_notice hmem)
  · rw [← hout] at hmem
    exact .inr (some_mem_of_mem_take hheld (by omega) hmem)
  · exact .inl (eq_of_mem_notice hmem)
  · -- the second drain goes on where the first one stopped
    have hlen : out.length ≤ (published (l.drop t ++ (new ++ new').map some)).length := by
      rw [List.map_append, ← List.append_assoc, ← hout]
      exact (List.length_take_le' _ _).trans (published_isPrefix _ _).length_le
    rw [published_drop_of_le hlen, List.take_drop] at hmem
    exact .inr (some_mem_of_mem_take hheld (by omega) (List.mem_of_mem_drop hmem))

/-- With all that waits published and two drains long enough, the first of two records comes out
whole, as long as the second is not much longer. -/
lemma infix_told {text text' : List UInt8} (hN : 3 * (N / 3) < N) (h : t ≤ l.length)
    (hall : none ∉ l.drop t) (hfits : l.length - t + (pieces text).length ≤ 2 * (N / 3))
    (hnext : (pieces text').length ≤ (pieces text).length + 1) :
    text <:+: (told N t l lost [text, text']).flatten := by
  obtain ⟨w, hw⟩ : ∃ w : List (List UInt8), l.drop t = w.map some := ⟨_, eq_map_published hall⟩
  have hlen : l.length - t = w.length := by
    rw [← List.length_drop, hw, List.length_map]
  have hwhole : (pieces text).take (t + N - l.length) = pieces text :=
    List.take_of_length_le (by omega)
  simp only [told, List.append_nil, drop_entered h, drop_entered_entered h, hwhole, hw,
    ← List.map_append, published_map_some]
  generalize hout : (w ++ pieces text).take (N / 3) = out
  have houtlen : out.length = min (N / 3) (w.length + (pieces text).length) := by
    rw [← hout, List.length_take, List.length_append]
  -- the second record finds a place, so no notice comes in between
  have hentered : (entered N t l text).length = l.length + (pieces text).length := by
    rw [entered, hwhole, List.length_append, List.length_map]
  have hnone : notice (0 + shortfall N (t + out.length) (entered N t l text) text') = [] := by
    rw [shortfall, if_neg (by omega)]
    rfl
  have hsplit : w ++ pieces text = out ++ (w ++ pieces text).drop out.length :=
    List.prefix_append_drop (hout ▸ List.take_prefix _ _)
  have hle : out.length ≤ (w ++ pieces text).length := by
    rw [hsplit, List.length_append]
    exact Nat.le_add_right _ _
  have hrest : ((w ++ pieces text).drop out.length).length ≤ N / 3 := by
    rw [List.length_drop, List.length_append]
    omega
  rw [hnone, List.nil_append, ← List.map_drop, published_map_some, ← List.append_assoc w,
    List.drop_append_of_le_length hle, List.take_append, List.take_of_length_le hrest,
    ← List.append_assoc, List.append_assoc (notice _), ← hsplit, List.flatten_append,
    List.flatten_append, List.flatten_append, flatten_pieces, ← List.append_assoc]
  exact ⟨_, _, rfl⟩

end Log.Ring

/-! ### Accesses of the station -/

lemma Console.writeByte_eq {σ : Type} (p : Platform σ) (b : UInt8) :
    (Console.registers p).writeByte SystemRegister.scratch b =
      p.store (MemoryMap.system + SystemRegister.scratch) .byte (b.toBitVec.setWidth 32) := by
  have haddress : (Console.registers p).base + SystemRegister.scratch < addressLimit :=
    Controller.base_add_lt (by decide)
  unfold Registers.writeByte Registers.address
  rw [if_pos haddress, pure_bind]
  rfl

namespace Station

variable {η τ : Type} {s s' s'' : Station η τ}

/-- From `s` to `s'` neither the memory of the board nor its console nor the rest has changed. -/
structure Beside (s s' : Station η τ) : Prop where
  memory : s'.board.memory = s.board.memory
  console : s'.board.console = s.board.console
  rest : s'.rest = s.rest

lemma Beside.trans (h : Beside s s') (h' : Beside s' s'') : Beside s s'' :=
  ⟨h'.memory.trans h.memory, h'.console.trans h.console, h'.rest.trans h.rest⟩

instance : IsPreorder (Station η τ) Beside where
  refl _ := ⟨rfl, rfl, rfl⟩
  trans _ _ _ := Beside.trans

lemma setQueues_memory (b : Board) (q : Queues) (link : Link) :
    (b.setQueues q link).memory = b.memory ∧ (b.setQueues q link).console = b.console := by
  cases link <;> exact ⟨rfl, rfl⟩

lemma act_beside (s : Station η τ) (o : Outside) : Beside s (s.act o) := by
  cases o with
  | send link unit => exact ⟨(setQueues_memory ..).1, (setQueues_memory ..).2, rfl⟩
  | take link n => exact ⟨(setQueues_memory ..).1, (setQueues_memory ..).2, rfl⟩
  | rewire link wire => exact ⟨(setQueues_memory ..).1, (setQueues_memory ..).2, rfl⟩
  | request id =>
    rw [act_request]
    exact ⟨rfl, rfl, rfl⟩

lemma meanwhile_beside (s : Station η τ) : Beside s s.meanwhile :=
  meanwhile_of_act act_beside (fun _ => ⟨rfl, rfl, rfl⟩) s

variable {log : Log.Record → Proc (Station η τ) Unit} {patience : ℕ} {E : Halt → Prop}

/-- The count of the timer, which no one changes. -/
def count (memory : ℕ → Word) : SystemTimer.Count :=
  memory (MemoryMap.system + SystemRegister.timerHigh) ++
    memory (MemoryMap.system + SystemRegister.timerLow)

lemma ends_timerHalf {o : ℕ} (ho : o = SystemRegister.timerHigh ∨ o = SystemRegister.timerLow) :
    ((SystemTimer.registers (platform log patience)).read o).Ends s
      (fun v s' => v = s.board.memory (MemoryMap.system + o) ∧ Beside s s') E := by
  have hlt : o < MemoryMap.blockSize := by rcases ho with rfl | rfl <;> decide
  have hread : ∀ b : Board, b.arbiter.read? b.sourcePending o = none := by
    intro b
    rcases ho with rfl | rfl <;> rfl
  have hclaim : o ≠ SystemRegister.claim := by rcases ho with rfl | rfl <;> decide
  have hload : (SystemTimer.registers (platform log patience)).read o =
      (platform log patience).load (MemoryMap.system + o) .word :=
    Registers.read_eq _ (Controller.base_add_lt hlt)
  rw [hload, ends_load, Board.load_system _ _ hlt hclaim, hread]
  refine ⟨?_, (meanwhile_beside s).trans ⟨rfl, rfl, rfl⟩⟩
  rw [Option.getD_none, Width.cut_word, (meanwhile_beside s).memory]

/-- The first reading of the timer is never torn. -/
lemma ends_value :
    (SystemTimer.value (platform log patience)).Ends s
      (fun c s' => c = count s.board.memory ∧ Beside s s') E := by
  unfold SystemTimer.value
  rw [Proc.ends_iterate, Platform.rounds]
  simp only [SystemTimer.sample, Proc.ends_bind]
  refine (ends_timerHalf (.inl rfl)).imp ?_
  rintro _ s₁ ⟨rfl, h₁⟩
  refine (ends_timerHalf (.inr rfl)).imp ?_
  rintro _ s₂ ⟨rfl, h₂⟩
  refine (ends_timerHalf (.inl rfl)).imp ?_
  rintro _ s₃ ⟨rfl, h₃⟩
  rw [h₂.memory, h₁.memory, if_pos rfl]
  simp only [Proc.ends_pure]
  exact ⟨rfl, (h₁.trans h₂).trans h₃⟩

/-- A byte to the scratch register is a character of the console. -/
lemma store_character (board : Board) (b : UInt8) :
    board.store (MemoryMap.system + SystemRegister.scratch) .byte (b.toBitVec.setWidth 32) =
      { board with console := board.console.push b } := by
  have hbyte : UInt8.ofNat (Width.byte.cut (b.toBitVec.setWidth 32)).toNat = b := by
    have hmask : b &&& 255 = b := UInt8.toBitVec_inj.1 BitVec.and_allOnes
    simpa [Width.cut] using hmask
  unfold Board.store
  rw [Board.place_system (by decide)]
  show { board with console := board.console.push (UInt8.ofNat _) } = _
  rw [hbyte]

lemma ends_writeBytes (bytes : List UInt8) :
    (Console.writeBytes (platform log patience) bytes).Ends s (fun _ s' =>
      s'.board.console.toList = s.board.console.toList ++ bytes ∧
        s'.board.memory = s.board.memory ∧ s'.rest = s.rest) E := by
  induction bytes generalizing s with
  | nil =>
    rw [Console.writeBytes, Proc.ends_pure]
    exact ⟨(List.append_nil _).symm, rfl, rfl⟩
  | cons b bytes ih =>
    rw [Console.writeBytes, Proc.ends_bind, Console.writeByte_eq, ends_store]
    refine ih.imp ?_
    rintro _ s' ⟨hconsole, hmemory, hrest⟩
    have hbyte : s.meanwhile.board.store (MemoryMap.system + SystemRegister.scratch) .byte
        (b.toBitVec.setWidth 32) =
        { s.meanwhile.board with console := s.meanwhile.board.console.push b } :=
      store_character _ b
    have hm := meanwhile_beside s
    rw [saw_board, hbyte] at hconsole hmemory
    refine ⟨?_, hmemory.trans hm.memory, hrest.trans hm.rest⟩
    rw [hconsole, Array.toList_push, hm.console, List.append_assoc]
    rfl

/-! ### The program on a station -/

open Program Log

variable (core : Core (Station η State)) (pause : Proc (Station η State) Unit)
  (custom : ℕ → Word → Proc (Station η State) Unit) (hart patience : ℕ)

def host : Host (Station η State) where
  bus := platform (fun _ => pure ()) patience
  core
  pause
  hart
  state := ⟨rest, fun state s => { s with rest := state }⟩
  custom

lemma host_platform : (host core pause custom hart patience).platform =
    platform (host core pause custom hart patience).log patience := rfl

/-- What the logger leaves alone. -/
def aside (s : Station η State) : (ℕ → Word) × State :=
  (s.board.memory, { s.rest with ring := none })

def console (s : Station η State) : List UInt8 := s.board.console.toList

def clock (hart : ℕ) (g : (ℕ → Word) × State) : Stamp := ⟨hart, (count g.1).toNat⟩

lemma host_undisturbed : (host core pause custom hart patience).logger.Undisturbed console aside
    (clock hart) id where
  get_put _ _ := rfl
  out_put _ _ := rfl
  aside_put _ _ := rfl
  stamp s := by
    show (SystemTimer.value (platform (fun _ => pure ()) patience) >>= fun c =>
      pure (⟨hart, c.toNat⟩ : Stamp) : Proc (Station η State) Stamp).Ends s _ _
    rw [Proc.ends_bind]
    refine ends_value.imp ?_
    rintro _ s' ⟨rfl, hbeside⟩
    rw [Proc.ends_pure]
    refine ⟨rfl, ?_, congrArg Array.toList hbeside.console, ?_⟩
    · show s'.rest.ring.getD (.new 0) = s.rest.ring.getD (.new 0)
      rw [hbeside.rest]
    · rw [aside, aside, hbeside.memory, hbeside.rest]
  accept chunk s := by
    refine (ends_writeBytes chunk).imp ?_
    rintro _ s' ⟨hconsole, hmemory, hrest⟩
    refine ⟨?_, hconsole, ?_⟩
    · show s'.rest.ring.getD (.new 0) = s.rest.ring.getD (.new 0)
      rw [hrest]
    · rw [aside, aside, hmemory, hrest]
  interrupt := rfl

/-- How the program's ring stands and what is on the console. -/
abbrev Logs (t : ℕ) (l : List (Option (List UInt8))) (lost : ℕ) (d : Bool) (o : List UInt8)
    (g : (ℕ → Word) × State) (s : Station η State) : Prop :=
  (host core pause custom hart patience).logger.Standing console aside ringSize t l lost d o g s

end Station

namespace Program.Host

variable {σ : Type} (h : Host σ) {s : σ} {E : Halt → Prop}

lemma ends_log_iff {r : Log.Record} {Q : Unit → σ → Prop} (hbus : h.bus.log r = pure ())
    (hfilter : (h.state.get s).filter.admits r.level = true)
    (hring : (h.state.get s).ring.isSome = true) :
    (h.log r).Ends s Q E ↔ (h.logger.log (.ofRecord r)).Ends s Q E := by
  rw [Host.log, hbus, pure_bind, Proc.ends_bind, Cell.ends_read, hfilter, hring]
  rfl

end Program.Host

namespace Trap

variable {σ : Type}

/-- An exception ends the dispatcher and is put on record, and so is every trap after it. -/
lemma stops_dispatch {p : Platform σ} {phase : Cell σ Phase} {handle : Class → Proc σ Unit}
    {cause : Cause} {address : ℕ} {s : σ} {Q : Except Fatal ℕ → σ → Prop} {H : Halt → σ → Prop}
    (h : cause.isInterrupt = false ∨ phase.get s = .terminating) :
    (dispatch p phase handle cause address).Stops s Q H ↔
      (p.error path 161 (cause.text ++ " at 0x" ++ Text.hex address)).Stops
        (phase.put .terminating s) (fun _ s' => Q (.error ⟨cause, address⟩) s') H := by
  have hfatal : (!cause.isInterrupt || phase.get s == .terminating) = true := by
    rcases h with h | h <;> simp [h]
  rw [dispatch, Proc.stops_bind, Cell.stops_read, if_pos hfatal, Proc.stops_bind, Cell.stops_write,
    Proc.stops_bind]
  simp only [Proc.stops_pure]

end Trap

namespace Station

open Program Log

variable {η : Type} {core : Core (Station η State)} {pause : Proc (Station η State) Unit}
  {custom : ℕ → Word → Proc (Station η State) Unit} {hart patience : ℕ} {s : Station η State}
  {t lost line : ℕ} {l : List (Option (List UInt8))} {d : Bool} {o : List UInt8}
  {g : (ℕ → Word) × State} {path message : String} {E : Halt → Prop}

/-- A record of the program is one of its logger. -/
lemma ends_error_iff (hs : Logs core pause custom hart patience t l lost d o g s)
    (hfilter : g.2.filter = some .debug) {Q : Unit → Station η State → Prop} :
    ((host core pause custom hart patience).platform.error path line message).Ends s Q E ↔
      ((host core pause custom hart patience).logger.log
        (.plain .error (some path) (some line) [message])).Ends s Q E := by
  have hadmits : s.rest.filter.admits .error = true := by
    have hsame : s.rest.filter = g.2.filter := congrArg (fun g => g.2.filter) hs.aside
    rw [hsame, hfilter]
    rfl
  have hsome : s.rest.ring.isSome = true := by
    have hsize : (s.rest.ring.getD (.new 0)).size = ringSize := hs.ring.size
    cases hring : s.rest.ring with
    | none =>
      rw [hring] at hsize
      cases hsize
    | some r => rfl
  exact Host.ends_log_iff _ rfl hadmits hsome

/-- The last line, and the end. -/
lemma stops_exit (hs : Logs core pause custom hart patience t l lost d o g s) (code : ℕ)
    {α : Type} {Q : α → Station η State → Prop} :
    (do Console.writeText (host core pause custom hart patience).platform "trap\n"
        throw (.exit code) : Proc (Station η State) α).Stops s Q
      fun e s' => e = .exit code ∧ console s' = o ++ Text.utf8 "trap\n" := by
  rw [Proc.stops_bind, host_platform, Console.writeText]
  refine ((ends_writeBytes _).imp ?_).stops
  rintro _ s' ⟨hconsole, -, -⟩
  rw [Proc.stops_throw]
  refine ⟨rfl, hconsole.trans ?_⟩
  rw [← hs.out]
  rfl

/-- What the two records of an exception bring out of the ring. -/
def fatalOutput (t : ℕ) (l : List (Option (List UInt8))) (lost : ℕ) (d : Bool) (f : Trap.Fatal)
    (stamp : Stamp) : List (List UInt8) :=
  if d then [] else Ring.told ringSize t l lost [f.diagnostic stamp, f.report stamp]

lemma stops_handleTrap {mcause mepc : BitVec 64} {f : Trap.Fatal}
    (hf : f = ⟨⟨mcause.setWidth 32⟩, mepc.toNat⟩) (hcause : f.cause.isInterrupt = false)
    (hphase : s.rest.phase.isSome = true)
    (hs : Logs core pause custom hart patience t l lost d o g s)
    (hfilter : g.2.filter = some .debug) (hbound : l.length + 2 * ringSize < 2 ^ 64) :
    ((host core pause custom hart patience).handleTrap mcause mepc).Stops s (fun _ _ => False)
      fun e s' => e = .exit f.exitCode ∧ console s' = o ++
        (fatalOutput t l lost d f (clock hart g)).flatten ++ Text.utf8 "trap\n" := by
  subst hf
  have hu := host_undisturbed core pause custom hart patience
  have hset : ¬ ((host core pause custom hart patience).state.get s).phase.isNone = true := by
    show ¬ s.rest.phase.isNone = true
    rw [Option.isNone_iff_eq_none, ← Option.not_isSome_iff_eq_none]
    exact fun h => h hphase
  rw [Host.handleTrap, Proc.stops_bind, Cell.stops_read, if_neg hset, Proc.stops_bind,
    Trap.stops_dispatch (.inl hcause)]
  -- the phase is no business of the logger
  have hs₀ : Logs core pause custom hart patience t l lost d o
      (g.1, { g.2 with phase := some .terminating })
      ((host core pause custom hart patience).phase.put .terminating s) := by
    have haside := hs.aside
    subst haside
    exact ⟨hs.ring, hs.out, rfl⟩
  have hfirst : ∀ text : List UInt8, (Ring.entered ringSize t l text).length < 2 ^ 64 := by
    intro text
    have hadd := Ring.length_entered_le_add (N := ringSize) hs.ring.holds.le text
    omega
  have hsecond : ∀ (t' : ℕ) (text text' : List UInt8),
      t' ≤ (Ring.entered ringSize t l text).length →
        (Ring.entered ringSize t' (Ring.entered ringSize t l text) text').length < 2 ^ 64 := by
    intro t' text text' ht'
    have hadd := Ring.length_entered_le_add (N := ringSize) hs.ring.holds.le text
    have hadd' := Ring.length_entered_le_add (N := ringSize) ht' text'
    omega
  cases d with
  | true =>
    -- a drain has the sink, so both records only enter the ring
    refine (((ends_error_iff hs₀ hfilter).2
      (hu.ends_log_draining hs₀ rfl rfl (hfirst _))).imp fun _ s₁ hs₁ => ?_).stops
    rw [Proc.stops_bind]
    refine (((ends_error_iff hs₁ hfilter).2 (hu.ends_log_draining hs₁ rfl rfl
      (hsecond _ _ _ hs₁.ring.holds.le))).imp fun _ s₂ hs₂ => ?_).stops
    refine (stops_exit hs₂ _).mono (fun _ _ h => h) ?_
    rintro _ s' ⟨rfl, hconsole⟩
    refine ⟨rfl, hconsole.trans ?_⟩
    rw [fatalOutput, if_pos rfl, List.flatten_nil, List.append_nil]
  | false =>
    -- each of the two records drains at most a third of the ring
    refine (((ends_error_iff hs₀ hfilter).2
      (hu.ends_log hs₀ rfl rfl (hfirst _))).imp fun _ s₁ hs₁ => ?_).stops
    rw [Proc.stops_bind]
    refine (((ends_error_iff hs₁ hfilter).2 (hu.ends_log hs₁ rfl rfl
      (hsecond _ _ _ hs₁.ring.holds.le))).imp fun _ s₂ hs₂ => ?_).stops
    refine (stops_exit hs₂ _).mono (fun _ _ h => h) ?_
    rintro _ s' ⟨rfl, hconsole⟩
    refine ⟨rfl, hconsole.trans ?_⟩
    rw [fatalOutput, if_neg Bool.false_ne_true]
    simp only [Ring.told, List.flatMap_id, List.append_nil, List.flatten_append, List.append_assoc]
    rfl

/-- A trap with the interrupt bit clear ends the program with the code of its cause. The console
then shows what two records bring out of the ring that the trap found. If the sink was free and all
that waited was published and left room in two drains, the diagnostic is there in full. If a drain
was going on, or a chunk was not published yet, or two drains had enough to do, there is nothing of
it. -/
theorem handleTrap_tells_what_drains (core : Core (Station η State))
    (pause : Proc (Station η State) Unit) (custom : ℕ → Word → Proc (Station η State) Unit)
    (hart patience : ℕ) (s : Station η State) (mcause mepc : BitVec 64) (f : Trap.Fatal)
    (hf : f = ⟨⟨mcause.setWidth 32⟩, mepc.toNat⟩) (hcause : f.cause.isInterrupt = false)
    (hfilter : s.rest.filter = some .debug) (hphase : s.rest.phase.isSome = true) {r : Log.Ring}
    (hring : s.rest.ring = some r) (hr : r.Stands ringSize t l lost d)
    (hbound : l.length + 2 * ringSize < 2 ^ 64) {stamp : Stamp}
    (hstamp : stamp = clock hart s.aside) {out : List (List UInt8)}
    (hout : out = fatalOutput t l lost d f stamp) :
    (∃ s', (host core pause custom hart patience).handleTrap mcause mepc s =
        .error (.exit (f.cause.code + 1)) s' ∧
      s'.console = s.console ++ out.flatten ++ Text.utf8 "trap\n") ∧
    (d = false → none ∉ l.drop t →
      l.length - t + (pieces (f.diagnostic stamp)).length ≤ 2 * (ringSize / 3) →
        f.diagnostic stamp <:+: out.flatten) ∧
    (d = true ∨ none ∈ l.drop t ∨ 2 * (ringSize / 3) ≤ l.length - t →
      ∀ chunk ∈ out, chunk = Text.utf8 lostNotice ∨ some chunk ∈ l.drop t) := by
  subst hstamp hout
  have hs : Logs core pause custom hart patience t l lost d s.console s.aside s := by
    refine ⟨?_, rfl, rfl⟩
    show (s.rest.ring.getD (.new 0)).Stands ringSize t l lost d
    rw [hring]
    exact hr
  refine ⟨?_, ?_, ?_⟩
  · obtain ⟨_, s', hs', rfl, hconsole⟩ :=
      (stops_handleTrap hf hcause hphase hs hfilter hbound).halts
    exact ⟨s', hs', hconsole⟩
  · rintro rfl hall hfits
    rw [fatalOutput, if_neg Bool.false_ne_true]
    exact Ring.infix_told (by decide) hr.holds.le hall hfits (f.length_pieces_report _)
  · intro hheld chunk hchunk
    cases d with
    | true => cases hchunk
    | false => exact Ring.mem_told hr.holds.le (hheld.resolve_left Bool.false_ne_true) hchunk

/-- A station with a record in the ring of its program, and peers that go on. -/
def atWork : Station Unit State where
  board := {}
  schedule := [[.send .uart 65#32], [], [.request ⟨11, by decide⟩, .take .uart 1]]
  buffer := .new .byte 4
  rest :=
    { filter := some .debug
      ring := some ((Ring.write (.new ringSize, {}) (Text.utf8 "at work\n")).1.publish
        (Ring.write (.new ringSize, {}) (Text.utf8 "at work\n")).2)
      phase := some .dispatching }

theorem handleTrap_tells_what_drains_atWork :
    ∃ s', (host ⟨fun _ => pure false, fun _ _ => pure false⟩ (pure ()) (fun _ _ => pure ()) 7
        1).handleTrap 2#64 0x20020000#64 atWork = .error (.exit 3) s' ∧
      Trap.Fatal.diagnostic ⟨⟨2#32⟩, 0x20020000⟩ ⟨7, 0⟩ <:+: s'.console := by
  have hr := (Ring.stands_new ringSize).record (Text.utf8 "at work\n") (by decide +kernel)
  obtain ⟨⟨s', hs', hconsole⟩, hinfix, -⟩ := handleTrap_tells_what_drains
    ⟨fun _ => pure false, fun _ _ => pure false⟩ (pure ()) (fun _ _ => pure ()) 7 1 atWork 2#64
    0x20020000#64 _ rfl (by decide) rfl rfl rfl hr (by decide +kernel) rfl rfl
  have hall := hinfix rfl (by decide +kernel) (by decide +kernel)
  refine ⟨s', hs', hall.trans ?_⟩
  rw [hconsole]
  exact ⟨_, _, rfl⟩

end Station

/-! ### A trap during a drain -/

namespace Bench

def Outcome.halt? : Outcome → Option Halt
  | .done _ _ => none
  | .halted h _ => some h

/-- The lines of the console that were completed. -/
def Outcome.lines : Outcome → List String
  | .done _ events | .halted _ events => events.filterMap fun
    | .line text => some text
    | _ => none

/-- A machine with logging set up and all told so far, seven lines. An exception breaks in as the
next line is about to go out. Of the setting up of interrupts only the dispatcher is here: the
enables of the core, the arbiter and the table of sources are as at reset, for an exception meets
none of them. -/
def interrupted : Machine where
  program :=
    { filter := some .debug
      ring := some { Log.Ring.new Program.ringSize with head := 8#64, tail := 8#64 }
      phase := some .idle }
  lines := 7
  lineHooks := [⟨8, [.trap 2#64 0x20020000#64]⟩]

/-- The drain still has the sink, so of the exception itself nothing is said. -/
theorem interrupted_exits_without_diagnostic :
    (interrupted.run [.log .info "at work"]).map (fun o => (o.halt?, o.lines)) =
      [(some (.exit 3), ["trap"])] := by
  decide +kernel

end Bench

end BoardSupport
