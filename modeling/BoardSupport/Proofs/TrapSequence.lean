import BoardSupport.Proofs.FatalTrap
import BoardSupport.Proofs.ProgramSteps
import BoardSupport.Proofs.ReceiveBuffer

/-!
Traps one after the other.

Once interrupts are set up the program may take any number of traps. Up to the first exception an
interrupt goes on where it broke in. The first exception and every trap after it end the program,
with a last line on the console and the code of their own cause. What a trap does next is up to the
phase that the traps before it have left, and that only changes with an exception.
-/

namespace BoardSupport

open Program

section

variable {σ α : Type} {x : Proc σ α} {s : σ} {E : Halt → Prop}

lemma Proc.Ends.and {Q Q' : α → σ → Prop} {E' : Halt → Prop} (h : x.Ends s Q E)
    (h' : x.Ends s Q' E') : x.Ends s (fun a s' => Q a s' ∧ Q' a s') fun e => E e ∧ E' e := by
  unfold Proc.Ends at h h' ⊢
  cases hx : x s with
  | ok a s' =>
    rw [hx] at h h'
    exact ⟨h, h'⟩
  | error e s' =>
    rw [hx] at h h'
    exact ⟨h, h'⟩

lemma Proc.ends_of_ok {Q : α → σ → Prop} {a : α} {s' : σ} (hx : x s = .ok a s') (h : Q a s') :
    x.Ends s Q E := by
  unfold Proc.Ends
  rw [hx]
  exact h

/-- What is kept by a procedure that is known to end. -/
lemma Proc.Respects.keeps {R : σ → σ → Prop} {Q : σ → α → σ → Prop} (hx : Proc.Respects R x)
    (h : ∀ s, x.Ends s (Q s) E) : Proc.Keeps R E x := fun s =>
  ((hx s).and (h s)).mono (fun _ _ hQ => hQ.1) fun _ hE => hE.2

end

/-! ### The reception -/

section

variable {σ : Type} {R : σ → σ → Prop} [IsPreorder σ R]

lemma ReceiveBuffer.keeps_fill {buffer : Cell σ ReceiveBuffer} {next : ℕ → Proc σ Word}
    (hbuffer : ∀ f, Proc.Respects R (buffer.update f)) (hnext : ∀ i, Proc.Respects R (next i))
    (start n : ℕ) : Proc.Respects R (fill buffer next start n 0 0) := by
  intro s
  refine ends_fill (M := fun _ _ s' => R s s') (fun i _ stored s₁ h₁ => ?_) (refl_of R s)
  refine (hnext i s₁).imp fun unit s₂ h₂ => ⟨fun _ => ?_, fun _ => trans_of R h₁ h₂⟩
  have hwrite := (Cell.ends_update _ _).1 (hbuffer (·.write (start + stored) unit) s₂)
  exact trans_of R (trans_of R h₁ h₂) hwrite

lemma Reception.keeps_handle {r : Reception σ}
    (hload : ∀ a w, Proc.Respects R (r.channel.regs.platform.load a w))
    (hlog : ∀ record, Proc.Respects R (r.channel.regs.platform.log record))
    (hbuffer : ∀ f, Proc.Respects R (r.buffer.update f))
    (hcompletions : ∀ f, Proc.Respects R (r.completions.update f)) (id : Word) :
    Proc.Respects R (r.handle id) := by
  have hread : ∀ o, Proc.Respects R (r.channel.regs.read o) := fun o =>
    (Platform.keeps_address _ o).bind fun a => hload a _
  refine (hread _).bind fun pending => ?_
  split
  · refine (hread _).bind fun waiting => (Proc.keeps_read _).bind fun b => Proc.Keeps.bind ?_
      fun stored => (hcompletions _).bind fun _ => (Proc.keeps_read _).bind fun _ =>
        (Proc.keeps_read _).bind fun _ => hlog _
    refine (Proc.keeps_read _).bind fun b' => (ReceiveBuffer.keeps_fill hbuffer
      (fun _ => (hread _).bind fun _ => Proc.keeps_pure _) _ _).bind fun stored => ?_
    have hend : Proc.Respects R (do
        r.buffer.update fun b => { b with count := b'.count + stored }
        return stored) := (hbuffer _).bind fun _ => Proc.keeps_pure _
    split
    · exact (hbuffer _).bind fun _ => (hlog _).bind fun _ => hend
    · exact hend
  · exact hlog _

end

/-! ### The program on a station -/

namespace Station

variable {η τ : Type} {log : Log.Record → Proc (Station η τ) Unit} {patience : ℕ}

section

variable {R : Station η τ → Station η τ → Prop} [IsPreorder (Station η τ) R]

lemma respects_load (hmeanwhile : ∀ s, R s s.meanwhile) (hsaw : ∀ s board h, R s (s.saw board h))
    (a : ℕ) (w : Width) : Proc.Respects R ((platform log patience).load a w) := by
  intro s
  rw [ends_load]
  split
  · exact trans_of R (hmeanwhile s) (hsaw _ _ _)
  · trivial

lemma respects_store (hmeanwhile : ∀ s, R s s.meanwhile) (hsaw : ∀ s board h, R s (s.saw board h))
    (a : ℕ) (w : Width) (v : Word) : Proc.Respects R ((platform log patience).store a w v) := by
  intro s
  rw [ends_store]
  exact trans_of R (hmeanwhile s) (hsaw _ _ _)

end

lemma accesses_act (s : Station η τ) (o : Outside) : (s.act o).accesses = s.accesses := by
  cases o with
  | send link unit =>
    exact (List.filter_append ..).trans (List.append_nil _)
  | take link n => rfl
  | rewire link wire => rfl
  | request id => rw [act_request]; rfl

lemma accesses_meanwhile (s : Station η τ) : s.meanwhile.accesses = s.accesses :=
  foldl_kept accesses accesses_act _ _

def character (b : UInt8) : Happening η :=
  .store (MemoryMap.system + SystemRegister.scratch) .byte (b.toBitVec.setWidth 32)

lemma ends_writeBytes_accesses {s : Station η τ} {E : Halt → Prop} (bytes : List UInt8) :
    (Console.writeBytes (platform log patience) bytes).Ends s
      (fun _ s' => s'.accesses = s.accesses ++ bytes.map character) E := by
  induction bytes generalizing s with
  | nil =>
    rw [Console.writeBytes, Proc.ends_pure]
    exact (List.append_nil _).symm
  | cons b rest ih =>
    rw [Console.writeBytes, Proc.ends_bind, Console.writeByte_eq, ends_store]
    refine ih.imp fun _ s' h => ?_
    rw [h, accesses_saw_store, accesses_meanwhile, List.append_assoc]
    rfl

/-- From `s` to `s'` the phase of the dispatcher has not changed. -/
def SamePhase (s s' : Station η State) : Prop := s'.rest.phase = s.rest.phase

instance : IsPreorder (Station η State) SamePhase where
  refl _ := rfl
  trans _ _ _ h h' := h'.trans h

/-- From `s` to `s'` the phase has not changed, and nothing was struck off the record. -/
structure GoesOn (s s' : Station η State) : Prop where
  phase : s'.rest.phase = s.rest.phase
  trace : s.trace <+: s'.trace

instance : IsPreorder (Station η State) GoesOn where
  refl _ := ⟨rfl, List.prefix_rfl⟩
  trans _ _ _ h h' := ⟨h'.phase.trans h.phase, h.trace.trans h'.trace⟩

lemma meanwhile_samePhase (s : Station η State) : SamePhase s s.meanwhile :=
  congrArg State.phase (meanwhile_beside s).rest

lemma act_trace (s : Station η State) (o : Outside) : s.trace <+: (s.act o).trace := by
  cases o with
  | send link unit => exact List.prefix_append _ _
  | take link n => exact List.prefix_rfl
  | rewire link wire => exact List.prefix_rfl
  | request id => rw [act_request]

lemma meanwhile_goesOn (s : Station η State) : GoesOn s s.meanwhile :=
  meanwhile_of_act (fun s o => ⟨congrArg State.phase (act_beside s o).rest, act_trace s o⟩)
    (fun _ => ⟨rfl, List.prefix_rfl⟩) s

lemma GoesOn.accesses {s s' : Station η State} (h : GoesOn s s') :
    ∃ t, s'.accesses = s.accesses ++ t := by
  obtain ⟨t, ht⟩ := h.trace.filter Happening.isAccess
  exact ⟨t, ht.symm⟩

section

variable {core : Core (Station η State)} {pause : Proc (Station η State) Unit}
  {custom : ℕ → Word → Proc (Station η State) Unit} {hart : ℕ}

lemma host_bus_samePhase : (host core pause custom hart patience).bus.Keeps SamePhase where
  load a w _ := respects_load meanwhile_samePhase (fun _ _ _ => rfl) a w
  store := respects_store meanwhile_samePhase fun _ _ _ => rfl
  log _ _ := Proc.keeps_pure _

lemma host_bus_goesOn : (host core pause custom hart patience).bus.Keeps GoesOn where
  load a w _ := respects_load meanwhile_goesOn (fun _ _ _ => ⟨rfl, List.prefix_append _ _⟩) a w
  store := respects_store meanwhile_goesOn fun _ _ _ => ⟨rfl, List.prefix_append _ _⟩
  log _ _ := Proc.keeps_pure _

lemma host_samePhase : (host core pause custom hart patience).platform.Keeps SamePhase :=
  Host.keeps_platform host_bus_samePhase fun _ _ => (Cell.ends_update _ _).2 rfl

/-- A record is made whatever state the ring is in. -/
lemma keeps_record (r : Log.Record) : Proc.Keeps GoesOn (fun _ => False)
    ((host core pause custom hart patience).platform.log r) := by
  have hbus : (host core pause custom hart patience).bus.Keeps GoesOn := host_bus_goesOn
  refine Host.keeps_log (Proc.keeps_pure _) ⟨?_, ?_, ?_, Proc.keeps_pure _⟩
  · exact fun _ _ => (Cell.ends_update _ _).2 ⟨rfl, List.prefix_rfl⟩
  · exact (hbus.value.keeps fun _ => ends_value).bind fun _ => Proc.keeps_pure _
  · exact fun chunk => (hbus.writeBytes chunk).keeps fun _ => ends_writeBytes chunk

/-- The logger passes nothing as fine as a trace. -/
lemma ends_trace {path : String} {line : ℕ} {text : String} {s : Station η State}
    {Q : Unit → Station η State → Prop} {E : Halt → Prop} :
    ((host core pause custom hart patience).platform.trace path line text).Ends s Q E ↔ Q () s := by
  show ((pure () : Proc (Station η State) Unit) >>= fun _ => _).Ends s Q E ↔ _
  rw [pure_bind, Proc.ends_bind, Cell.ends_read]
  split
  · exact Proc.ends_pure _
  · exact Proc.ends_pure _

/-- No handler has to do with the dispatcher that runs it. -/
lemma handleClass_samePhase (hcustom : ∀ i id, Proc.Respects SamePhase (custom i id))
    (c : Trap.Class) : Proc.Respects SamePhase
      ((host core pause custom hart patience).handleClass c) := by
  refine Host.keeps_handleClass host_samePhase (fun service id => ?_) c
  cases service with
  | reception =>
    refine Reception.keeps_handle
      (fun a w => respects_load meanwhile_samePhase (fun _ _ _ => rfl) a w) (fun r s => ?_)
      (fun _ _ => (Cell.ends_update _ _).2 rfl) (fun _ _ => (Cell.ends_update _ _).2 rfl) id
    exact (keeps_record r s).mono (fun _ _ h => h.phase) fun _ _ => trivial
  | custom i => exact hcustom i id

end

end Station

/-! ### One trap -/

namespace Trap.Cause

variable (mcause : BitVec 64)

lemma isInterrupt_setWidth : (⟨mcause.setWidth 32⟩ : Cause).isInterrupt = mcause.getLsbD 31 := by
  simp [isInterrupt, BitVec.msb_setWidth]

lemma code_setWidth : (⟨mcause.setWidth 32⟩ : Cause).code = mcause.toNat % 2 ^ 31 := by
  rw [code, BitVec.toNat_setWidth, BitVec.toNat_setWidth]
  exact Nat.mod_mod_of_dvd _ (by decide)

end Trap.Cause

namespace Station

variable {η : Type} {core : Core (Station η State)} {pause : Proc (Station η State) Unit}
  {custom : ℕ → Word → Proc (Station η State) Unit} {hart patience : ℕ} {s : Station η State}
  {mcause mepc : BitVec 64} {E : Halt → Prop}

/-- The last line of a program that a trap ends, as it goes out. -/
def lastLine : List (Happening η) :=
  [0x74#32, 0x72#32, 0x61#32, 0x70#32, 0x0a#32].map
    (.store (MemoryMap.system + SystemRegister.scratch) .byte ·)

lemma map_character : (Text.utf8 "trap\n").map character = (lastLine : List (Happening η)) := by
  have hbytes : Text.utf8 "trap\n" = [0x74, 0x72, 0x61, 0x70, 0x0a] := by decide +kernel
  rw [hbytes]
  rfl

lemma not_isNone_phase {f : Trap.Phase} (h : s.rest.phase = some f) :
    ¬ ((host core pause custom hart patience).state.get s).phase.isNone = true := by
  show ¬ s.rest.phase.isNone = true
  rw [h]
  exact Bool.false_ne_true

/-- An interrupt while no exception has been taken. -/
lemma ends_handleTrap (hcustom : ∀ i id, Proc.Respects SamePhase (custom i id))
    (hinterrupt : mcause.getLsbD 31 = true) (hphase : s.rest.phase = some .idle)
    (hhandler : ∀ c, Trap.Cause.class? ⟨mcause.setWidth 32⟩ = some c →
      ∃ s', (host core pause custom hart patience).handleClass c
        ((host core pause custom hart patience).phase.put .dispatching s) = .ok () s') :
    ((host core pause custom hart patience).handleTrap mcause mepc).Ends s
      (fun address s' => address = mepc ∧ s'.rest.phase = some .idle) E := by
  have hget : (host core pause custom hart patience).phase.get s = .idle :=
    congrArg (·.getD Trap.Phase.idle) hphase
  have hgoes : ¬ (!(⟨mcause.setWidth 32⟩ : Trap.Cause).isInterrupt ||
      (Trap.Phase.idle == Trap.Phase.terminating)) = true := by
    rw [Trap.Cause.isInterrupt_setWidth, hinterrupt]
    exact Bool.false_ne_true
  have hback : ∀ s', s'.rest.phase = some .idle →
      (pure (BitVec.ofNat 64 mepc.toNat) : Proc (Station η State) (BitVec 64)).Ends s'
        (fun address s' => address = mepc ∧ s'.rest.phase = some .idle) E :=
    fun s' h => (Proc.ends_pure _).2 ⟨(BitVec.ofNat_toNat _ _).trans (BitVec.setWidth_eq _), h⟩
  rw [Host.handleTrap, Proc.ends_bind, Cell.ends_read, if_neg (not_isNone_phase hphase),
    Proc.ends_bind, Trap.dispatch, Proc.ends_bind, Cell.ends_read, hget, if_neg hgoes]
  cases hclass : Trap.Cause.class? ⟨mcause.setWidth 32⟩ with
  | none =>
    -- an interrupt of no class is logged and resumed from
    rw [Proc.ends_bind]
    refine (keeps_record _ s).mono (fun _ s₁ h₁ => ?_) fun _ => False.elim
    exact (Proc.ends_pure _).2 (hback s₁ (h₁.phase.trans hphase))
  | some c =>
    obtain ⟨s₁, hs₁⟩ := hhandler c hclass
    have hphase₁ : s₁.rest.phase = some .dispatching :=
      (handleClass_samePhase hcustom c _).of_ok hs₁
    have hget₁ : (host core pause custom hart patience).phase.get s₁ = .dispatching :=
      congrArg (·.getD Trap.Phase.idle) hphase₁
    simp only [if_true, Proc.ends_bind, Cell.ends_write, ends_trace]
    refine Proc.ends_of_ok hs₁ ?_
    rw [Cell.ends_update, hget₁, Proc.ends_pure]
    exact hback _ rfl

/-- An exception, or any trap after one. -/
lemma stops_handleTrap_fatal {f : Trap.Phase} (hphase : s.rest.phase = some f)
    (hfatal : mcause.getLsbD 31 = false ∨ f = .terminating) :
    ((host core pause custom hart patience).handleTrap mcause mepc).Stops s (fun _ _ => False)
      fun e s' => e = .exit (mcause.toNat % 2 ^ 31 + 1) ∧ s'.rest.phase = some .terminating ∧
        ∃ t, s'.accesses = s.accesses ++ t ++ lastLine := by
  have hdispatch : (⟨mcause.setWidth 32⟩ : Trap.Cause).isInterrupt = false ∨
      (host core pause custom hart patience).phase.get s = .terminating := by
    rw [Trap.Cause.isInterrupt_setWidth]
    refine hfatal.imp_right fun h => ?_
    rw [h] at hphase
    exact congrArg (·.getD Trap.Phase.idle) hphase
  rw [Host.handleTrap, Proc.stops_bind, Cell.stops_read, if_neg (not_isNone_phase hphase),
    Proc.stops_bind, Trap.stops_dispatch hdispatch]
  refine ((keeps_record _ _).imp fun _ s₁ h₁ => ?_).stops
  rw [Proc.stops_bind]
  refine ((keeps_record _ s₁).imp fun _ s₂ h₂ => ?_).stops
  rw [Proc.stops_bind, host_platform, Console.writeText]
  obtain ⟨t, ht⟩ := (trans_of GoesOn h₁ h₂).accesses
  refine (((ends_writeBytes_accesses _).and (ends_writeBytes (E := fun _ => False) _)).mono ?_
    fun _ h => h.1).stops
  rintro _ s₃ ⟨haccesses, -, -, hrest⟩
  rw [Proc.stops_throw]
  refine ⟨?_, ?_, t, ?_⟩
  · rw [Trap.Fatal.exitCode, Trap.Cause.code_setWidth]
  · exact (congrArg State.phase hrest).trans (h₂.phase.trans h₁.phase)
  · rw [haccesses, ht, map_character]
    rfl

/-! ### Trap after trap -/

/-- The next trap, and what the program and the world around it do until then. -/
structure Arrival (η : Type) where
  meantime : Station η State → Station η State
  mcause : BitVec 64
  mepc : BitVec 64

/-- A trap that was taken. -/
structure Taken (η : Type) where
  mcause : BitVec 64
  mepc : BitVec 64
  start : Station η State
  result : EStateM.Result Halt (Station η State) (BitVec 64)

namespace Taken

def finish (v : Taken η) : Station η State :=
  match v.result with
  | .ok _ s | .error _ s => s

def isInterrupt (v : Taken η) : Bool := v.mcause.getLsbD 31

/-- The phase after the trap, which found the dispatcher in the phase `f`. -/
def next (f : Trap.Phase) (v : Taken η) : Trap.Phase := if v.isInterrupt then f else .terminating

end Taken

/-- The traps in order. One that ends the program leaves its state to those after it. -/
def takeAll (h : Host (Station η State)) : Station η State → List (Arrival η) → List (Taken η)
  | _, [] => []
  | s, a :: rest =>
    let v : Taken η :=
      ⟨a.mcause, a.mepc, a.meantime s, h.handleTrap a.mcause a.mepc (a.meantime s)⟩
    v :: takeAll h v.finish rest

/-- The trap went on where it broke in. -/
def Taken.Resumed (v : Taken η) : Prop := ∃ s', v.result = .ok v.mepc s'

/-- The trap ended the program with the code of its cause, and a last line before that. -/
def Taken.Exited (v : Taken η) : Prop :=
  ∃ t s', v.result = .error (.exit (v.mcause.toNat % 2 ^ 31 + 1)) s' ∧
    s'.accesses = v.start.accesses ++ t ++ lastLine

/-- If the trap runs the handler of a class, then the handler ends. -/
def Taken.HandlerEnds (h : Host (Station η State)) (v : Taken η) : Prop :=
  ∀ c, v.start.rest.phase = some .idle → Trap.Cause.class? ⟨v.mcause.setWidth 32⟩ = some c →
    ∃ s', h.handleClass c (h.phase.put .dispatching v.start) = .ok () s'

lemma taken_of_phase {h : Host (Station η State)} {v : Taken η} {f : Trap.Phase}
    (hh : h = host core pause custom hart patience)
    (hcustom : ∀ i id, Proc.Respects SamePhase (custom i id))
    (hv : v.result = h.handleTrap v.mcause v.mepc v.start) (hhandler : v.HandlerEnds h)
    (hf : f = .idle ∨ f = .terminating) (hphase : v.start.rest.phase = some f) :
    (v.next f = .idle → v.Resumed) ∧ (v.next f = .terminating → v.Exited) ∧
      v.finish.rest.phase = some (v.next f) ∧ (v.next f = .idle ∨ v.next f = .terminating) := by
  subst hh
  by_cases hidle : v.isInterrupt = true ∧ f = .idle
  · obtain ⟨hinterrupt, rfl⟩ := hidle
    have hnext : v.next .idle = .idle := if_pos hinterrupt
    have hends : ((host core pause custom hart patience).handleTrap v.mcause v.mepc).Ends v.start
        (fun address s' => address = v.mepc ∧ s'.rest.phase = some .idle) fun _ => False :=
      ends_handleTrap hcustom hinterrupt hphase fun c => hhandler c hphase
    obtain ⟨_, s', hs', rfl, hphase'⟩ := hends.returns
    rw [← hv] at hs'
    refine ⟨fun _ => ⟨s', hs'⟩, fun h => ?_, ?_, .inl hnext⟩
    · rw [hnext] at h
      cases h
    · rw [hnext, Taken.finish, hs']
      exact hphase'
  · -- an exception now, or one at an earlier trap
    have hfatal : v.mcause.getLsbD 31 = false ∨ f = .terminating := by
      rcases hf with rfl | rfl
      · exact .inl (Bool.eq_false_iff.2 fun h => hidle ⟨h, rfl⟩)
      · exact .inr rfl
    have hnext : v.next f = .terminating := by
      rcases hfatal with h | rfl
      · exact if_neg (Bool.eq_false_iff.1 h)
      · exact ite_self _
    have hstops : ((host core pause custom hart patience).handleTrap v.mcause v.mepc).Stops v.start
        (fun _ _ => False) _ := stops_handleTrap_fatal hphase hfatal
    obtain ⟨_, s', hs', rfl, hphase', t, ht⟩ := hstops.halts
    rw [← hv] at hs'
    refine ⟨fun h => ?_, fun _ => ⟨t, s', hs', ht⟩, ?_, .inr hnext⟩
    · rw [hnext] at h
      cases h
    · rw [hnext, Taken.finish, hs']
      exact hphase'

section

variable {l earlier later : List (Taken η)} {v : Taken η} {f : Trap.Phase}

lemma Taken.foldl_next_of_forall (hl : ∀ u ∈ l, u.isInterrupt = true) : l.foldl next f = f := by
  induction l with
  | nil => rfl
  | cons u rest ih =>
    have hu : next f u = f := if_pos (hl u List.mem_cons_self)
    rw [List.foldl_cons, hu]
    exact ih fun u' hu' => hl u' (List.mem_cons_of_mem _ hu')

lemma Taken.foldl_next_terminating (l : List (Taken η)) :
    l.foldl next .terminating = .terminating := by
  induction l with
  | nil => rfl
  | cons u rest ih =>
    have hu : next .terminating u = .terminating := ite_self _
    rw [List.foldl_cons, hu, ih]

lemma Taken.foldl_next_of_exists (hl : ∃ u ∈ l, u.isInterrupt = false) :
    l.foldl next f = .terminating := by
  obtain ⟨u, hu, hexception⟩ := hl
  obtain ⟨l₁, l₂, rfl⟩ := List.append_of_mem hu
  have hnext : next (l₁.foldl next f) u = .terminating := if_neg (Bool.eq_false_iff.1 hexception)
  rw [List.foldl_append, List.foldl_cons, hnext, foldl_next_terminating]

/-- A trap finds the phase that the traps before it have left. -/
lemma phase_of_takeAll {h : Host (Station η State)} (hh : h = host core pause custom hart patience)
    (hcustom : ∀ i id, Proc.Respects SamePhase (custom i id)) {arrivals : List (Arrival η)}
    (hmeantime : ∀ a ∈ arrivals, ∀ s, SamePhase s (a.meantime s))
    (hhandlers : ∀ v ∈ takeAll h s arrivals, v.HandlerEnds h) (hf : f = .idle ∨ f = .terminating)
    (hphase : s.rest.phase = some f) (hv : takeAll h s arrivals = earlier ++ v :: later) :
    v.result = h.handleTrap v.mcause v.mepc v.start ∧
      v.start.rest.phase = some (earlier.foldl Taken.next f) ∧
      (earlier.foldl Taken.next f = .idle ∨ earlier.foldl Taken.next f = .terminating) := by
  induction arrivals generalizing s f earlier with
  | nil => exact absurd hv (List.append_ne_nil_of_right_ne_nil _ (List.cons_ne_nil _ _)).symm
  | cons a rest ih =>
    have hstart : (a.meantime s).rest.phase = some f :=
      (hmeantime a List.mem_cons_self s).trans hphase
    rw [takeAll] at hv hhandlers
    cases earlier with
    | nil =>
      obtain ⟨rfl, -⟩ := List.cons.inj hv
      exact ⟨rfl, hstart, hf⟩
    | cons u earlier =>
      -- each trap starts in the phase that the one before it left
      obtain ⟨rfl, hv'⟩ := List.cons.inj hv
      obtain ⟨-, -, hfinish, hnext⟩ := taken_of_phase hh hcustom rfl
        (hhandlers _ List.mem_cons_self) hf hstart
      rw [List.foldl_cons]
      exact ih (fun a' ha' => hmeantime a' (List.mem_cons_of_mem _ ha'))
        (fun v' hv'' => hhandlers v' (List.mem_cons_of_mem _ hv'')) hnext hfinish hv'

end

/-- Interrupts are set up, for the first time. -/
lemma ends_initInterrupts (hglobal : ∀ b, Proc.Respects SamePhase (core.setGlobal b))
    (hclass : ∀ c b, Proc.Respects SamePhase (core.setClass c b)) (hnew : s.rest.phase = none)
    (id : Word) (config : SourceConfig) (service : Service) :
    ((host core pause custom hart patience).initInterrupts id config service).Ends s
      (fun _ s' => s'.rest.phase = some .idle) fun _ => True := by
  have hp : (host core pause custom hart patience).platform.Keeps SamePhase := host_samePhase
  have hpolicy : Proc.Respects SamePhase
      ((host core pause custom hart patience).initPolicy id service) :=
    Host.keeps_initPolicy (fun _ _ => (Cell.ends_update _ _).2 rfl) id service
  rw [Host.initInterrupts, Proc.ends_bind]
  refine (hp.message (by decide) s).imp fun _ s₁ h₁ => ?_
  rw [Proc.ends_bind]
  refine (hp.configure id config s₁).imp fun _ s₂ h₂ => ?_
  rw [Proc.ends_bind]
  refine (hp.setThreshold 0#32 s₂).imp fun _ s₃ h₃ => ?_
  rw [Proc.ends_bind]
  refine (hpolicy s₃).imp fun _ s₄ h₄ => ?_
  have hphase : s₄.rest.phase = none := h₄.trans (h₃.trans (h₂.trans (h₁.trans hnew)))
  have hnone : ((host core pause custom hart patience).state.get s₄).phase.isNone = true :=
    congrArg Option.isNone hphase
  rw [Proc.ends_bind, Host.initDispatcher, Proc.ends_bind, Cell.ends_read, if_pos hnone,
    Cell.ends_write, Proc.ends_bind]
  -- the dispatcher is idle from here on
  have hrest : Proc.Respects SamePhase (do
      discard (core.setClass .external true)
      discard (core.setClass .software true)
      discard (core.setGlobal true)
      (host core pause custom hart patience).platform.info Host.interruptsPath 60
        "Interrupts initialized!") :=
    (hclass _ _).discard.bind fun _ => (hclass _ _).discard.bind fun _ =>
      (hglobal _).discard.bind fun _ => hp.message (by decide)
  refine (hp.enable id _).imp fun _ s₅ h₅ => ?_
  exact (hrest s₅).imp fun _ s₆ h₆ => h₆.trans h₅

/-- Interrupts are set up, and traps are taken one after the other from program context, with any
causes and addresses; whatever goes on between them leaves the dispatcher alone. The handlers of
classes that are run end. Then a trap whose cause has the interrupt bit, if the causes of all traps
before it have it too, goes on at its own address. Any other trap ends the program: its last
accesses are the bytes of the last line, and the exit code is one more than the code of its own
cause, which is still a word. The bits of the cause above the low 32 make no difference. -/
theorem traps_resume_until_exception (core : Core (Station η State))
    (pause : Proc (Station η State) Unit) (custom : ℕ → Word → Proc (Station η State) Unit)
    (hart patience : ℕ) {h : Host (Station η State)}
    (hh : h = host core pause custom hart patience)
    (hglobal : ∀ b, Proc.Respects SamePhase (core.setGlobal b))
    (hclass : ∀ c b, Proc.Respects SamePhase (core.setClass c b))
    (hcustom : ∀ i id, Proc.Respects SamePhase (custom i id)) {s₀ s : Station η State}
    (hnew : s₀.rest.phase = none) {id : Word} {config : SourceConfig} {service : Service}
    (hinit : h.initInterrupts id config service s₀ = .ok () s) (arrivals : List (Arrival η))
    (hmeantime : ∀ a ∈ arrivals, ∀ s, SamePhase s (a.meantime s))
    (hhandlers : ∀ v ∈ takeAll h s arrivals, v.HandlerEnds h) {earlier later : List (Taken η)}
    {v : Taken η} (hv : takeAll h s arrivals = earlier ++ v :: later) :
    ((∀ u ∈ earlier ++ [v], u.mcause.getLsbD 31 = true) → ∃ s', v.result = .ok v.mepc s') ∧
    ((∃ u ∈ earlier ++ [v], u.mcause.getLsbD 31 = false) →
      v.mcause.toNat % 2 ^ 31 + 1 < 2 ^ 32 ∧
      ∃ t s', v.result = .error (.exit (v.mcause.toNat % 2 ^ 31 + 1)) s' ∧
        s'.accesses = v.start.accesses ++ t ++ lastLine) ∧
    ∀ mcause : BitVec 64, mcause.setWidth 32 = v.mcause.setWidth 32 →
      h.handleTrap mcause v.mepc v.start = v.result := by
  subst hh
  have hphase : s.rest.phase = some .idle :=
    (ends_initInterrupts hglobal hclass hnew id config service).of_ok hinit
  obtain ⟨hresult, hstart, hf⟩ :=
    phase_of_takeAll rfl hcustom hmeantime hhandlers (.inl rfl) hphase hv
  have hmem : v ∈ takeAll (host core pause custom hart patience) s arrivals := by
    rw [hv]
    exact List.mem_append_right _ List.mem_cons_self
  obtain ⟨hresumed, hexited, -, -⟩ :=
    taken_of_phase rfl hcustom hresult (hhandlers v hmem) hf hstart
  have hnext : v.next (earlier.foldl Taken.next .idle) =
      (earlier ++ [v]).foldl Taken.next .idle := by
    rw [List.foldl_append]
    rfl
  rw [hnext] at hresumed hexited
  refine ⟨fun hall => hresumed (Taken.foldl_next_of_forall hall), fun hexception => ⟨?_, ?_⟩,
    fun mcause hsame => ?_⟩
  · have hlt : v.mcause.toNat % 2 ^ 31 < 2 ^ 31 := Nat.mod_lt _ (by decide)
    omega
  · exact hexited (Taken.foldl_next_of_exists hexception)
  · rw [hresult, Host.handleTrap, Host.handleTrap, hsame]

/-- A board out of reset, with a program that has set up nothing. -/
def resting : Station Unit State where
  board := {}
  buffer := .new .byte 4
  rest := {}

/-- A program that nothing but timer interrupts and exceptions comes to. -/
def bareHost : Host (Station Unit State) :=
  host ⟨fun _ => pure false, fun _ _ => pure false⟩ (pure ()) (fun _ _ => pure ()) 0 1

/-- The timer, an interrupt of no class, an illegal instruction, and the timer again. -/
def faulting : List (Arrival Unit) :=
  [⟨id, 0xf80000007#64, 0x20000000#64⟩, ⟨id, 0x8000001f#64, 0x20000004#64⟩,
    ⟨id, 0x700000002#64, 0x20000008#64⟩, ⟨id, 0x80000007#64, 0x2000000c#64⟩]

lemma handlerEnds_faulting (s : Station Unit State) :
    ∀ v ∈ takeAll bareHost s faulting, v.HandlerEnds bareHost := by
  intro v hv c _ hc
  simp only [takeAll, faulting, List.mem_cons, List.not_mem_nil, or_false] at hv
  have h₁ : Trap.Cause.class? ⟨BitVec.setWidth 32 0xf80000007#64⟩ = some .timer := by decide
  have h₂ : Trap.Cause.class? ⟨BitVec.setWidth 32 0x8000001f#64⟩ = none := by decide
  have h₃ : Trap.Cause.class? ⟨BitVec.setWidth 32 0x700000002#64⟩ = none := by decide
  have h₄ : Trap.Cause.class? ⟨BitVec.setWidth 32 0x80000007#64⟩ = some .timer := by decide
  rcases hv with rfl | rfl | rfl | rfl
  · cases h₁.symm.trans hc
    exact ⟨_, rfl⟩
  · cases h₂.symm.trans hc
  · cases h₃.symm.trans hc
  · cases h₄.symm.trans hc
    exact ⟨_, rfl⟩

theorem traps_resume_until_exception_faulting :
    ∃ s v₁ v₂ v₃ v₄, bareHost.initInterrupts 9#32 {} (.custom 0) resting = .ok () s ∧
      takeAll bareHost s faulting = [v₁, v₂, v₃, v₄] ∧
      (∃ s', v₂.result = .ok 0x20000004#64 s') ∧
      (∃ t s', v₃.result = .error (.exit 3) s' ∧
        s'.accesses = v₃.start.accesses ++ t ++ lastLine) ∧
      ∃ t s', v₄.result = .error (.exit 8) s' ∧
        s'.accesses = v₄.start.accesses ++ t ++ lastLine := by
  obtain ⟨s, hinit⟩ : ∃ s, bareHost.initInterrupts 9#32 {} (.custom 0) resting = .ok () s :=
    ⟨_, rfl⟩
  have hmeantime : ∀ a ∈ faulting, ∀ s, SamePhase s (a.meantime s) := by
    intro a ha s'
    fin_cases ha <;> rfl
  obtain ⟨v₁, v₂, v₃, v₄, hall, hc₁, hc₂, hc₃, hc₄, ha₂⟩ : ∃ v₁ v₂ v₃ v₄,
      takeAll bareHost s faulting = [v₁, v₂, v₃, v₄] ∧ v₁.mcause = 0xf80000007#64 ∧
      v₂.mcause = 0x8000001f#64 ∧ v₃.mcause = 0x700000002#64 ∧ v₄.mcause = 0x80000007#64 ∧
      v₂.mepc = 0x20000004#64 := ⟨_, _, _, _, rfl, rfl, rfl, rfl, rfl, rfl⟩
  have hsecond : takeAll bareHost s faulting = [v₁] ++ v₂ :: [v₃, v₄] := hall
  have hthird : takeAll bareHost s faulting = [v₁, v₂] ++ v₃ :: [v₄] := hall
  have hfourth : takeAll bareHost s faulting = [v₁, v₂, v₃] ++ v₄ :: [] := hall
  have hexits := fun {earlier later v} (hv : takeAll bareHost s faulting = earlier ++ v :: later) =>
    traps_resume_until_exception _ _ _ _ _ rfl (fun _ => Proc.keeps_pure _)
      (fun _ _ => Proc.keeps_pure _) (fun _ _ => Proc.keeps_pure _) rfl hinit faulting hmeantime
      (handlerEnds_faulting s) hv
  refine ⟨s, v₁, v₂, v₃, v₄, hinit, hall, ?_, ?_, ?_⟩
  · rw [← ha₂]
    refine (hexits hsecond).1 ?_
    simp [hc₁, hc₂]
  · have h := ((hexits hthird).2.1 ⟨v₃, by simp, by rw [hc₃]; decide⟩).2
    rwa [hc₃] at h
  · have h := ((hexits hfourth).2.1 ⟨v₃, by simp, by rw [hc₃]; decide⟩).2
    rwa [hc₄] at h

end Station

end BoardSupport
