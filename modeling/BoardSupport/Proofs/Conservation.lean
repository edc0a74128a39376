import BoardSupport.Proofs.ReceiveBuffer
import BoardSupport.Proofs.Station

/-!
Reception by interrupts loses, doubles and reorders nothing.

What waited in the receive queue of a channel and what arrived there is, in order, what was
drained and what still waits; and the buffer made of the drained units what a buffer makes of
units that it is given. Every step of a station keeps this law, so every run does.
-/

namespace BoardSupport.Station

variable {η τ α : Type} {link : Link} {s s' s'' : Station η τ} {t t' : List (Happening η)}

/-- The units of the channel's peer that found a place, in order. -/
def accepted (link : Link) (t : List (Happening η)) : List Word :=
  t.filterMap fun
    | .sent l unit true => if l = link then some unit else none
    | _ => none

/-- The units taken from the channel's receive data register, in order. -/
def drained (link : Link) (t : List (Happening η)) : List Word :=
  t.filterMap fun
    | .load a _ v => if a = link.dataAddress then some v else none
    | _ => none

@[simp] lemma accepted_append : accepted link (t ++ t') = accepted link t ++ accepted link t' :=
  List.filterMap_append

@[simp] lemma drained_append : drained link (t ++ t') = drained link t ++ drained link t' :=
  List.filterMap_append

@[simp] lemma accepted_nil : accepted link ([] : List (Happening η)) = [] := rfl
@[simp] lemma drained_nil : drained link ([] : List (Happening η)) = [] := rfl

/-- One stretch after the other. -/
lemma queue_append (h : s.rx link ++ accepted link t = drained link t ++ s'.rx link)
    (h' : s'.rx link ++ accepted link t' = drained link t' ++ s''.rx link) :
    s.rx link ++ accepted link (t ++ t') = drained link (t ++ t') ++ s''.rx link := by
  rw [accepted_append, drained_append, ← List.append_assoc, h, List.append_assoc, h',
    List.append_assoc]

/-- The law of conservation for what happened from `s` to `s'`. -/
structure Carried (link : Link) (s s' : Station η τ) (t : List (Happening η)) : Prop where
  trace : s'.trace = s.trace ++ t
  queue : s.rx link ++ accepted link t = drained link t ++ s'.rx link
  buffer : s.buffer.Took (drained link t) s'.buffer

lemma Carried.trans (h : Carried link s s' t) (h' : Carried link s' s'' t') :
    Carried link s s'' (t ++ t') := by
  refine ⟨by rw [h'.trace, h.trace, List.append_assoc], queue_append h.queue h'.queue, ?_⟩
  rw [drained_append]
  exact h.buffer.trans h'.buffer

def Conserves (link : Link) (s s' : Station η τ) : Prop := ∃ t, Carried link s s' t

instance : IsPreorder (Station η τ) (Conserves link) where
  refl s := ⟨[], by simp, by simp, ReceiveBuffer.took_nil _⟩
  trans _ _ _ := fun ⟨t, h⟩ ⟨t', h'⟩ => ⟨t ++ t', h.trans h'⟩

/-! ### Bystanders -/

/-- From `s` to `s'` nothing was drained from the channel, and the buffer was left alone. -/
def Apart (link : Link) (s s' : Station η τ) : Prop :=
  ∃ t, s'.trace = s.trace ++ t ∧ drained link t = [] ∧
    s'.rx link = s.rx link ++ accepted link t ∧ s'.buffer = s.buffer

lemma Apart.trans (h : Apart link s s') (h' : Apart link s' s'') : Apart link s s'' := by
  obtain ⟨t, ht, hd, hq, hb⟩ := h
  obtain ⟨t', ht', hd', hq', hb'⟩ := h'
  exact ⟨t ++ t', by rw [ht', ht, List.append_assoc], by rw [drained_append, hd, hd']; rfl,
    by rw [hq', hq, accepted_append, List.append_assoc], hb'.trans hb⟩

instance : IsPreorder (Station η τ) (Apart link) where
  refl s := ⟨[], by simp, rfl, by simp, rfl⟩
  trans _ _ _ := Apart.trans

lemma Apart.conserves (h : Apart link s s') : Conserves link s s' := by
  obtain ⟨t, ht, hd, hq, hb⟩ := h
  refine ⟨t, ht, by rw [hd, hq]; rfl, ?_⟩
  rw [hd, hb]; exact ReceiveBuffer.took_nil _

/-- A procedure that leaves the reception on the channel alone. -/
abbrev Bystander (link : Link) (E : Halt → Prop) (x : Proc (Station η τ) α) : Prop :=
  Proc.Keeps (Apart link) E x

lemma Bystander.conserves {E : Halt → Prop} {x : Proc (Station η τ) α} (h : Bystander link E x) :
    Proc.Keeps (Conserves link) E x := fun s => (h s).imp fun _ _ => Apart.conserves

lemma apart_of_eq (hq : s'.rx link = s.rx link) (hb : s'.buffer = s.buffer)
    (ht : s'.trace = s.trace) : Apart link s s' := ⟨[], by simp [ht], rfl, by simp [hq], hb⟩

/-- What happens outside adds to the receive queue what it says it adds. -/
lemma act_apart (a : Outside) : Apart link s (s.act a) := by
  cases a with
  | send l unit =>
    refine ⟨[.sent l unit (s.board.peerSend l unit).1], rfl, rfl, ?_, rfl⟩
    rw [act, saw_rx]
    simp only [rx, Board.peerSend, accepted]
    by_cases hl : l = link
    · subst hl
      by_cases hroom : (s.board.queues l).rx.length < Queues.capacity <;>
        simp [Queues.arrive, hroom]
    · -- what another link is sent does not arrive here
      rw [Board.queues_setQueues_of_ne _ _ (Ne.symm hl)]
      by_cases hroom : (s.board.queues l).rx.length < Queues.capacity <;> simp [hroom, hl]
  | take l n =>
    refine apart_of_eq ?_ rfl rfl
    by_cases hl : l = link
    · subst hl; simp [act, rx, Board.peerDrain, Queues.drain]
    · simp only [act, rx, Board.peerDrain]
      rw [Board.queues_setQueues_of_ne _ _ (Ne.symm hl)]
  | rewire l wire =>
    refine apart_of_eq ?_ rfl rfl
    by_cases hl : l = link
    · subst hl; simp [act, rx, Board.setWire]
    · simp only [act, rx, Board.setWire]
      rw [Board.queues_setQueues_of_ne _ _ (Ne.symm hl)]
  | request id =>
    rw [act_request]
    exact apart_of_eq (by simp [rx]) rfl rfl

lemma meanwhile_apart (link : Link) (s : Station η τ) : Apart link s s.meanwhile :=
  meanwhile_of_act (fun _ o => act_apart o) (fun _ => apart_of_eq rfl rfl rfl) s

section

variable {log : Log.Record → Proc (Station η τ) Unit} {patience : ℕ} {E : Halt → Prop}

/-- A load anywhere but at a receive data register. -/
lemma load_bystander {a : ℕ} (h : ∀ l : Link, a ≠ l.dataAddress) (w : Width) :
    Bystander link E ((platform log patience).load a w) := by
  intro s
  rw [ends_load]
  split
  · next v board hb =>
    refine (meanwhile_apart link s).trans ⟨[.load a w v], rfl, by simp [drained, h link], ?_, rfl⟩
    rcases Board.load_cases hb with ⟨-, -, rfl⟩ | ⟨-, -, rfl⟩ | ⟨l, _, _, ha, -⟩
    · simp [rx, accepted]
    · simp [rx, accepted]
    · exact absurd ha (h l)
  · next f hb =>
    obtain ⟨l, ha, -⟩ := Board.load_error hb
    exact absurd ha (h l)

/-- A store outside the channel's register block. -/
lemma store_bystander {a : ℕ} (h : ∀ o, Board.place a ≠ .channel link o) (w : Width) (v : Word) :
    Bystander link E ((platform log patience).store a w v) := by
  intro s
  rw [ends_store]
  refine (meanwhile_apart link s).trans ⟨[.store a w v], rfl, rfl, ?_, rfl⟩
  simp [rx, Board.store_queues_of_place h, accepted]

/-! ### The handler -/

/-- The unit taken from a queue that is not empty is its first. -/
lemma ends_readUnit (w : Width) (h : s.rx link ≠ []) :
    ((link.channel (platform log patience)).readUnit w).Ends s (fun u s' => ∃ v t, u = w.cut v ∧
      s'.trace = s.trace ++ t ∧ drained link t = [v] ∧
      s.rx link ++ accepted link t = drained link t ++ s'.rx link ∧ s'.buffer = s.buffer) E := by
  rw [Link.readUnit_eq, Proc.ends_bind, ends_load]
  obtain ⟨t, ht, hd, hq, hb⟩ := meanwhile_apart link s
  have hne : s.meanwhile.rx link ≠ [] := by rw [hq]; simp [h]
  obtain ⟨v, rest, hv⟩ := List.exists_cons_of_ne_nil hne
  have hload : s.meanwhile.board.load link.dataAddress .word =
      .ok (v, s.meanwhile.board.setQueues { s.meanwhile.board.queues link with rx := rest }
        link) := by
    have hv' : (s.meanwhile.board.queues link).rx = v :: rest := hv
    simp [Board.load_data, Queues.take?, hv']
  simp only [hload, Proc.ends_pure]
  have hdrained : drained link (t ++ [.load link.dataAddress .word v]) = [v] := by
    rw [drained_append, hd]
    simp [drained]
  refine ⟨v, t ++ [.load link.dataAddress .word v], rfl, by simp [ht], hdrained, ?_, hb⟩
  rw [hdrained, accepted_append, ← List.append_assoc, ← hq, hv]
  simp [accepted]

/-- As many units as are asked for come out of the queue, and those for which there is a place
go into the buffer. -/
lemma ends_fill {start n : ℕ} (h : n ≤ (s.rx link).length) :
    (ReceiveBuffer.fill bufferCell
      (fun _ => (link.channel (platform log patience)).readUnit s.buffer.width) start n 0 0).Ends s
      (fun k s' => ∃ t, s'.trace = s.trace ++ t ∧ (drained link t).length = n ∧
        s.rx link ++ accepted link t = drained link t ++ s'.rx link ∧
        s'.buffer = s.buffer.writeFrom start (drained link t) ∧
        k = min n (s.buffer.capacity - start)) E := by
  refine (ReceiveBuffer.ends_fill_units bufferCell_lawful rfl (M := fun units s' => ∃ t,
    s'.trace = s.trace ++ t ∧ drained link t = units ∧
    s.rx link ++ accepted link t = drained link t ++ s'.rx link) ?_
    ⟨[], by simp, rfl, by simp⟩).imp ?_
  · rintro units s₁ hlt ⟨t₁, ht₁, rfl, hq₁⟩
    -- units are left, for what arrives only adds to those that waited
    have hne : s₁.rx link ≠ [] := by
      intro hnil
      have hlength := congrArg List.length hq₁
      rw [hnil, List.append_nil, List.length_append] at hlength
      omega
    refine (ends_readUnit s.buffer.width hne).imp ?_
    rintro _ s₂ ⟨v, t₂, rfl, ht₂, hd₂, hq₂, hb₂⟩
    refine ⟨v, rfl, hb₂, fun _ => ⟨t₁ ++ t₂, ?_, ?_, queue_append hq₁ hq₂⟩⟩
    · show s₂.trace = _
      rw [ht₂, ht₁, List.append_assoc]
    · rw [drained_append, hd₂]
  · rintro k s' ⟨_, hlength, ⟨t, ht, rfl, hq⟩, hb, hk⟩
    exact ⟨t, ht, hlength, hq, hb, hk⟩

/-- An append takes `n` units off the queue and gives them to the buffer. -/
lemma ends_append (hlog : ∀ r, Bystander link E (log r)) {n : ℕ} (h : n ≤ (s.rx link).length) :
    (ReceiveBuffer.append (platform log patience) bufferCell n
      (fun _ => (link.channel (platform log patience)).readUnit s.buffer.width)).Ends s
      (fun _ s' => ∃ t, Carried link s s' t ∧ (drained link t).length = n) E := by
  simp only [ReceiveBuffer.append, Proc.ends_bind, Cell.ends_read]
  refine (ends_fill h).imp ?_
  rintro k s₁ ⟨t₁, ht₁, hd₁, hq₁, hb₁, hk⟩
  have hk' : k = min n (s.buffer.capacity - s.buffer.count) := hk
  have hdropped : s₁.buffer.dropped = s.buffer.dropped := by
    rw [hb₁, ReceiveBuffer.writeFrom_dropped]
  -- whatever was logged in between, publishing ends the append
  have publish : ∀ s₂ : Station η τ,
      Apart link
        { s₁ with buffer := { s₁.buffer with dropped := s.buffer.dropped + (n - k) } } s₂ →
      ∃ t, Carried link s (bufferCell.put { s₂.buffer with count := s.buffer.count + k } s₂) t ∧
        (drained link t).length = n := by
    rintro s₂ ⟨t₂, ht₂, hd₂, hq₂, hb₂⟩
    have hflow : s₁.rx link ++ accepted link t₂ = drained link t₂ ++ s₂.rx link := by
      rw [hd₂, hq₂]
      rfl
    refine ⟨t₁ ++ t₂, ⟨?_, queue_append hq₁ hflow, ?_⟩, by simp [hd₁, hd₂]⟩
    · show s₂.trace = _
      rw [ht₂, ht₁, List.append_assoc]
    · have hput : (bufferCell.put { s₂.buffer with count := s.buffer.count + k } s₂).buffer =
          { s₂.buffer with count := s.buffer.count + k } := rfl
      have htook := s.buffer.took_writeFrom (drained link t₁)
      rw [hd₁, ← hk', show n - (s.buffer.capacity - s.buffer.count) = n - k by omega] at htook
      rw [drained_append, hd₂, List.append_nil, hput, hb₂, hb₁]
      exact htook
  split
  · -- the units that found no place are counted and logged
    simp only [Proc.ends_bind, Cell.ends_update, Proc.ends_pure]
    have hdrop : bufferCell.put { (bufferCell.get s₁) with
        dropped := (bufferCell.get s₁).dropped + (n - k) } s₁ =
        { s₁ with buffer := { s₁.buffer with dropped := s.buffer.dropped + (n - k) } } := by
      rw [← hdropped]
      rfl
    rw [hdrop]
    exact (hlog _ _).imp fun _ s₂ h₂ => publish s₂ h₂
  · next hle =>
    simp only [Proc.ends_bind, Cell.ends_update, Proc.ends_pure]
    refine publish s₁ (apart_of_eq rfl ?_ rfl)
    show s₁.buffer = { s₁.buffer with dropped := s.buffer.dropped + (n - k) }
    rw [← hdropped, show n - k = 0 by omega]
    rfl

lemma ends_pendingIrqs :
    ((link.channel (platform log patience)).pendingIrqs).Ends s (fun _ s' => Apart link s s')
      E := by
  have hread : (link.channel (platform log patience)).pendingIrqs =
      (platform log patience).load (link.base + link.layout.pending) .word :=
    link.read_eq (o := link.layout.pending) _ (by cases link <;> decide)
  rw [hread]
  exact load_bystander (by cases link <;> intro l <;> cases l <;> decide) .word s

/-- The length that is read is that of the queue, as far as it fits into a word. -/
lemma ends_rxLength_word :
    ((link.channel (platform log patience)).rxLength).Ends s
      (fun n s' => Apart link s s' ∧ n = BitVec.ofNat 32 (s'.rx link).length) E := by
  have hoff : link.layout.rx + QueueRegister.length ≠ link.layout.rx + QueueRegister.data := by
    cases link <;> decide
  have hlen : ∀ q : Queues, q.read? link.layout (link.layout.rx + QueueRegister.length) =
      some (BitVec.ofNat 32 q.rx.length) := by
    intro q; cases link <;> rfl
  rw [Link.rxLength_eq, ends_load, Board.load_register _ _ _ (by cases link <;> decide) hoff, hlen]
  refine ⟨(meanwhile_apart link s).trans
    ⟨[.load _ .word _], rfl, ?_, by simp [rx, accepted], rfl⟩, rfl⟩
  have hne : link.base + (link.layout.rx + QueueRegister.length) ≠ link.dataAddress := by
    cases link <;> decide
  simp [drained, hne]

/-- The length that is read is at most the length of the queue. -/
lemma ends_rxLength :
    ((link.channel (platform log patience)).rxLength).Ends s
      (fun n s' => Apart link s s' ∧ n.toNat ≤ (s'.rx link).length) E := by
  refine ends_rxLength_word.imp ?_
  rintro _ s' ⟨h, rfl⟩
  exact ⟨h, by simpa using Nat.mod_le _ _⟩

lemma handle_conserves (hlog : ∀ r, Bystander link E (log r)) (id : Word) :
    Proc.Keeps (Conserves link) E ((reception (platform log patience) link).handle id) := by
  intro s
  simp only [Reception.handle, Proc.ends_bind]
  refine ends_pendingIrqs.imp fun flags s₁ h₁ => ?_
  split
  · simp only [Proc.ends_bind, Cell.ends_read, Cell.ends_update]
    refine ends_rxLength.imp ?_
    rintro n s₂ ⟨h₂, hn⟩
    refine (ends_append hlog hn).imp ?_
    rintro k s₃ ⟨t, h₃, -⟩
    refine (hlog _ _).imp fun _ s₄ h₄ => ?_
    have h₃₄ : Apart link s₃ s₄ := Apart.trans (apart_of_eq rfl rfl rfl) h₄
    exact trans_of _ (h₁.trans h₂).conserves (trans_of _ ⟨t, h₃⟩ h₃₄.conserves)
  · -- nothing to receive, and only a record is made
    exact (hlog _ _).imp fun _ s₂ h₂ => (h₁.trans h₂).conserves

lemma claim_ne_dataAddress (l : Link) : claimAddress ≠ l.dataAddress := by
  cases l <;> decide

lemma trap_conserves {table : SourceTable η} {serve : η → Word → Proc (Station η τ) Unit}
    (hang : E .hang) (hlog : ∀ r, Bystander link E (log r))
    (hserve : ∀ h id, Proc.Keeps (Conserves link) E (serve h id)) (address : ℕ) :
    Proc.Keeps (Conserves link) E (trap (platform log patience) table serve address) := by
  have hlog' : ∀ r, Proc.Keeps (Conserves link) E ((platform log patience).log r) :=
    fun r => (hlog r).conserves
  have hphase : ∀ f, Proc.Keeps (Conserves link) E
      (phaseCell.update f : Proc (Station η τ) Unit) := by
    intro f s
    rw [Cell.ends_update]
    exact Apart.conserves (apart_of_eq rfl rfl rfl)
  have hclaim : Proc.Keeps (Conserves link) E
      ((platform log patience).load claimAddress .word) :=
    (load_bystander claim_ne_dataAddress .word).conserves
  have hcomplete : ∀ v, Proc.Keeps (Conserves link) E
      ((platform log patience).store claimAddress .word v) := fun v =>
    (store_bystander (by simp [Board.place_claimAddress]) .word v).conserves
  have hprocess : Proc.Keeps (Conserves link) E
      (SourceTable.process (platform log patience) (.fixed table) serve) :=
    Proc.keeps_process hang (fun r _ => hlog' r) hclaim hcomplete hserve
  refine Proc.keeps_dispatch (fun r _ => hlog' r) hphase (fun c => ?_) _ address
  cases c with
  | external => exact hprocess.discard
  | software => exact Proc.keeps_pure ()
  | timer => exact Proc.keeps_pure ()

end

/-! ### Runs -/

/-- Who serves a source: the reception of the channel, or someone else. -/
inductive Routine (κ : Type) where
  | reception
  | other (k : κ)

def serve {κ : Type} (p : Platform (Station (Routine κ) τ)) (link : Link)
    (other : κ → Word → Proc (Station (Routine κ) τ) Unit) :
    Routine κ → Word → Proc (Station (Routine κ) τ) Unit
  | .reception, id => (reception p link).handle id
  | .other k, id => other k id

/-- What happens to a station while no handler is running. -/
inductive Action where
  | outside (a : Outside)
  | interrupt (address : ℕ)

def perform (p : Platform (Station η τ)) (table : SourceTable η)
    (serve : η → Word → Proc (Station η τ) Unit) : Action → Proc (Station η τ) Unit
  | .outside a => modify (act · a)
  | .interrupt address => discard (trap p table serve address)

def run (p : Platform (Station η τ)) (table : SourceTable η)
    (serve : η → Word → Proc (Station η τ) Unit) : List Action → Proc (Station η τ) Unit
  | [] => pure ()
  | a :: rest => do
    perform p table serve a
    run p table serve rest

lemma run_conserves {log : Log.Record → Proc (Station η τ) Unit} {patience : ℕ} {E : Halt → Prop}
    {table : SourceTable η} {serve : η → Word → Proc (Station η τ) Unit} (hang : E .hang)
    (hlog : ∀ r, Bystander link E (log r))
    (hserve : ∀ h id, Proc.Keeps (Conserves link) E (serve h id)) (actions : List Action) :
    Proc.Keeps (Conserves link) E (run (platform log patience) table serve actions) := by
  induction actions with
  | nil => exact Proc.keeps_pure ()
  | cons a rest ih =>
    refine Proc.Keeps.bind ?_ fun _ => ih
    cases a with
    | outside a => exact fun s => (Proc.ends_modify _).2 (act_apart a).conserves
    | interrupt address => exact (trap_conserves hang hlog hserve address).discard

/-- **Conservation.** Whenever no handler is running, what waited and what the peer got in is what
was drained and what waits now, and the buffer kept the first of the drained units and counted the
rest. The run halts only where it waits for ever or where a bystander halts, so the reception
never reads an empty queue. -/
theorem reception_conserves {κ : Type} (link : Link) (table : SourceTable (Routine κ))
    (other : κ → Word → Proc (Station (Routine κ) τ) Unit)
    (log : Log.Record → Proc (Station (Routine κ) τ) Unit) (patience : ℕ) (halts : Halt → Prop)
    (hlog : ∀ r, Bystander link halts (log r)) (hother : ∀ k id, Bystander link halts (other k id))
    (s : Station (Routine κ) τ) (actions : List Action) :
    (run (platform log patience) table (serve (platform log patience) link other) actions).Ends s
      (fun _ s' => ∃ t D, s'.trace = s.trace ++ t ∧ D = drained link t ∧
        s.rx link ++ accepted link t = D ++ s'.rx link ∧
        s'.buffer.received = s.buffer.received ++
          (D.take (min D.length (s.buffer.capacity - s.buffer.count))).map s.buffer.width.cut ∧
        s'.buffer.dropped = s.buffer.dropped + D.length -
          min D.length (s.buffer.capacity - s.buffer.count))
      (fun e => e = .hang ∨ halts e) := by
  have weaken : ∀ {α : Type} {x : Proc (Station (Routine κ) τ) α}, Bystander link halts x →
      Bystander link (fun e => e = .hang ∨ halts e) x :=
    fun hx s => (hx s).mono (fun _ _ h => h) fun _ h => .inr h
  have hserve : ∀ h id, Proc.Keeps (Conserves link) (fun e => e = .hang ∨ halts e)
      (serve (platform log patience) link other h id) := by
    intro h id
    cases h with
    | reception => exact handle_conserves (fun r => weaken (hlog r)) id
    | other k => exact (weaken (hother k id)).conserves
  refine (run_conserves (.inl rfl) (fun r => weaken (hlog r)) hserve actions s).imp ?_
  rintro _ s' ⟨t, htrace, hqueue, hbuffer⟩
  refine ⟨t, drained link t, htrace, rfl, hqueue, ?_, ?_⟩
  · rw [hbuffer.received, List.take_eq_take_min, Nat.min_comm]
  · rw [hbuffer.dropped]; omega

/-- The reception serves the uart, and a pin is served by someone else. -/
def sharedTable : SourceTable (Routine Unit) :=
  ⟨((Vector.replicate _ none).setIfInBounds Source.uart (some .reception)).setIfInBounds 8
    (some (.other ()))⟩

/-- Two units wait at a uart that interrupts at one, a third comes during the drain, and a pin
asks for service while the buffer has room for two. -/
def busyUart : Station (Routine Unit) Unit where
  board :=
    { uart := { rx := [1#32, 0x102#32], enable := 2#32, rxThreshold := 1#32 }
      arbiter :=
        { priority := Vector.replicate _ 1#32
          enable := #v[0x101#32, 0#32] } }
  schedule := [[], [], [], [.send .uart 3#32, .request ⟨8, by decide⟩]]
  buffer := .new .byte 2
  rest := ()

/-- The service of a pin: its condition is acknowledged. -/
def acknowledge : Unit → Word → Proc (Station (Routine Unit) Unit) Unit := fun _ _ =>
  (platform (fun _ => pure ()) 8).store MemoryMap.gpio .word 1#32

/-- What was drained in a run, and what the peer of the uart got in. -/
def runOutcome : EStateM.Result Halt (Station (Routine Unit) Unit) Unit →
    Option (List Word × List Word)
  | .ok _ s => some (drained .uart s.trace, accepted .uart s.trace)
  | .error _ _ => none

/-- Both units are drained, then the one that came meanwhile; the last one still waits. The buffer
kept the bytes of two and counted the third. -/
theorem reception_conserves_busyUart :
    ∃ s', run (platform (fun _ => pure ()) 8) sharedTable
        (serve (platform (fun _ => pure ()) 8) .uart acknowledge)
        [.interrupt 0, .outside (.send .uart 4#32)] busyUart = .ok () s' ∧
      drained .uart s'.trace = [1#32, 0x102#32, 3#32] ∧
      accepted .uart s'.trace = [3#32, 4#32] ∧ s'.rx .uart = [4#32] ∧
      s'.buffer.received = [1#32, 2#32] ∧ s'.buffer.dropped = 1 := by
  have hplace : Board.place MemoryMap.gpio = .memory := rfl
  have hconserves := reception_conserves .uart sharedTable acknowledge (fun _ => pure ()) 8
    (fun _ => False) (fun _ => Proc.keeps_pure ())
    (fun _ _ => store_bystander (fun o => by simp [hplace]) .word _) busyUart
    [.interrupt 0, .outside (.send .uart 4#32)]
  have houtcome : runOutcome (run (platform (fun _ => pure ()) 8) sharedTable
      (serve (platform (fun _ => pure ()) 8) .uart acknowledge)
      [.interrupt 0, .outside (.send .uart 4#32)] busyUart) =
      some ([1#32, 0x102#32, 3#32], [3#32, 4#32]) := by decide +kernel
  cases hrun : run (platform (fun _ => pure ()) 8) sharedTable
      (serve (platform (fun _ => pure ()) 8) .uart acknowledge)
      [.interrupt 0, .outside (.send .uart 4#32)] busyUart with
  | error e s' =>
    rw [hrun] at houtcome
    cases houtcome
  | ok _ s' =>
    rw [hrun] at houtcome
    obtain ⟨hdrained, haccepted⟩ := Prod.mk.inj (Option.some.inj houtcome)
    obtain ⟨t, _, htrace, rfl, hqueue, hreceived, hdropped⟩ := hconserves.of_ok hrun
    obtain rfl : s'.trace = t := htrace
    rw [hdrained] at hqueue hreceived hdropped
    rw [haccepted] at hqueue
    have hleft : [1#32, 0x102#32, 3#32] ++ [4#32] = [1#32, 0x102#32, 3#32] ++ s'.rx .uart := hqueue
    exact ⟨s', rfl, hdrained, haccepted, (List.append_cancel_left hleft).symm, hreceived, hdropped⟩

end BoardSupport.Station
