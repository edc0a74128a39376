import BoardSupport.Proofs.Batching
import BoardSupport.Proofs.Service

/-!
The policy with receptions.

A reception takes all that waits in its channel's receive queue, wherever it puts it, so it removes
the condition of the channel unless the transmit side signals as well. With receptions for the
channels, and handlers without an access for the other sources, the policy serves what waits when it
is entered, each source once.
-/

namespace BoardSupport

lemma Queues.pending_eq_zero {q : Queues} (hrx : q.receivePending = false)
    (htx : q.transmitPending = false) : q.pending = 0#32 := by
  rw [pending, hrx, htx]
  decide

lemma Link.base_add_ne_claimAddress (link : Link) {o : ℕ} (h : o < MemoryMap.blockSize) :
    link.base + o ≠ claimAddress := by
  intro heq
  have hplace := Board.place_channel link h
  rw [heq, Board.place_claimAddress] at hplace
  cases hplace

namespace Station

variable {η τ : Type} {link : Link} {q : Queues} {s s₁ : Station η τ}
  {log : Log.Record → Proc (Station η τ) Unit} {patience : ℕ}

/-! ### One channel at work -/

/-- From one station to the other only this channel changed, and its queues came to be `q`. -/
structure Became (link : Link) (q : Queues) (s s' : Station η τ) : Prop where
  moves : Moves (ownedBy link.source) [] s.board.arbiter s s'
  queues : s'.board.queues link = q

lemma Became.aside {α : Type} {x : Proc (Station η τ) α} (h : Became link q s s₁) (hx : Aside x) :
    x.Ends s₁ (fun _ s₂ => Became link q s s₂) fun _ => False := by
  refine (hx s₁).imp fun _ s₂ hun => ?_
  have hmoves := hun h.moves.calm
  exact ⟨h.moves.still hmoves.widen, (hmoves.others link not_false).trans h.queues⟩

/-- A load from the channel leaves no mark. -/
lemma Became.saw {q' : Queues} (h : Became link q s s₁) {o : ℕ} (ho : o < MemoryMap.blockSize)
    (v : Word) {board : Board} (harbiter : board.arbiter = s₁.board.arbiter)
    (hqueues : board.queues link = q')
    (hothers : ∀ l ≠ link, board.queues l = s₁.board.queues l) :
    Became link q' s (s₁.saw board (.load (link.base + o) .word v)) := by
  have hload : Moves (ownedBy link.source) [] s₁.board.arbiter s₁
      (s₁.saw board (.load (link.base + o) .word v)) := by
    refine ⟨h.moves.calm, harbiter, fun l hl => hothers l ?_, ⟨_, rfl, ?_⟩, by simp [harbiter]⟩
    · rintro rfl
      exact hl rfl
    · simp [marks, mark?, link.base_add_ne_claimAddress ho]
  exact ⟨h.moves.still hload, hqueues⟩

lemma Became.read (h : Became link q s s₁) {o : ℕ} {u : Word} (ho : o < MemoryMap.blockSize)
    (hne : o ≠ link.layout.rx + QueueRegister.data) (hu : q.read? link.layout o = some u) :
    ((link.channel (platform log patience)).regs.read o).Ends s₁
      (fun v s₂ => v = u ∧ Became link q s s₂) fun _ => False := by
  rw [link.read_eq _ ho, ends_load, meanwhile_of_calm h.moves.calm,
    Board.load_register _ _ _ ho hne, h.queues, hu]
  exact ⟨rfl, h.saw ho _ rfl h.queues fun _ _ => rfl⟩

lemma Became.pendingIrqs (h : Became link q s s₁) :
    (link.channel (platform log patience)).pendingIrqs.Ends s₁
      (fun v s₂ => v = q.pending ∧ Became link q s s₂) fun _ => False :=
  h.read (o := link.layout.pending) (by cases link <;> decide) (by cases link <;> decide)
    (by cases link <;> rfl)

lemma Became.rxLength (h : Became link q s s₁) :
    (link.channel (platform log patience)).rxLength.Ends s₁
      (fun v s₂ => v = BitVec.ofNat 32 q.rx.length ∧ Became link q s s₂) fun _ => False :=
  h.read (o := link.layout.rx + QueueRegister.length) (by cases link <;> decide)
    (by cases link <;> decide) (by cases link <;> rfl)

lemma Became.readUnit (h : Became link q s s₁) (w : Width) {u : Word} {rest : List Word}
    (hu : q.rx = u :: rest) :
    ((link.channel (platform log patience)).readUnit w).Ends s₁
      (fun _ s₂ => Became link { q with rx := rest } s s₂) fun _ => False := by
  rw [Link.readUnit_eq, Proc.ends_bind, ends_load, meanwhile_of_calm h.moves.calm, Board.load_data,
    h.queues]
  simp only [Queues.take?, hu, Proc.ends_pure]
  exact h.saw link.data_lt _ (Board.setQueues_arbiter ..) (Board.queues_setQueues ..)
    fun l hl => Board.queues_setQueues_of_ne _ _ hl

lemma Became.fill {buffer : Cell (Station η τ) ReceiveBuffer}
    (hbuffer : ∀ f, Aside (buffer.update f)) (h : Became link q s s₁) (w : Width) (start : ℕ) :
    (ReceiveBuffer.fill buffer (fun _ => (link.channel (platform log patience)).readUnit w)
      start q.rx.length 0 0).Ends s₁ (fun _ s₂ => Became link { q with rx := [] } s s₂)
      fun _ => False := by
  refine (ReceiveBuffer.ends_fill (M := fun i _ s₂ => Became link { q with rx := q.rx.drop i } s s₂)
    (fun i hi stored s₂ h₂ => ?_) h).imp fun _ s₂ h₂ => ?_
  · refine (h₂.readUnit w (List.drop_eq_getElem_cons hi)).imp fun unit s₃ h₃ => ⟨fun _ => ?_, ?_⟩
    · exact (Cell.ends_update _ _).1 (h₃.aside (hbuffer (·.write (start + stored) unit)))
    · exact fun _ => h₃
  · rwa [List.drop_length] at h₂

/-- A reception of the channel, whose buffer and counter have nothing to do with the board. -/
structure Receives (p : Platform (Station η τ)) (link : Link) (r : Reception (Station η τ)) :
    Prop where
  channel : r.channel = link.channel p
  buffer : ∀ f, Aside (r.buffer.update f)
  completions : ∀ f, Aside (r.completions.update f)

section

variable {r : Reception (Station η τ)} (hlog : ∀ r, Aside (log r))
  (hr : Receives (platform log patience) link r)

include hlog hr

lemma Became.append (h : Became link q s s₁) (w : Width) :
    (ReceiveBuffer.append (platform log patience) r.buffer q.rx.length
      fun _ => (link.channel (platform log patience)).readUnit w).Ends s₁
      (fun _ s₂ => Became link { q with rx := [] } s s₂) fun _ => False := by
  unfold ReceiveBuffer.append
  rw [Proc.ends_bind, Cell.ends_read, Proc.ends_bind]
  refine (h.fill hr.buffer w _).imp fun stored s₂ h₂ => ?_
  -- whether or not units were lost, what is stored is published
  have publish : ∀ {s₂ : Station η τ} (f : ReceiveBuffer → ReceiveBuffer),
      Became link { q with rx := [] } s s₂ →
      (do r.buffer.update f; return stored : Proc (Station η τ) ℕ).Ends s₂
        (fun _ s₃ => Became link { q with rx := [] } s s₃) fun _ => False := by
    intro s₂ f h₂
    rw [Proc.ends_bind]
    exact (h₂.aside (hr.buffer f)).imp fun _ s₃ h₃ => (Proc.ends_pure stored).2 h₃
  split
  · rw [Proc.ends_bind]
    refine (h₂.aside (hr.buffer _)).imp fun _ s₃ h₃ => ?_
    rw [Proc.ends_bind]
    exact (h₃.aside (hlog _)).imp fun _ s₄ h₄ => publish _ h₄
  · exact publish _ h₂

/-- A reception settles the source of its channel, also when it is claimed without need. -/
lemma settles_reception {b : Board} (htx : (b.queues link).transmitPending = false)
    (hlen : (b.queues link).rx.length < 2 ^ 32) (id : Word) :
    Settles b link.source (r.handle id) := by
  intro s hcalm hs
  have hstart : Became link (b.queues link) s s :=
    ⟨(moves_refl hcalm).widen, hs link rfl⟩
  have hend : ∀ {q : Queues} {s' : Station η τ}, Became link q s s' → q.pending = 0#32 →
      Moves (ownedBy link.source) [] s.board.arbiter s s' ∧
        s'.board.signals link.source = false := by
    intro q s' h hq
    refine ⟨h.moves, ?_⟩
    rw [Board.signals_source, h.queues, hq]
    rfl
  unfold Reception.handle
  rw [hr.channel, Proc.ends_bind]
  refine hstart.pendingIrqs.imp ?_
  rintro _ s₁ ⟨rfl, h₁⟩
  rw [Queues.isSet_pending]
  split
  · -- the queue is emptied, and with it the line goes quiet
    rw [Proc.ends_bind]
    refine h₁.rxLength.imp ?_
    rintro _ s₂ ⟨rfl, h₂⟩
    dsimp only
    rw [BitVec.toNat_ofNat, Nat.mod_eq_of_lt hlen, Proc.ends_bind, Cell.ends_read, Proc.ends_bind]
    refine (h₂.append hlog hr _).imp fun stored s₃ h₃ => ?_
    rw [Proc.ends_bind]
    refine (h₃.aside (hr.completions _)).imp fun _ s₄ h₄ => ?_
    simp only [Proc.ends_bind, Cell.ends_read]
    refine (h₄.aside (hlog _)).imp fun _ s₅ h₅ => hend h₅ ?_
    exact Queues.pending_eq_zero (by simp [Queues.receivePending]) htx
  · next hrx =>
    -- it was quiet from the start
    refine (h₁.aside (hlog _)).imp fun _ s₂ h₂ => hend h₂ ?_
    exact Queues.pending_eq_zero (by simpa using hrx) htx

end

/-- **Serving what waits.** Let every channel whose source waits not signal its transmit condition
and be served by a reception of its own, and let the other handlers make no access. Then the policy
returns the number of the sources that waited when it was entered. It claimed and completed them in
order of priority, and of equal priorities the lower number first; each had its handler called once
in between, if it has one. After that no interrupt is asserted. What a receive queue holds has to be
told by its length register, which is wide enough for far more than the capacity. -/
theorem process_serves_agenda (log : Log.Record → Proc (Station η τ) Unit)
    (hlog : ∀ r, Aside (log r)) (patience : ℕ) (table : SourceTable η)
    (serve : η → Word → Proc (Station η τ) Unit) (s : Station η τ) (hcalm : s.schedule = [])
    (hreceive : ∀ link : Link, link.source ∈ s.board.waiting →
      (s.board.queues link).transmitPending = false ∧ (s.board.queues link).rx.length < 2 ^ 32 ∧
      ∃ h r, table.get? (BitVec.ofNat 32 link.source) = some h ∧
        Receives (platform log patience) link r ∧
        serve h (BitVec.ofNat 32 link.source) = r.handle (BitVec.ofNat 32 link.source))
    (hother : ∀ id ∈ s.board.waiting, (∀ link : Link, link.source ≠ id) →
      ∀ h, table.get? (BitVec.ofNat 32 id) = some h → Aside (serve h (BitVec.ofNat 32 id)))
    (hpatience : s.board.waiting.length ≤ patience) :
    ∃ t s', SourceTable.process (platform log patience) (.fixed table) (marked serve) s =
        .ok s.board.waiting.length s' ∧
      s'.board.arbiter.events = s.board.arbiter.events ++
        s.board.agenda.flatMap (fun id => [.claim id, .complete id]) ∧
      s'.trace = s.trace ++ t ∧
      marks t = s.board.agenda.flatMap (fun id => service table.get? (BitVec.ofNat 32 id)) ∧
      s'.board.interruptAsserted = false := by
  have htended : Tended table serve s.board := by
    intro id hid h hget
    by_cases hlink : ∃ link : Link, link.source = id
    · obtain ⟨link, rfl⟩ := hlink
      obtain ⟨htx, hlen, h', r, hget', hr, hserve⟩ := hreceive link hid
      obtain rfl : h' = h := Option.some.inj (hget'.symm.trans hget)
      rw [hserve]
      exact settles_reception hlog hr htx hlen _
    · -- a source without a line is quiet once it is claimed
      rw [not_exists] at hlink
      exact settles_aside (hother id hid hlink h hget) hlink _
  have hfree : ∀ id ∈ s.board.waiting, ¬ Stuck table s.board id := by
    rintro id hid ⟨hget, hsignals⟩
    by_cases hlink : ∃ link : Link, link.source = id
    · obtain ⟨link, rfl⟩ := hlink
      obtain ⟨-, -, h, r, hget', -⟩ := hreceive link hid
      rw [hget] at hget'
      cases hget'
    · rw [not_exists] at hlink
      rw [Board.signals_of_ne hlink] at hsignals
      cases hsignals
  obtain ⟨s', hrun, hquiet, ⟨t, ht, hm⟩, hevents⟩ :=
    process_of_not_stuck hlog hcalm htended hfree hpatience
  rw [events_services _ fun id hid => (Board.mem_agenda.1 hid).1] at hevents
  exact ⟨t, s', hrun, hevents, ht, hm, hquiet⟩

/-- Where the second of two receptions puts its units. -/
def spareCell : Cell (Station (Option Link) ReceiveBuffer) ReceiveBuffer :=
  ⟨rest, fun b s => { s with rest := b }⟩

/-- Receptions for two channels; the handler of a pin does nothing. -/
def serveMixed (h : Option Link) (id : Word) : Proc (Station (Option Link) ReceiveBuffer) Unit :=
  match h with
  | some .uart => (reception (platform (fun _ => pure ()) 4) .uart).handle id
  | some link => Reception.handle
    ⟨link.channel (platform (fun _ => pure ()) 4), spareCell, completionsCell⟩ id
  | none => pure ()

def mixedTable : SourceTable (Option Link) :=
  SourceTable.empty.registerAll [(0#32, some .uart), (3#32, some .i2c), (8#32, none)]

/-- Two channels have units, the first with a request on top, and two pins ask for service, one of
them without a handler. All but the first channel have the same priority. -/
def mixed : Station (Option Link) ReceiveBuffer where
  board :=
    { uart := { rx := [1#32, 2#32], enable := 2#32, rxThreshold := 1#32 }
      i2c := { rx := [3#32], enable := 2#32, rxThreshold := 1#32 }
      arbiter :=
        { priority := (Vector.replicate _ 7#32).setIfInBounds 0 1#32
          enable := #v[0x309#32, 0#32]
          raised := 0x301#64 } }
  buffer := .new .byte 1
  rest := .new .byte 4

theorem process_serves_agenda_mixed :
    ∃ t s', SourceTable.process (platform (fun _ => pure ()) 4) (.fixed mixedTable)
        (marked serveMixed) mixed = .ok 4 s' ∧
      s'.board.arbiter.events = [.claim 3, .complete 3, .claim 8, .complete 8, .claim 9,
        .complete 9, .claim 0, .complete 0] ∧
      s'.trace = t ∧
      marks t = [.claim 3#32, .enter (some .i2c) 3#32, .leave (some .i2c) 3#32, .complete 3#32,
        .claim 8#32, .enter none 8#32, .leave none 8#32, .complete 8#32,
        .claim 9#32, .complete 9#32,
        .claim 0#32, .enter (some .uart) 0#32, .leave (some .uart) 0#32, .complete 0#32] ∧
      s'.board.interruptAsserted = false := by
  have hwaiting : mixed.board.waiting = [0, 3, 8, 9] := by decide +kernel
  have hagenda : mixed.board.agenda = [3, 8, 9, 0] := by decide +kernel
  have hreceive : ∀ link : Link, link.source ∈ mixed.board.waiting →
      (mixed.board.queues link).transmitPending = false ∧
      (mixed.board.queues link).rx.length < 2 ^ 32 ∧
      ∃ h r, mixedTable.get? (BitVec.ofNat 32 link.source) = some h ∧
        Receives (platform (fun _ => pure ()) 4) link r ∧
        serveMixed h (BitVec.ofNat 32 link.source) = r.handle (BitVec.ofNat 32 link.source) := by
    intro link hlink
    rw [hwaiting] at hlink
    have hcompletions : ∀ f, Aside (completionsCell.update f :
        Proc (Station (Option Link) ReceiveBuffer) Unit) := fun f _ =>
      (Cell.ends_update _ f).2 (unmoved_of_eq rfl rfl rfl)
    cases link with
    | uart =>
      exact ⟨by decide, by decide, some .uart, reception _ .uart, by decide,
        ⟨rfl, fun f _ => (Cell.ends_update _ f).2 (unmoved_of_eq rfl rfl rfl), hcompletions⟩, rfl⟩
    | i2c =>
      exact ⟨by decide, by decide, some .i2c, ⟨Link.i2c.channel _, spareCell, completionsCell⟩,
        by decide, ⟨rfl, fun f _ => (Cell.ends_update _ f).2 (unmoved_of_eq rfl rfl rfl),
          hcompletions⟩, rfl⟩
    | spi0 => exact absurd hlink (by decide)
    | spi1 => exact absurd hlink (by decide)
  have hother : ∀ id ∈ mixed.board.waiting, (∀ link : Link, link.source ≠ id) →
      ∀ h, mixedTable.get? (BitVec.ofNat 32 id) = some h →
        Aside (serveMixed h (BitVec.ofNat 32 id)) := by
    intro id hid hlink h hget
    rw [hwaiting] at hid
    fin_cases hid
    · exact absurd rfl (hlink .uart)
    · exact absurd rfl (hlink .i2c)
    · obtain rfl : none = h := Option.some.inj hget
      exact Proc.keeps_pure ()
    · cases hget
  have hrun := process_serves_agenda (fun _ => pure ()) (fun _ => Proc.keeps_pure ()) 4 mixedTable
    serveMixed mixed rfl hreceive hother (by rw [hwaiting]; decide)
  rw [hwaiting, hagenda] at hrun
  exact hrun

end Station

end BoardSupport
