import BoardSupport.Proofs.BlockingSend

/-!
The books of a channel balance.

Beside a board on which anything is done in any order, books are kept of one channel: what its
receive data register gave, what arrived at its receive queue, what was written to its transmit data
register. All that arrived and found a place was read or waits, in order. All that was written left,
waits or was dropped, and what was not dropped is on the line in order, as long as the line is
rewired only while nothing waits.
-/

namespace BoardSupport

/-- Address of the transmit data register. -/
def Link.transmitAddress (link : Link) : ℕ := link.base + (link.layout.tx + QueueRegister.data)

/-- Addresses of the controls that empty the queues. -/
def Link.clearAddresses (link : Link) : List ℕ :=
  [link.base + (link.layout.tx + QueueRegister.clear),
    link.base + (link.layout.rx + QueueRegister.clear)]

/-- A unit on its way to a queue, and whether it found a place there. -/
structure Passage where
  unit : Word
  kept : Bool

/-- The units that found a place, in order. -/
def kept (l : List Passage) : List Word := (l.filter (·.kept)).map (·.unit)

lemma kept_snoc (l : List Passage) (unit : Word) (b : Bool) :
    kept (l ++ [⟨unit, b⟩]) = kept l ++ if b then [unit] else [] := by
  cases b <;> simp [kept]

/-! ### Units in the queues -/

namespace Queues

variable {q : Queues} {read : List Word} {arrivals writes : List Passage}

/-- Whether the transmit queue takes a unit, and whether the receive queue does. -/
def txRoom (q : Queues) : Bool := decide (q.tx.length < capacity)
def rxRoom (q : Queues) : Bool := decide (q.rx.length < capacity)

/-- A unit that is written comes back. -/
def LeadsBack (q : Queues) : Prop := q.wire = .loopback ∧ q.txRoom = true

instance : Decidable q.LeadsBack := inferInstanceAs (Decidable (_ ∧ _))

/-- What arrived and found a place was read or waits, in order, and what did not was dropped. -/
structure Receives (q : Queues) (read : List Word) (arrivals : List Passage) : Prop where
  order : read ++ q.rx = kept arrivals
  count : (kept arrivals).length + q.droppedRx = arrivals.length

lemma Receives.arrive (h : q.Receives read arrivals) (unit : Word) :
    (q.arrive unit).Receives read (arrivals ++ [⟨unit, q.rxRoom⟩]) := by
  have hcount := h.count
  by_cases hroom : q.rx.length < capacity
  · refine ⟨?_, ?_⟩
    · simp [kept_snoc, Queues.arrive, rxRoom, hroom, ← h.order]
    · simp [kept_snoc, Queues.arrive, rxRoom, hroom]
      omega
  · refine ⟨?_, ?_⟩
    · simp [kept_snoc, Queues.arrive, rxRoom, hroom, h.order]
    · simp [kept_snoc, Queues.arrive, rxRoom, hroom]
      omega

lemma Receives.take (h : q.Receives read arrivals) {unit : Word} {rest : List Word}
    (hrx : q.rx = unit :: rest) :
    ({ q with rx := rest } : Queues).Receives (read ++ [unit]) arrivals := by
  refine ⟨?_, h.count⟩
  rw [← h.order, hrx, List.append_assoc]
  rfl

/-- What becomes of a unit that is written. -/
lemma transmit_cases (hq : q.tx.length ≤ capacity) (unit : Word) :
    (q.txRoom = false ∧ q.transmit unit = { q with droppedTx := q.droppedTx + 1 }) ∨
    (q.txRoom = true ∧ q.wire = .hold ∧ q.transmit unit = { q with tx := q.tx ++ [unit] }) ∨
    (q.txRoom = true ∧ q.wire = .sink ∧
      q.transmit unit = { q with transmitted := q.transmitted ++ [unit] }) ∨
    (q.txRoom = true ∧ q.wire = .loopback ∧
      q.transmit unit = { q with transmitted := q.transmitted ++ [unit] }.arrive unit) := by
  by_cases hfull : q.tx.length = capacity
  · refine .inl ⟨decide_eq_false hfull.not_lt, ?_⟩
    rw [transmit, if_pos hfull]
  · have hroom : q.txRoom = true := decide_eq_true (lt_of_le_of_ne hq hfull)
    have hwires : q.wire = .hold ∨ q.wire = .sink ∨ q.wire = .loopback := by
      cases q.wire <;> simp
    refine .inr ?_
    rcases hwires with hwire | hwire | hwire
    · exact .inl ⟨hroom, hwire, transmit_hold hwire hfull unit⟩
    · exact .inr (.inl ⟨hroom, hwire, by rw [transmit, if_neg hfull, hwire]⟩)
    · exact .inr (.inr ⟨hroom, hwire, transmit_loopback hwire hfull unit⟩)

/-- Of a write, the receive queue notices that the unit comes back. -/
lemma Receives.transmit (hq : q.tx.length ≤ capacity) (h : q.Receives read arrivals)
    (unit : Word) : (q.transmit unit).Receives read
      (if q.LeadsBack then arrivals ++ [⟨unit, q.rxRoom⟩] else arrivals) := by
  rcases transmit_cases hq unit with ⟨hroom, ht⟩ | ⟨-, hwire, ht⟩ | ⟨-, hwire, ht⟩ |
    ⟨hroom, hwire, ht⟩
  · -- a full queue drops the unit before it reaches the line
    rw [ht, if_neg (by simp [LeadsBack, hroom])]
    exact ⟨h.order, h.count⟩
  · rw [ht, if_neg (by simp [LeadsBack, hwire])]
    exact ⟨h.order, h.count⟩
  · rw [ht, if_neg (by simp [LeadsBack, hwire])]
    exact ⟨h.order, h.count⟩
  · -- the line leads back, and the unit arrives at the other queue
    have hsent : Receives { q with transmitted := q.transmitted ++ [unit] } read arrivals :=
      ⟨h.order, h.count⟩
    rw [ht, if_pos ⟨hwire, hroom⟩]
    exact hsent.arrive unit

/-- How many units left, wait or were dropped. -/
def handled (q : Queues) : ℕ := q.transmitted.length + q.tx.length + q.droppedTx

lemma handled_of_eased {q' : Queues} (h : Eased q q') : q'.handled = q.handled := by
  have hline := congrArg List.length h.line
  rw [line, line, List.length_append, List.length_append] at hline
  rw [handled, handled, hline, h.dropped]

lemma handled_transmit (hq : q.tx.length ≤ capacity) (unit : Word) :
    (q.transmit unit).handled = q.handled + 1 := by
  rcases transmit_cases hq unit with ⟨-, ht⟩ | ⟨-, -, ht⟩ | ⟨-, -, ht⟩ | ⟨-, -, ht⟩
  · rw [ht]
    rfl
  · simp only [ht, handled, List.length_append, List.length_singleton]
    ring
  · simp only [ht, handled, List.length_append, List.length_singleton]
    ring
  · rw [ht, handled_of_eased (eased_arrive _ unit)]
    simp only [handled, List.length_append, List.length_singleton]
    ring

/-- What was written and found a place is on the line in order, and units wait only where the line
holds them. -/
structure Lines (q : Queues) (writes : List Passage) : Prop where
  order : q.line = kept writes
  holds : q.tx ≠ [] → q.wire = .hold

lemma Lines.eased {q' : Queues} (h : q.Lines writes) (heased : Eased q q') : q'.Lines writes := by
  refine ⟨heased.line.trans h.order, fun hne => heased.wire.trans (h.holds ?_)⟩
  rintro hnil
  have hshort := heased.shorter
  rw [hnil, List.length_nil, Nat.le_zero, List.length_eq_zero_iff] at hshort
  exact hne hshort

lemma Lines.transmit (hq : q.tx.length ≤ capacity) (h : q.Lines writes) (unit : Word) :
    (q.transmit unit).Lines (writes ++ [⟨unit, q.txRoom⟩]) := by
  -- a unit that leaves at once is in order because nothing waits before it
  have hempty : q.wire ≠ .hold → q.tx = [] := fun hwire => by
    by_contra hne
    exact hwire (h.holds hne)
  have hleft : q.txRoom = true → q.wire ≠ .hold →
      ({ q with transmitted := q.transmitted ++ [unit] } : Queues).Lines
        (writes ++ [⟨unit, q.txRoom⟩]) := by
    intro hroom hwire
    refine ⟨?_, h.holds⟩
    rw [kept_snoc, hroom, ← h.order, line, line, hempty hwire]
    simp
  rcases transmit_cases hq unit with ⟨hroom, ht⟩ | ⟨hroom, hwire, ht⟩ | ⟨hroom, hwire, ht⟩ |
    ⟨hroom, hwire, ht⟩
  · rw [ht, hroom]
    refine ⟨?_, h.holds⟩
    rw [kept_snoc, ← h.order]
    exact (List.append_nil _).symm
  · rw [ht, hroom]
    refine ⟨?_, fun _ => hwire⟩
    rw [kept_snoc, ← h.order]
    exact (List.append_assoc ..).symm
  · rw [ht]
    exact hleft hroom (by rw [hwire]; decide)
  · rw [ht]
    exact (hleft hroom (by rw [hwire]; decide)).eased (eased_arrive _ unit)

end Queues

/-! ### What an operation does to the queues of a channel -/

namespace Queues

/-- The two differ at most in the registers of the interrupts. -/
def SameTraffic (q q' : Queues) : Prop :=
  ∃ enable txThreshold rxThreshold, q' = { q with enable, txThreshold, rxThreshold }

lemma sameTraffic_of_eq {q q' : Queues} (h : q' = q) : SameTraffic q q' :=
  ⟨q.enable, q.txThreshold, q.rxThreshold, h⟩

end Queues

namespace Board

variable {b b' : Board} {link : Link} {a : ℕ} {w : Width} {v : Word}

/-- What a load of full width gives, or zero where it faults. -/
def inFull (b : Board) (address : ℕ) : Word := (b.shown address .word).toOption.getD 0#32

/-- A load of the data register takes the first unit, and no other load touches the queues. -/
lemma load_queues (h : b.load a w = .ok (v, b')) (link : Link) :
    (a = link.dataAddress ∧ ∃ rest, (b.queues link).rx = b.inFull a :: rest ∧
      v = w.cut (b.inFull a) ∧ b'.queues link = { b.queues link with rx := rest }) ∨
    (a ≠ link.dataAddress ∧ b'.queues link = b.queues link) := by
  rcases load_cases h with ⟨-, hne, rfl⟩ | ⟨rfl, -, rfl⟩ | ⟨l, unit, q, rfl, hq, rfl, rfl⟩
  · exact .inr ⟨hne link, rfl⟩
  · exact .inr ⟨Station.claim_ne_dataAddress link, queues_arbiter ..⟩
  · -- the same address belongs to no other link
    by_cases hl : link = l
    · subst hl
      have hfull : b.inFull link.dataAddress = unit := by
        rw [inFull, shown, load_data, hq]
        rfl
      unfold Queues.take? at hq
      split at hq
      · cases hq
      · next rest hrx =>
        cases hq
        rw [hfull]
        exact .inl ⟨rfl, rest, hrx, rfl, queues_setQueues ..⟩
    · refine .inr ⟨?_, queues_setQueues_of_ne _ _ hl⟩
      revert hl
      cases link <;> cases l <;> decide

/-- A store writes a unit, empties a queue, or leaves the traffic alone. -/
lemma store_queues (hclear : a ∉ link.clearAddresses) :
    (a = link.transmitAddress ∧ (b.store a w v).queues link = (b.queues link).transmit (w.cut v)) ∨
    (a ≠ link.transmitAddress ∧ (b.queues link).SameTraffic ((b.store a w v).queues link)) := by
  by_cases ha : a = link.transmitAddress
  · subst ha
    have hwrite : (b.queues link).write? link.layout (link.layout.tx + QueueRegister.data)
        (w.cut v) = some ((b.queues link).transmit (w.cut v)) := by cases link <;> rfl
    refine .inl ⟨rfl, ?_⟩
    unfold store Link.transmitAddress
    rw [place_channel link (by cases link <;> decide)]
    simp only [hwrite, queues_setQueues]
  refine .inr ⟨ha, ?_⟩
  rcases store_cases b a w v with ⟨o, arbiter, -, -, hs⟩ | ⟨l, o, q, hplace, hq, hs⟩ | ⟨-, hs⟩
  · rw [hs]
    exact Queues.sameTraffic_of_eq (queues_arbiter ..)
  · -- of the registers of this link those that move units are excluded
    by_cases hl : link = l
    · subst hl
      obtain rfl := eq_of_place_channel hplace
      simp only [Link.clearAddresses, List.mem_cons, List.not_mem_nil, or_false, not_or,
        Nat.add_left_cancel_iff] at hclear
      rw [Link.transmitAddress, Nat.add_left_cancel_iff] at ha
      unfold Queues.write? at hq
      rw [if_neg hclear.1, if_neg ha, if_neg hclear.2] at hq
      rw [hs, queues_setQueues]
      split_ifs at hq <;> cases hq <;> exact ⟨_, _, _, rfl⟩
    · rw [hs]
      exact Queues.sameTraffic_of_eq (queues_setQueues_of_ne _ _ hl)
  · exact Queues.sameTraffic_of_eq (hs link)

end Board

/-! ### The books -/

/-- A load of the receive data register. -/
structure DataRead where
  width : Width
  /-- What the load gave. -/
  given : Word
  /-- What it would have given in full width. -/
  whole : Word

/-- A board and the books of one of its channels. -/
structure Books where
  board : Board := .new
  reads : List DataRead := []
  /-- Units sent by the peer, and units written to a line that leads back. -/
  arrivals : List Passage := []
  /-- Units written to the transmit data register. -/
  writes : List Passage := []

namespace Books

/-- Something is done to the board, and noted. A load that faults does nothing. -/
def enter (link : Link) (s : Books) : Operation → Books
  | .load a w =>
    match s.board.load a w with
    | .ok (v, board) =>
      { s with
        board
        reads := if a = link.dataAddress then s.reads ++ [⟨w, v, s.board.inFull a⟩] else s.reads }
    | .error _ => s
  | .store a w v =>
    let q := s.board.queues link
    { s with
      board := s.board.store a w v
      writes :=
        if a = link.transmitAddress then
          s.writes ++ [⟨w.cut v, q.txRoom⟩]
        else s.writes
      arrivals :=
        if a = link.transmitAddress ∧ q.LeadsBack then s.arrivals ++ [⟨w.cut v, q.rxRoom⟩]
        else s.arrivals }
  | .outside (.send l unit) =>
    { s with
      board := (s.board.peerSend l unit).2
      arrivals :=
        if l = link then s.arrivals ++ [⟨unit, (s.board.peerSend l unit).1⟩] else s.arrivals }
  | .outside o => { s with board := s.board.act o }

/-- The books of a channel after a run of operations on a board out of reset. -/
def after (link : Link) (ops : List Operation) : Books := ops.foldl (enter link) {}

variable {link : Link} {s s' : Books} {op : Operation} {ops : List Operation}

/-- The queues of the channel as they are now. -/
abbrev queues (s : Books) (link : Link) : Queues := s.board.queues link

/-- What an operation can do to the queues of the channel, and what is noted then. -/
inductive Entered (link : Link) (op : Operation) (s : Books) : Books → Prop where
  | nothing (board : Board) (h : (s.queues link).SameTraffic (board.queues link)) :
      Entered link op s { s with board }
  | read (board : Board) (w : Width) (unit : Word) (rest : List Word)
      (hrx : (s.queues link).rx = unit :: rest)
      (h : board.queues link = { s.queues link with rx := rest }) :
      Entered link op s { s with board, reads := s.reads ++ [⟨w, w.cut unit, unit⟩] }
  | sent (board : Board) (unit : Word) (h : board.queues link = (s.queues link).arrive unit) :
      Entered link op s
        { s with board, arrivals := s.arrivals ++ [⟨unit, (s.queues link).rxRoom⟩] }
  | written (board : Board) (unit : Word) (h : board.queues link = (s.queues link).transmit unit) :
      Entered link op s
        { s with
          board
          writes := s.writes ++ [⟨unit, (s.queues link).txRoom⟩]
          arrivals :=
            if (s.queues link).LeadsBack then s.arrivals ++ [⟨unit, (s.queues link).rxRoom⟩]
            else s.arrivals }
  | taken (board : Board) (n : ℕ) (h : board.queues link = (s.queues link).drain n) :
      Entered link op s { s with board }
  | rewired (board : Board) (wire : Wire) (hop : op = .outside (.rewire link wire))
      (h : board.queues link = { s.queues link with wire }) : Entered link op s { s with board }

/-- The operation does not empty a queue of the channel. -/
def Spares (link : Link) : Operation → Prop
  | .store a _ _ => a ∉ link.clearAddresses
  | _ => True

instance : (op : Operation) → Decidable (Spares link op)
  | .store a _ _ => inferInstanceAs (Decidable (a ∉ link.clearAddresses))
  | .load _ _ | .outside _ => inferInstanceAs (Decidable True)

lemma entered (hop : Spares link op) (s : Books) : Entered link op s (s.enter link op) := by
  cases op with
  | load a w =>
    cases hload : s.board.load a w with
    | error f =>
      have hsame : s.enter link (.load a w) = { s with board := s.board } := by
        simp only [enter, hload]
      rw [hsame]
      exact .nothing _ (Queues.sameTraffic_of_eq rfl)
    | ok r =>
      obtain ⟨v, board⟩ := r
      rcases Board.load_queues hload link with ⟨ha, rest, hrx, rfl, hq⟩ | ⟨ha, hq⟩
      · simp only [enter, hload, if_pos ha]
        exact .read board w _ rest hrx hq
      · simp only [enter, hload, if_neg ha]
        exact .nothing board (Queues.sameTraffic_of_eq hq)
  | store a w v =>
    rcases Board.store_queues (b := s.board) (w := w) (v := v) hop with ⟨ha, hq⟩ | ⟨ha, hq⟩
    · simp only [enter, ha, true_and, if_true]
      rw [ha] at hq
      exact .written _ _ hq
    · simp only [enter, ha, false_and, if_false]
      exact .nothing _ hq
  | outside o =>
    cases o with
    | send l unit =>
      by_cases hl : l = link
      · subst hl
        simp only [enter, if_true]
        exact .sent _ unit (Board.queues_setQueues ..)
      · simp only [enter, if_neg hl]
        exact .nothing _ (Queues.sameTraffic_of_eq
          (Board.queues_setQueues_of_ne _ _ (Ne.symm hl)))
    | take l n =>
      by_cases hl : l = link
      · subst hl
        exact .taken _ n (Board.queues_setQueues ..)
      · exact .nothing _ (Queues.sameTraffic_of_eq
          (Board.queues_setQueues_of_ne _ _ (Ne.symm hl)))
    | rewire l wire =>
      by_cases hl : l = link
      · subst hl
        exact .rewired _ wire rfl (Board.queues_setQueues ..)
      · exact .nothing _ (Queues.sameTraffic_of_eq
          (Board.queues_setQueues_of_ne _ _ (Ne.symm hl)))
    | request id =>
      have hsame : (s.board.act (.request id)).queues link = s.board.queues link := by
        rw [Board.act_request, Board.queues_arbiter]
      exact .nothing _ (Queues.sameTraffic_of_eq hsame)

/-! ### The books balance -/

structure Balanced (link : Link) (s : Books) : Prop where
  bounded : (s.queues link).Bounded
  given : ∀ r ∈ s.reads, r.given = r.width.cut r.whole
  receives : (s.queues link).Receives (s.reads.map (·.whole)) s.arrivals
  handled : (s.queues link).handled = s.writes.length

lemma Balanced.entered (hs : Balanced link s) (h : Entered link op s s') : Balanced link s' := by
  obtain ⟨hbounded, hgiven, hreceives, hhandled⟩ := hs
  cases h with
  | nothing board h =>
    obtain ⟨_, _, _, hq⟩ := h
    refine ⟨?_, hgiven, ?_, ?_⟩ <;> simp only [queues, hq]
    · exact ⟨hbounded.tx, hbounded.rx⟩
    · exact ⟨hreceives.order, hreceives.count⟩
    · exact hhandled
  | read board w unit rest hrx h =>
    have hlen := hbounded.rx
    rw [hrx, List.length_cons] at hlen
    refine ⟨?_, ?_, ?_, ?_⟩
    · rw [queues, h]
      exact ⟨hbounded.tx, Nat.le_of_succ_le hlen⟩
    · intro r hr
      rcases List.mem_append.1 hr with hr | hr
      · exact hgiven r hr
      · obtain rfl := List.mem_singleton.1 hr
        rfl
    · rw [queues, h, List.map_append]
      exact hreceives.take hrx
    · rw [queues, h]
      exact hhandled
  | sent board unit h =>
    refine ⟨?_, hgiven, ?_, ?_⟩ <;> rw [queues, h]
    · exact hbounded.arrive unit
    · exact hreceives.arrive unit
    · rw [Queues.handled_of_eased (Queues.eased_arrive _ unit)]
      exact hhandled
  | written board unit h =>
    refine ⟨?_, hgiven, ?_, ?_⟩ <;> rw [queues, h]
    · exact hbounded.transmit unit
    · exact hreceives.transmit hbounded.tx unit
    · rw [Queues.handled_transmit hbounded.tx, hhandled, List.length_append, List.length_singleton]
  | taken board n h =>
    refine ⟨?_, hgiven, ?_, ?_⟩ <;> rw [queues, h]
    · exact hbounded.drain n
    · exact ⟨hreceives.order, hreceives.count⟩
    · rw [Queues.handled_of_eased (Queues.eased_drain _ n)]
      exact hhandled
  | rewired board wire _ h =>
    refine ⟨?_, hgiven, ?_, ?_⟩ <;> rw [queues, h]
    · exact ⟨hbounded.tx, hbounded.rx⟩
    · exact ⟨hreceives.order, hreceives.count⟩
    · exact hhandled

/-- The operation does not change the line of the channel while units wait. -/
def Steady (link : Link) (s : Books) : Operation → Prop
  | .outside (.rewire l wire) =>
    l = link → (s.queues link).tx = [] ∨ wire = (s.queues link).wire
  | _ => True

instance : (op : Operation) → Decidable (Steady link s op)
  | .outside (.rewire l wire) => inferInstanceAs
    (Decidable (l = link → (s.queues link).tx = [] ∨ wire = (s.queues link).wire))
  | .load _ _ | .store _ _ _ => inferInstanceAs (Decidable True)
  | .outside (.send _ _) | .outside (.take _ _) | .outside (.request _) =>
    inferInstanceAs (Decidable True)

lemma lines_entered (hs : Balanced link s) (hlines : (s.queues link).Lines s.writes)
    (hsteady : Steady link s op) (h : Entered link op s s') :
    (s'.queues link).Lines s'.writes := by
  cases h with
  | nothing board h =>
    obtain ⟨_, _, _, hq⟩ := h
    rw [queues, hq]
    exact ⟨hlines.order, hlines.holds⟩
  | read board w unit rest hrx h =>
    rw [queues, h]
    exact ⟨hlines.order, hlines.holds⟩
  | sent board unit h =>
    rw [queues, h]
    exact hlines.eased (Queues.eased_arrive _ unit)
  | written board unit h =>
    rw [queues, h]
    exact hlines.transmit hs.bounded.tx unit
  | taken board n h =>
    rw [queues, h]
    exact hlines.eased (Queues.eased_drain _ n)
  | rewired board wire hop h =>
    rw [queues, h]
    refine ⟨hlines.order, fun hne => ?_⟩
    subst hop
    -- the line is changed only while nothing waits, or stays what it is
    rcases hsteady rfl with hnil | rfl
    · exact absurd hnil hne
    · exact hlines.holds hne

/-! ### Runs -/

lemma after_snoc (ops : List Operation) (op : Operation) :
    after link (ops ++ [op]) = (after link ops).enter link op := List.foldl_concat ..

lemma balanced_after (hops : ∀ op ∈ ops, Spares link op) : Balanced link (after link ops) := by
  induction ops using List.reverseRecOn with
  | nil =>
    refine ⟨?_, nofun, ?_, ?_⟩
    · cases link <;> exact ⟨Nat.zero_le _, Nat.zero_le _⟩
    · cases link <;> exact ⟨rfl, rfl⟩
    · cases link <;> rfl
  | append_singleton ops op ih =>
    rw [after_snoc]
    refine (ih fun op' hop' => hops op' (List.mem_append_left _ hop')).entered (entered ?_ _)
    exact hops op (List.mem_append_right _ (List.mem_singleton_self op))

lemma lines_after (hops : ∀ op ∈ ops, Spares link op)
    (hsteady : ∀ i (h : i < ops.length), Steady link (after link (ops.take i)) ops[i]) :
    ((after link ops).queues link).Lines (after link ops).writes := by
  induction ops using List.reverseRecOn with
  | nil => cases link <;> exact ⟨rfl, fun hne => absurd rfl hne⟩
  | append_singleton ops op ih =>
    have hbefore : ∀ op' ∈ ops, Spares link op' := fun op' hop' =>
      hops op' (List.mem_append_left _ hop')
    have hlast : Steady link (after link ops) op := by
      have h := hsteady ops.length (by simp)
      rwa [List.take_left, List.getElem_concat_length rfl] at h
    rw [after_snoc]
    refine lines_entered (balanced_after hbefore) (ih hbefore fun i hi => ?_) hlast
      (entered (hops op (List.mem_append_right _ (List.mem_singleton_self op))) _)
    have h := hsteady i (by rw [List.length_append]; exact Nat.lt_add_right _ hi)
    rwa [List.take_append_of_le_length hi.le, List.getElem_append_left hi] at h

/-- **The books of a channel balance.** A board out of reset is loaded, stored to and used by its
peers in any order, and no store empties a queue of the channel. Then what the loads of its receive
data register gave are units cut to the width of the load, and these units and those that wait are
what arrived and was accepted, in order. What arrived is what was accepted and what was dropped, and
what was written is what left, what waits and what was dropped. If the line is only rewired while
nothing waits, then what left and what waits is what was written and not dropped, in order. -/
theorem channel_books_balance (link : Link) (ops : List Operation)
    (hops : ∀ op ∈ ops, Spares link op) {s : Books} (hs : s = after link ops) {q : Queues}
    (hq : q = s.board.queues link) :
    (∀ r ∈ s.reads, r.given = r.width.cut r.whole) ∧
    s.reads.map (·.whole) ++ q.rx = kept s.arrivals ∧
    (kept s.arrivals).length + q.droppedRx = s.arrivals.length ∧
    s.writes.length = q.transmitted.length + q.tx.length + q.droppedTx ∧
    ((∀ i (h : i < ops.length), Steady link (after link (ops.take i)) ops[i]) →
      q.transmitted ++ q.tx = kept s.writes) := by
  subst hs hq
  have hbalanced := balanced_after hops
  exact ⟨hbalanced.given, hbalanced.receives.order, hbalanced.receives.count,
    hbalanced.handled.symm, fun hsteady => (lines_after hops hsteady).order⟩

/-- A line that leads back is rewired to hold its units once it is empty. Both queues overflow. -/
def rewiredRun : List Operation :=
  [Operation.outside (.rewire .uart .loopback),
    Operation.store Link.uart.transmitAddress .byte 0x141#32] ++
    List.replicate 8 (Operation.outside (.send .uart 0x307#32)) ++
    [Operation.load Link.uart.dataAddress .word, Operation.load Link.uart.dataAddress .byte,
      Operation.outside (.rewire .uart .hold)] ++
    List.replicate 9 (Operation.store Link.uart.transmitAddress .half 0x12345#32) ++
    [Operation.outside (.take .uart 3)]

/-- Of nine units that arrived two were read and one was dropped. Of ten that were written one came
back, three were taken while the line held the others, and one was dropped. -/
theorem channel_books_balance_rewiredRun :
    (∀ op ∈ rewiredRun, Spares .uart op) ∧
    (after .uart rewiredRun).reads.map (fun r => (r.width, r.given, r.whole)) =
      [(.word, 0x41#32, 0x41#32), (.byte, 0x07#32, 0x307#32)] ∧
    ((after .uart rewiredRun).board.queues .uart).rx = List.replicate 6 0x307#32 ∧
    ((after .uart rewiredRun).board.queues .uart).droppedRx = 1 ∧
    (after .uart rewiredRun).arrivals.length = 9 ∧
    ((after .uart rewiredRun).board.queues .uart).transmitted =
      [0x41#32, 0x2345#32, 0x2345#32, 0x2345#32] ∧
    ((after .uart rewiredRun).board.queues .uart).tx = List.replicate 5 0x2345#32 ∧
    ((after .uart rewiredRun).board.queues .uart).droppedTx = 1 ∧
    (after .uart rewiredRun).writes.length = 10 := by
  have hops : ∀ op ∈ rewiredRun, Spares .uart op := by decide
  have hsteady : ∀ i (h : i < rewiredRun.length),
      Steady .uart (after .uart (rewiredRun.take i)) rewiredRun[i] := by decide +kernel
  obtain ⟨-, hreceived, harrivals, hwrites, hline⟩ :=
    channel_books_balance .uart rewiredRun hops rfl rfl
  have hreads : (after .uart rewiredRun).reads.map (·.whole) = [0x41#32, 0x307#32] := by
    decide +kernel
  have haccepted : kept (after .uart rewiredRun).arrivals =
      [0x41#32, 0x307#32] ++ List.replicate 6 0x307#32 := by decide +kernel
  have htransmitted : ((after .uart rewiredRun).board.queues .uart).transmitted =
      [0x41#32, 0x2345#32, 0x2345#32, 0x2345#32] := by decide +kernel
  have hwritten : kept (after .uart rewiredRun).writes =
      [0x41#32, 0x2345#32, 0x2345#32, 0x2345#32] ++ List.replicate 5 0x2345#32 := by decide +kernel
  have hdroppedRx : ((after .uart rewiredRun).board.queues .uart).droppedRx = 1 := by
    decide +kernel
  have hdroppedTx : ((after .uart rewiredRun).board.queues .uart).droppedTx = 1 := by
    decide +kernel
  -- what waits is what the laws leave
  have hrx : ((after .uart rewiredRun).board.queues .uart).rx = List.replicate 6 0x307#32 := by
    rw [hreads, haccepted] at hreceived
    exact List.append_cancel_left hreceived
  have htx : ((after .uart rewiredRun).board.queues .uart).tx = List.replicate 5 0x2345#32 := by
    have hall := hline hsteady
    rw [htransmitted, hwritten] at hall
    exact List.append_cancel_left hall
  rw [haccepted, hdroppedRx] at harrivals
  rw [htransmitted, htx, hdroppedTx] at hwrites
  exact ⟨hops, by decide +kernel, hrx, hdroppedRx, harrivals.symm, htransmitted, htx, hdroppedTx,
    hwrites⟩

end Books

end BoardSupport
