import BoardSupport.Proofs.BlockingSend

/-!
A channel whose line leads back to it gives back what is sent.

A unit that is sent leaves on the line and is in the receive queue at once. As long as there are
never more units on their way than the queue holds, each of them comes back once, in order and bit
for bit, however the calls that send and receive them are cut and mixed.
-/

namespace BoardSupport

/-! ### One call -/

namespace Queues

variable {q : Queues}

/-- On a line that leads back, the units that find a place in the receive queue leave and come
in. -/
lemma transmitAll_loopback (hwire : q.wire = .loopback) (hspace : q.tx.length ≠ capacity)
    {units : List Word} (h : q.rx.length + units.length ≤ capacity) :
    q.transmitAll units =
      { q with rx := q.rx ++ units, transmitted := q.transmitted ++ units } := by
  induction units generalizing q with
  | nil =>
    rw [List.append_nil, List.append_nil]
    rfl
  | cons unit rest ih =>
    rw [List.length_cons] at h
    have hroom : q.rx.length < capacity := by omega
    have hfirst : q.transmit unit =
        { q with rx := q.rx ++ [unit], transmitted := q.transmitted ++ [unit] } := by
      rw [transmit_loopback hwire hspace, arrive, if_pos hroom]
    have hrest : (q.rx ++ [unit]).length + rest.length ≤ capacity := by
      rw [List.length_append, List.length_singleton]
      omega
    calc q.transmitAll (unit :: rest)
        = (q.transmit unit).transmitAll rest := rfl
      _ = { q with
            rx := q.rx ++ [unit] ++ rest
            transmitted := q.transmitted ++ [unit] ++ rest } := by
          rw [hfirst]
          exact ih hwire hspace hrest
      _ = { q with
            rx := q.rx ++ unit :: rest
            transmitted := q.transmitted ++ unit :: rest } := by
          rw [List.append_assoc, List.append_assoc]
          rfl

end Queues

lemma Board.send_loopback {link : Link} {b : Board} {patience : ℕ}
    (hwire : (b.queues link).wire = .loopback)
    (hspace : (b.queues link).tx.length < Queues.capacity) (w : Width) {units : List Word}
    (h : (b.queues link).rx.length + units.length ≤ Queues.capacity) :
    (link.channel (platform patience)).send w units b = .ok () (b.setQueues
      { b.queues link with
        rx := (b.queues link).rx ++ units.map w.cut
        transmitted := (b.queues link).transmitted ++ units.map w.cut } link) := by
  have hbounded : (b.queues link).Bounded := ⟨hspace.le, by omega⟩
  have hall : (b.queues link).taken units.length = units.length := by
    simp only [Queues.taken, if_neg hspace.ne, hwire]
  rw [Board.send_board hbounded, if_pos hall, Queues.transmitAll_loopback hwire hspace.ne]
  rw [List.length_map]
  exact h

/-! ### Any calls -/

namespace Loopback

/-- A call on a channel that gives back what is sent. -/
inductive Call where
  | send (units : List Word)
  | recv (n : ℕ)

namespace Call

def sent : Call → List Word
  | .send units => units
  | .recv _ => []

/-- How many units are asked for. -/
def asked : Call → ℕ
  | .send _ => 0
  | .recv n => n

/-- The call with units of the width, on a board with nothing else on the machine. It gives the
units that were received. -/
def perform (link : Link) (w : Width) (patience : ℕ) : Call → Proc Board (List Word)
  | .send units => do
    (link.channel (Board.platform patience)).send w units
    return []
  | .recv n => (link.channel (Board.platform patience)).recv w n

/-- With `n` units on their way at first, there are never more than the queue holds, and none is
asked for that is not on its way. -/
def Fit : ℕ → List Call → Prop
  | _, [] => True
  | n, .send units :: rest => n + units.length ≤ Queues.capacity ∧ Fit (n + units.length) rest
  | n, .recv k :: rest => k ≤ n ∧ Fit (n - k) rest

end Call

open Call

variable {link : Link} {w : Width} {patience : ℕ}

/-- What comes of the calls on a channel with the units `out` on their way. -/
lemma sequence_perform {b : Board} {out : List Word} (hwire : (b.queues link).wire = .loopback)
    (hspace : (b.queues link).tx.length < Queues.capacity)
    (hrx : (b.queues link).rx = out.map w.cut) (hout : out.length ≤ Queues.capacity)
    {calls : List Call} (hfit : Fit out.length calls) :
    ∃ results, Proc.sequence (calls.map (perform link w patience)) b = .ok results (b.setQueues
        { b.queues link with
          rx := ((out ++ calls.flatMap sent).map w.cut).drop results.flatten.length
          transmitted := (b.queues link).transmitted ++ (calls.flatMap sent).map w.cut } link) ∧
      results.map List.length = calls.map asked ∧
      results.flatten = ((out ++ calls.flatMap sent).map w.cut).take results.flatten.length := by
  induction calls generalizing b out with
  | nil =>
    refine ⟨[], ?_, rfl, rfl⟩
    have hsame : b.setQueues { b.queues link with
        rx := out.map w.cut, transmitted := (b.queues link).transmitted } link = b := by
      rw [← hrx]
      exact Board.setQueues_queues b link
    simp only [List.flatMap_nil, List.append_nil, List.map_nil, List.flatten_nil, List.length_nil,
      List.drop_zero, hsame]
    rfl
  | cons call rest ih =>
    cases call with
    | send units =>
      -- the units are on their way at once
      obtain ⟨hroom, hfit⟩ := hfit
      have hlength : (out ++ units).length = out.length + units.length := List.length_append
      obtain ⟨q, hq, hsend⟩ : ∃ q, q = { b.queues link with
            rx := (out ++ units).map w.cut
            transmitted := (b.queues link).transmitted ++ units.map w.cut } ∧
          (link.channel (Board.platform patience)).send w units b =
            .ok () (b.setQueues q link) := by
        refine ⟨_, rfl, ?_⟩
        rw [Board.send_loopback hwire hspace w (by rw [hrx, List.length_map]; exact hroom), hrx,
          List.map_append]
      have hat : (b.setQueues q link).queues link = q := Board.queues_setQueues b q link
      obtain ⟨results, hrun, hasked, htake⟩ := @ih (b.setQueues q link) (out ++ units)
        (by rw [hat, hq]; exact hwire) (by rw [hat, hq]; exact hspace) (by rw [hat, hq])
        (hlength.trans_le hroom) (by rw [hlength]; exact hfit)
      refine ⟨[] :: results, ?_, by simp [asked, hasked], by simpa [sent] using htake⟩
      refine Proc.sequence_cons_of_ok (Proc.bind_of_ok hsend) (hrun.trans ?_)
      rw [hat, Board.setQueues_setQueues, hq]
      simp [sent]
    | recv n =>
      obtain ⟨hn, hfit⟩ := hfit
      have hlength : (out.drop n).length = out.length - n := List.length_drop
      obtain ⟨q, hq, hrecv⟩ : ∃ q, q = { b.queues link with rx := (out.drop n).map w.cut } ∧
          (link.channel (Board.platform patience)).recv w n b =
            .ok ((out.take n).map w.cut) (b.setQueues q link) := by
        have hle : n ≤ (b.queues link).rx.length := by rw [hrx, List.length_map]; exact hn
        have hword : (b.queues link).rx.length < 2 ^ 32 := by
          rw [hrx, List.length_map]
          exact hout.trans_lt (by decide)
        have hcut : ((out.take n).map w.cut).map w.cut = (out.take n).map w.cut := by
          simp [Function.comp_def, Width.cut_cut]
        refine ⟨_, rfl, ?_⟩
        rw [Board.recv_board hword, if_pos hle, hrx, ← List.map_take, hcut, List.map_drop]
      have hat : (b.setQueues q link).queues link = q := Board.queues_setQueues b q link
      obtain ⟨results, hrun, hasked, htake⟩ := @ih (b.setQueues q link) (out.drop n)
        (by rw [hat, hq]; exact hwire) (by rw [hat, hq]; exact hspace) (by rw [hat, hq])
        (by omega) (by rw [hlength]; exact hfit)
      -- what was on its way is what came and what is still on its way
      have hsplit : (out ++ rest.flatMap sent).map w.cut =
          (out.take n).map w.cut ++ (out.drop n ++ rest.flatMap sent).map w.cut := by
        rw [← List.map_append, ← List.append_assoc, List.take_append_drop]
      refine ⟨(out.take n).map w.cut :: results, ?_, ?_, ?_⟩
      · refine Proc.sequence_cons_of_ok hrecv (hrun.trans ?_)
        rw [hat, Board.setQueues_setQueues, hq]
        simp only [List.flatMap_cons, sent, List.nil_append, List.flatten_cons,
          List.length_append, hsplit, List.drop_length_add_append]
      · simp [asked, hasked, hn]
      · simp only [List.flatMap_cons, sent, List.nil_append, List.flatten_cons,
          List.length_append, hsplit, List.take_length_add_append]
        rw [← htake]

/-- **A channel that is looped back is an identity.** If its receive queue is empty and its transmit
queue is not full, any calls that fit return. What they receive is the first of the units that were
sent, as many as were asked for, and bit for bit if these are units of the width. The others are in
the receive queue, all that were sent left on the line, and nothing else of the board changes, no
count of lost units either. -/
theorem calls_give_back (link : Link) (w : Width) (patience : ℕ) {b : Board}
    (hwire : (b.queues link).wire = .loopback) (hrx : (b.queues link).rx = [])
    (hspace : (b.queues link).tx.length < Queues.capacity) {calls : List Call}
    (hfit : Fit 0 calls) :
    ∃ results, Proc.sequence (calls.map (perform link w patience)) b = .ok results (b.setQueues
        { b.queues link with
          rx := ((calls.flatMap sent).map w.cut).drop results.flatten.length
          transmitted := (b.queues link).transmitted ++ (calls.flatMap sent).map w.cut } link) ∧
      results.map List.length = calls.map asked ∧
      results.flatten = ((calls.flatMap sent).map w.cut).take results.flatten.length ∧
      ((∀ unit ∈ calls.flatMap sent, w.cut unit = unit) →
        results.flatten = (calls.flatMap sent).take results.flatten.length) := by
  obtain ⟨results, hrun, hasked, htake⟩ :=
    @sequence_perform link w patience b [] hwire hspace hrx (Nat.zero_le _) calls hfit
  rw [List.nil_append] at hrun htake
  refine ⟨results, hrun, hasked, htake, fun hunits => ?_⟩
  have hcut : (calls.flatMap sent).map w.cut = calls.flatMap sent := by
    rw [List.map_congr_left hunits, List.map_id']
  rwa [hcut] at htake

/-- Units wait to be taken when the line is looped back. -/
def looped : Board where
  spi1 := { tx := [1#32, 2#32], wire := .loopback, droppedRx := 3 }

/-- Eight units are on their way at one time. -/
def mixed : List Call :=
  [.send [0xffff#32, 0x18000#32, 7#32], .recv 2, .send (List.replicate 7 0xabcd#32), .recv 0,
    .recv 5, .send []]

theorem calls_give_back_mixed :
    Proc.sequence (mixed.map (perform .spi1 .half 0)) looped =
      .ok [[], [0xffff#32, 0x8000#32], [], [], [7#32, 0xabcd#32, 0xabcd#32, 0xabcd#32, 0xabcd#32],
          []]
        { looped with spi1 :=
          { looped.spi1 with
            rx := List.replicate 3 0xabcd#32
            transmitted := [0xffff#32, 0x8000#32, 7#32] ++ List.replicate 7 0xabcd#32 } } := by
  obtain ⟨results, hrun, hasked, htake, -⟩ := calls_give_back .spi1 .half 0 (b := looped)
    rfl rfl (by decide) (show Fit 0 mixed by simp [mixed, Fit, Queues.capacity])
  have hlength : results.flatten.length = 7 := by
    rw [List.length_flatten, hasked]
    rfl
  rw [hlength] at hrun htake
  have hresults : results = [[], [0xffff#32, 0x8000#32], [], [],
      [7#32, 0xabcd#32, 0xabcd#32, 0xabcd#32, 0xabcd#32], []] :=
    List.eq_iff_flatten_eq.2 ⟨htake.trans (by decide), hasked⟩
  rw [hrun, hresults]
  rfl

end Loopback

end BoardSupport
