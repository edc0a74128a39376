import BoardSupport.Proofs.Arbitration
import BoardSupport.Proofs.Station

/-!
Runs of a board: loads and stores of any address and width, and what the world outside does, in any
order.

A load changes the board as `Board.load_cases` says, a store as `Board.store_cases` does. From the
two follow what an operation can do to the claims and what it can do to the queues.
-/

namespace BoardSupport

/-- Anything that is done to a board. -/
inductive Operation where
  | load (address : ℕ) (w : Width)
  | store (address : ℕ) (w : Width) (v : Word)
  | outside (o : Outside)

/-- What holds at first and is kept by every step holds at the end of a run that does not fail. -/
lemma foldlM_invariant {α β ε : Type} {step : β → α → Except ε β} {P : β → Prop}
    (hstep : ∀ s a s', P s → step s a = .ok s' → P s') {l : List α} {s s' : β} (hs : P s)
    (hrun : l.foldlM step s = .ok s') : P s' := by
  induction l generalizing s with
  | nil =>
    cases hrun
    exact hs
  | cons a rest ih =>
    rw [List.foldlM_cons] at hrun
    cases ha : step s a with
    | error e =>
      rw [ha] at hrun
      cases hrun
    | ok s₁ =>
      rw [ha] at hrun
      exact ih (hstep s a s₁ hs ha) hrun

/-- The controller after a request for the source. -/
def Arbiter.asked (a : Arbiter) (id : ℕ) : Arbiter :=
  { a with raised := a.raised ||| (1#64 <<< id) }

/-! ### Queues -/

namespace Queues

variable {q q' : Queues}

/-- Neither queue holds more than it can. -/
structure Bounded (q : Queues) : Prop where
  tx : q.tx.length ≤ capacity
  rx : q.rx.length ≤ capacity

lemma Bounded.arrive (h : q.Bounded) (unit : Word) : (q.arrive unit).Bounded := by
  unfold Queues.arrive
  split
  · next hroom =>
    refine ⟨h.tx, ?_⟩
    rw [List.length_append]
    exact hroom
  · exact ⟨h.tx, h.rx⟩

lemma Bounded.transmit (h : q.Bounded) (unit : Word) : (q.transmit unit).Bounded := by
  have htx := h.tx
  unfold Queues.transmit
  split
  · exact ⟨h.tx, h.rx⟩
  · next hroom =>
    split
    · refine ⟨?_, h.rx⟩
      rw [List.length_append, List.length_singleton]
      omega
    · exact ⟨h.tx, h.rx⟩
    · exact Bounded.arrive (q := { q with transmitted := q.transmitted ++ [unit] })
        ⟨h.tx, h.rx⟩ unit

lemma Bounded.drain (h : q.Bounded) (n : ℕ) : (q.drain n).Bounded := by
  refine ⟨?_, h.rx⟩
  rw [Queues.drain, List.length_drop]
  exact (Nat.sub_le _ _).trans h.tx

lemma Bounded.take (h : q.Bounded) {unit : Word} (ht : q.take? = some (unit, q')) :
    q'.Bounded := by
  unfold take? at ht
  split at ht
  · cases ht
  · next rest hrx =>
    cases ht
    have hlen := h.rx
    rw [hrx, List.length_cons] at hlen
    exact ⟨h.tx, by dsimp only; omega⟩

lemma Bounded.write (h : q.Bounded) {l : Layout} {o : ℕ} {v : Word}
    (hw : q.write? l o v = some q') : q'.Bounded := by
  unfold write? at hw
  split_ifs at hw <;> cases hw
  · exact ⟨Nat.zero_le _, h.rx⟩
  · exact h.transmit v
  · exact ⟨h.tx, Nat.zero_le _⟩
  all_goals exact ⟨h.tx, h.rx⟩

end Queues

namespace Board

variable {b b' : Board}

/-! ### Stores -/

/-- All that a store can do. -/
lemma store_cases (b : Board) (a : ℕ) (w : Width) (v : Word) :
    (∃ o arbiter, place a = .system o ∧ b.arbiter.write? o (w.cut v) = some arbiter ∧
      b.store a w v = { b with arbiter }) ∨
    (∃ link o q, place a = .channel link o ∧
      (b.queues link).write? link.layout o (w.cut v) = some q ∧
      b.store a w v = b.setQueues q link) ∨
    ((b.store a w v).arbiter = b.arbiter ∧
      ∀ link, (b.store a w v).queues link = b.queues link) := by
  have hpoke : (b.poke a (w.cut v)).arbiter = b.arbiter ∧
      ∀ link, (b.poke a (w.cut v)).queues link = b.queues link :=
    ⟨rfl, fun link => by cases link <;> rfl⟩
  unfold store
  dsimp only
  cases hplace : place a with
  | system o =>
    dsimp only
    cases hw : b.arbiter.write? o (w.cut v) with
    | some arbiter => exact .inl ⟨o, arbiter, rfl, hw, rfl⟩
    | none =>
      -- the scratch register and plain words are not the controller's
      refine .inr (.inr ?_)
      dsimp only
      split
      · unfold scratch
        split <;> exact ⟨rfl, fun link => by cases link <;> rfl⟩
      · exact hpoke
  | channel link o =>
    dsimp only
    cases hw : (b.queues link).write? link.layout o (w.cut v) with
    | some q => exact .inr (.inl ⟨link, o, q, rfl, hw, rfl⟩)
    | none => exact .inr (.inr hpoke)
  | memory => exact .inr (.inr hpoke)

/-! ### Operations -/

/-- What the world outside does. -/
def act (b : Board) : Outside → Board
  | .send link unit => (b.peerSend link unit).2
  | .take link n => (b.peerDrain link n).2
  | .rewire link wire => b.setWire link wire
  | .request id =>
    match b.raise id with
    | .ok b' => b'
    | .error _ => b

lemma act_request (b : Board) (id : Fin Source.count) :
    b.act (.request id) = { b with arbiter := b.arbiter.asked id } := by
  have hraise : b.raise id = .ok { b with arbiter := b.arbiter.asked id } := by
    rw [raise, Arbiter.raise, if_pos id.isLt]
    rfl
  rw [act, hraise]

/-- The board after the operation, unless it faults. -/
def apply (b : Board) : Operation → Except Fault Board
  | .load a w => (b.load a w).map Prod.snd
  | .store a w v => .ok (b.store a w v)
  | .outside o => .ok (b.act o)

lemma load_of_apply {a : ℕ} {w : Width} (h : b.apply (.load a w) = .ok b') :
    ∃ v, b.load a w = .ok (v, b') := by
  rw [apply] at h
  cases hload : b.load a w with
  | error f =>
    rw [hload] at h
    cases h
  | ok r =>
    rw [hload] at h
    cases h
    exact ⟨r.1, rfl⟩

def run (b : Board) (ops : List Operation) : Except Fault Board := ops.foldlM apply b

/-- The board can come out of a run that starts at reset. -/
def Reachable (b : Board) : Prop := ∃ ops, new.run ops = .ok b

/-! ### Bounds -/

/-- No queue of the board holds more than it can. -/
def Bounded (b : Board) : Prop := ∀ link, (b.queues link).Bounded

lemma Bounded.setQueues (h : b.Bounded) {q : Queues} (hq : q.Bounded) (link : Link) :
    (b.setQueues q link).Bounded := by
  intro l
  by_cases hl : l = link
  · subst hl
    rw [queues_setQueues]
    exact hq
  · rw [queues_setQueues_of_ne _ _ hl]
    exact h l

lemma Bounded.load (h : b.Bounded) {a : ℕ} {w : Width} {v : Word}
    (hload : b.load a w = .ok (v, b')) : b'.Bounded := by
  rcases load_cases hload with ⟨-, -, rfl⟩ | ⟨-, -, rfl⟩ | ⟨link, unit, q, -, hq, -, rfl⟩
  · exact h
  · intro link
    rw [queues_arbiter]
    exact h link
  · exact h.setQueues ((h link).take hq) link

lemma Bounded.store (h : b.Bounded) (a : ℕ) (w : Width) (v : Word) : (b.store a w v).Bounded := by
  rcases store_cases b a w v with ⟨o, arbiter, -, -, hs⟩ | ⟨link, o, q, -, hq, hs⟩ | ⟨-, hs⟩
  · intro link
    rw [hs, queues_arbiter]
    exact h link
  · rw [hs]
    exact h.setQueues ((h link).write hq) link
  · intro link
    rw [hs]
    exact h link

lemma Bounded.act (h : b.Bounded) (o : Outside) : (b.act o).Bounded := by
  cases o with
  | send link unit => exact h.setQueues ((h link).arrive unit) link
  | take link n => exact h.setQueues ((h link).drain n) link
  | rewire link wire =>
    exact h.setQueues (q := { b.queues link with wire }) ⟨(h link).tx, (h link).rx⟩ link
  | request id =>
    rw [act_request]
    intro link
    rw [queues_arbiter]
    exact h link

lemma Bounded.apply (h : b.Bounded) {op : Operation} (hop : b.apply op = .ok b') : b'.Bounded := by
  cases op with
  | load a w =>
    obtain ⟨v, hload⟩ := load_of_apply hop
    exact h.load hload
  | store a w v =>
    cases hop
    exact h.store a w v
  | outside o =>
    cases hop
    exact h.act o

lemma Reachable.bounded (h : b.Reachable) : b.Bounded := by
  obtain ⟨ops, hrun⟩ := h
  have hnew : new.Bounded := by
    intro link
    cases link <;> exact ⟨Nat.zero_le _, Nat.zero_le _⟩
  exact foldlM_invariant (fun _ _ _ h hop => h.apply hop) hnew hrun

end Board

end BoardSupport
