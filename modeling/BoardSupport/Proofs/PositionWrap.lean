import Mathlib.Data.BitVec
import BoardSupport.Proofs.ShortRecords

/-!
Where the positions of a log ring come to their end and start again at zero.

A position belongs to the slot at its remainder by the number of slots. If this number divides the
number of positions, a ring works the same from any position on, for ever. If not, the slots of two
positions that are close to each other across the end are the same, and a record that takes both is
cut short although there are empty slots.
-/

namespace BoardSupport.Log

/-! ### A call as a function -/

namespace Ring

/-- The ring after a record of the text. -/
def recorded (r : Ring) (text : List UInt8) : Ring :=
  (write (r, {}) text).1.publish (write (r, {}) text).2

/-- Up to `n` chunks from the front, and the ring without them. -/
def drawn : ℕ → Ring → List (List UInt8) × Ring
  | 0, r => ([], r)
  | n + 1, r =>
    match r.front? with
    | none => ([], r)
    | some chunk => (chunk :: (r.pop.drawn n).1, (r.pop.drawn n).2)

end Ring

namespace Desk

/-- The desk after a drain of up to `n` chunks. -/
def drained (n : ℕ) (s : Desk) : Desk :=
  let out := ({ s.ring with draining := true } : Ring).forgetLost.drawn n
  ⟨{ out.2 with draining := false }, s.sunk ++ notice s.ring.lost ++ out.1⟩

def serve (s : Desk) : Demand → Desk
  | .enter text => drained ((s.ring.recorded text).size / 3) ⟨s.ring.recorded text, s.sunk⟩
  | .flush => s.drained s.ring.size

variable {s : Desk} {filter : Filter} {stamp : Stamp}

lemma drainSlots_eq (n : ℕ) (s : Desk) :
    (logger filter stamp).drainSlots n s =
      .ok () ⟨(s.ring.drawn n).2, s.sunk ++ (s.ring.drawn n).1⟩ := by
  induction n generalizing s with
  | zero =>
    rw [Ring.drawn, List.append_nil]
    rfl
  | succ n ih =>
    have hread : ((logger filter stamp).drainSlots (n + 1)) s =
        (match s.ring.front? with
        | none => pure ()
        | some chunk => do
          (logger filter stamp).accept chunk
          (logger filter stamp).ring.update Ring.pop
          (logger filter stamp).drainSlots n) s := rfl
    rw [hread, Ring.drawn]
    cases s.ring.front? with
    | none =>
      rw [List.append_nil]
      rfl
    | some chunk =>
      refine (ih ⟨s.ring.pop, s.sunk ++ [chunk]⟩).trans ?_
      rw [List.append_assoc]
      rfl

lemma drainLocked_eq (n : ℕ) (s : Desk) :
    (logger filter stamp).drainLocked n s = .ok () (s.drained n) := by
  have hdrain : (logger filter stamp).drain n ⟨{ s.ring with draining := true }, s.sunk⟩ =
      (logger filter stamp).drainSlots n
        ⟨({ s.ring with draining := true } : Ring).forgetLost, s.sunk ++ notice s.ring.lost⟩ := by
    have hread : (logger filter stamp).drain n ⟨{ s.ring with draining := true }, s.sunk⟩ =
        (if 0 < s.ring.lost then do
          (logger filter stamp).accept (Text.utf8 lostNotice)
          (logger filter stamp).drainSlots n
        else (logger filter stamp).drainSlots n)
          ⟨({ s.ring with draining := true } : Ring).forgetLost, s.sunk⟩ := rfl
    rw [hread, notice]
    split
    · rfl
    · rw [List.append_nil]
  have hlock : (logger filter stamp).ring.update (fun r => { r with draining := true }) s =
      .ok () ⟨{ s.ring with draining := true }, s.sunk⟩ := rfl
  exact (Proc.bind_of_ok hlock).trans
    (Proc.bind_of_ok (hdrain.trans (drainSlots_eq n ⟨_, _⟩)))

lemma record_eq (level : Level) (path : Option String) (line : Option ℕ) (message : List String)
    (s : Desk) :
    (logger filter stamp).record (.plain level path line message) s =
      .ok () ⟨s.ring.recorded (recordText level path line message stamp), s.sunk⟩ := by
  have hpieces : (Entry.plain level path line message : Entry Desk).pieces stamp =
      (heading level path line stamp ++ message ++ ["\n"]).map .text := by
    simp [Entry.pieces, Entry.plain]
  obtain ⟨w, s', hrun, hwrite, hsunk, -⟩ := ((undisturbed filter stamp).ends_writePieces
    (s := s) {} (heading level path line stamp ++ message ++ ["\n"])).returns
  have hstamp : (logger filter stamp).stamp s = .ok stamp s := rfl
  refine (Proc.bind_of_ok hstamp).trans ?_
  rw [hpieces]
  refine (Proc.bind_of_ok hrun).trans ?_
  have hrecorded : s.ring.recorded (recordText level path line message stamp) =
      s'.ring.publish w := by
    rw [Ring.recorded, recordText]
    exact (congrArg (fun rw : Ring × Writer => rw.1.publish rw.2) hwrite).symm
  have hsunk' : s.sunk = s'.sunk := hsunk.symm
  rw [hrecorded, hsunk']
  rfl

@[simp] lemma serve_draining (s : Desk) (demand : Demand) :
    (s.serve demand).ring.draining = false := by
  cases demand <;> rfl

lemma perform_eq (hs : s.ring.draining = false) (call : Call) :
    perform filter call s = .ok () ((call.demand? filter).toList.foldl serve s) := by
  cases call with
  | log level path line message stamp =>
    by_cases hlevel : filter.admits level = true
    · have henabled : (logger filter stamp).enabled
          (Entry.plain level path line message : Entry Desk).level = true := hlevel
      have hdraining : (s.ring.recorded (recordText level path line message stamp)).draining =
          false := by
        rw [Ring.recorded, Ring.publish_draining, Ring.write_draining, hs]
      rw [Call.demand?, if_pos hlevel, perform, Logger.log, if_pos henabled]
      refine (Proc.bind_of_ok (record_eq level path line message s)).trans ?_
      have hread : (logger filter stamp).ring.read
          ⟨s.ring.recorded (recordText level path line message stamp), s.sunk⟩ =
        .ok (s.ring.recorded (recordText level path line message stamp)) ⟨_, s.sunk⟩ := rfl
      refine (Proc.bind_of_ok hread).trans ?_
      rw [if_neg (by simp [hdraining])]
      exact drainLocked_eq _ _
    · rw [Call.demand?, if_neg hlevel, perform, Logger.log_of_filtered hlevel]
      rfl
  | flush =>
    have hread : (logger filter {}).ring.read s = .ok s.ring s := rfl
    rw [perform, Logger.flush]
    refine (Proc.bind_of_ok hread).trans ?_
    rw [if_neg (by simp [hs])]
    exact drainLocked_eq _ _

/-- Calls on a desk whose sink is free. -/
lemma performAll_eq_serve (hs : s.ring.draining = false) (calls : List Call) :
    performAll filter calls s =
      .ok () ((calls.filterMap (Call.demand? filter)).foldl serve s) := by
  induction calls generalizing s with
  | nil => rfl
  | cons call rest ih =>
    refine (Proc.bind_of_ok (perform_eq hs call)).trans ?_
    cases hdemand : call.demand? filter with
    | none =>
      rw [List.filterMap_cons_none hdemand]
      exact ih hs
    | some demand =>
      rw [List.filterMap_cons_some hdemand]
      exact ih (serve_draining s demand)

lemma Agrees.foldl_serve {N : ℕ} {q : Backlog} (h : Agrees N q s) (filter : Filter)
    (calls : List Call)
    (hbound : (q.serveAll N (calls.filterMap (Call.demand? filter))).taken < 2 ^ 64) :
    Agrees N (q.serveAll N (calls.filterMap (Call.demand? filter)))
      ((calls.filterMap (Call.demand? filter)).foldl serve s) := by
  obtain ⟨done, lost, -, -, hring⟩ := h.ring
  exact (h.performAll calls hbound).of_ok (performAll_eq_serve hring.draining calls)

end Desk

/-! ### Other positions, the same slots -/

/-- A ring of `N` slots has its slots at the same place `k` positions further on, also across the
end of the positions. -/
structure Turn (N : ℕ) (k : BitVec 64) : Prop where
  lt : N < 2 ^ 64
  dvd : N ∣ 2 ^ 64
  step : N ∣ k.toNat

namespace Ring

variable {r : Ring} {k : BitVec 64} {w : Writer}

/-- The ring `k` positions further on. -/
def shift (k : BitVec 64) (r : Ring) : Ring := { r with head := r.head + k, tail := r.tail + k }

@[simp] lemma shift_size (k : BitVec 64) (r : Ring) : (r.shift k).size = r.size := rfl

lemma index_shift (h : Turn r.size k) (p : BitVec 64) : (r.shift k).index (p + k) = r.index p := by
  obtain ⟨n, hn⟩ := h.step
  rw [index, index, shift_size, BitVec.toNat_add, Nat.mod_mod_of_dvd _ h.dvd, hn,
    Nat.add_mul_mod_self_left]

lemma reserve_eq_ite (r : Ring) :
    r.reserve = if r.size ≤ (r.head - r.tail).toNat then (none, r)
      else if r.slotAt (r.index r.head) = .empty then
        (some (r.index r.head), r.reserved (r.index r.head))
      else (none, { r with head := r.head + 1#64 }) := rfl

lemma reserve_shift (h : Turn r.size k) :
    (r.shift k).reserve = (r.reserve.1, r.reserve.2.shift k) := by
  have hused : (r.shift k).head - (r.shift k).tail = r.head - r.tail :=
    add_sub_add_right_eq_sub r.head r.tail k
  have hindex : (r.shift k).index (r.shift k).head = r.index r.head := index_shift h r.head
  have hnext : ({ r.shift k with head := (r.shift k).head + 1#64 } : Ring) =
      ({ r with head := r.head + 1#64 } : Ring).shift k :=
    congrArg (fun p => { r.shift k with head := p }) (add_right_comm r.head k 1#64)
  have hreserved : ∀ i, (r.shift k).reserved i = (r.reserved i).shift k := fun i =>
    congrArg (fun r' : Ring => r'.setSlot i .writing) hnext
  have hslot : (r.shift k).slotAt (r.index r.head) = r.slotAt (r.index r.head) := rfl
  rw [reserve_eq_ite, reserve_eq_ite, shift_size, hused, hindex, hnext, hreserved, hslot]
  split_ifs <;> rfl

lemma publish_shift : (r.shift k).publish w = (r.publish w).shift k := by
  unfold publish
  split <;> rfl

lemma advance_shift (h : Turn r.size k) :
    (r.shift k).advance w = ((r.advance w).1.shift k, (r.advance w).2) := by
  have hpublished : Turn (r.publish w).size k := by rw [publish_size]; exact h
  unfold advance
  rw [publish_shift, reserve_shift hpublished]
  rcases (r.publish w).reserve with ⟨_ | i, r'⟩ <;> rfl

lemma push_shift (h : Turn r.size k) (b : UInt8) :
    push (r.shift k, w) b = ((push (r, w) b).1.shift k, (push (r, w) b).2) := by
  unfold push
  rw [advance_shift h]
  split_ifs <;> rfl

lemma write_shift (h : Turn r.size k) (bytes : List UInt8) :
    write (r.shift k, w) bytes = ((write (r, w) bytes).1.shift k, (write (r, w) bytes).2) := by
  induction bytes generalizing r w with
  | nil => rfl
  | cons b rest ih =>
    have hsize : (push (r, w) b).1.size = r.size := (push_grew h.lt b).size
    have hrest := ih (r := (push (r, w) b).1) (w := (push (r, w) b).2) (by rw [hsize]; exact h)
    rw [write, List.foldl_cons, push_shift h]
    exact hrest

lemma recorded_shift (h : Turn r.size k) (text : List UInt8) :
    (r.shift k).recorded text = (r.recorded text).shift k := by
  rw [recorded, write_shift h, publish_shift]
  rfl

lemma front?_shift (h : Turn r.size k) : (r.shift k).front? = r.front? := by
  have hindex : (r.shift k).index (r.shift k).tail = r.index r.tail := index_shift h r.tail
  have hempty : (r.shift k).tail = (r.shift k).head ↔ r.tail = r.head := add_left_inj k
  unfold front?
  rw [hindex]
  simp only [hempty]
  rfl

lemma pop_shift (h : Turn r.size k) : (r.shift k).pop = r.pop.shift k := by
  have hindex : (r.shift k).index (r.shift k).tail = r.index r.tail := index_shift h r.tail
  have htail : (r.shift k).tail + 1#64 = r.tail + 1#64 + k := add_right_comm r.tail k 1#64
  unfold pop
  rw [hindex, htail]
  rfl

lemma drawn_shift (h : Turn r.size k) (n : ℕ) :
    (r.shift k).drawn n = ((r.drawn n).1, (r.drawn n).2.shift k) := by
  induction n generalizing r with
  | zero => rfl
  | succ n ih =>
    have hpop : Turn r.pop.size k := by
      have hsize : r.pop.size = r.size := setSlot_size _ _ _
      rw [hsize]
      exact h
    rw [drawn, drawn, front?_shift h, pop_shift h, ih hpop]
    cases r.front? <;> rfl

end Ring

namespace Desk

variable {s : Desk} {k : BitVec 64}

def shift (k : BitVec 64) (s : Desk) : Desk := ⟨s.ring.shift k, s.sunk⟩

lemma drained_shift (h : Turn s.ring.size k) (n : ℕ) :
    (s.shift k).drained n = (s.drained n).shift k := by
  have hdrawn := Ring.drawn_shift (r := ({ s.ring with draining := true } : Ring).forgetLost) h n
  have hflag : ({ (s.shift k).ring with draining := true } : Ring).forgetLost =
      (({ s.ring with draining := true } : Ring).forgetLost).shift k := rfl
  rw [drained, hflag, hdrawn]
  rfl

lemma serve_shift (h : Turn s.ring.size k) (demand : Demand) :
    (s.shift k).serve demand = (s.serve demand).shift k := by
  cases demand with
  | enter text =>
    have hsize : (s.ring.recorded text).size = s.ring.size := by
      rw [Ring.recorded, Ring.publish_size]
      exact (Ring.write_grew h.lt).size
    have hrecorded : (s.shift k).ring.recorded text = (s.ring.recorded text).shift k :=
      Ring.recorded_shift h text
    rw [serve, hrecorded]
    exact drained_shift (s := ⟨s.ring.recorded text, s.sunk⟩) (by rw [hsize]; exact h) _
  | flush => exact drained_shift h _

end Desk

/-! ### From any position on -/

namespace Ring

variable {r : Ring} {N t n lost : ℕ} {l : List (Option (List UInt8))} {d : Bool}

/-- An empty ring at the position. -/
def startingAt (N : ℕ) (p : BitVec 64) : Ring := { new N with head := p, tail := p }

lemma stands_startingAt (N : ℕ) (p : BitVec 64) :
    (startingAt N p).Stands N p.toNat (List.replicate p.toNat (some [])) 0 false := by
  have hsize : (startingAt N p).size = N := by simp [startingAt, new, size]
  have hlength : (List.replicate p.toNat (some ([] : List UInt8))).length = p.toNat :=
    List.length_replicate
  refine ⟨⟨by simp [startingAt], by simp [startingAt], hlength.ge, ?_, ?_, ?_, ?_, ?_⟩, hsize, rfl,
    rfl⟩
  · rw [hlength]
    exact Nat.le_add_right _ _
  · rw [hlength]
    exact p.isLt
  · intro q hq
    exact ⟨[], by simp [hq]⟩
  · intro q b hq hb
    have hlt := (List.getElem?_eq_some_iff.1 hb).1
    omega
  · intro i hi _
    rw [hsize] at hi
    simp [slotAt, startingAt, new, hi]

/-- A ring stands as well some rounds before. -/
lemma Stands.shift_neg (h : r.Stands N t l lost d) (hdvd : N ∣ n) (hle : n ≤ t) :
    (r.shift (-BitVec.ofNat 64 n)).Stands N (t - n) (l.drop n) lost d := by
  obtain ⟨hholds, hsize, hlost, hdraining⟩ := h
  have hlen := hholds.le
  have hback : ∀ p, n ≤ p → BitVec.ofNat 64 p + -BitVec.ofNat 64 n = BitVec.ofNat 64 (p - n) := by
    intro p hp
    rw [add_neg_eq_iff_eq_add, ← BitVec.ofNat_add, Nat.sub_add_cancel hp]
  have hmod : ∀ p, n ≤ p → (p - n) % r.size = p % r.size := by
    intro p hp
    obtain ⟨i, rfl⟩ := hdvd
    rw [hsize, Nat.sub_mul_mod hp]
  have hslot : ∀ i, (r.shift (-BitVec.ofNat 64 n)).slotAt i = r.slotAt i := fun _ => rfl
  refine ⟨⟨?_, ?_, ?_, ?_, ?_, ?_, ?_, ?_⟩, hsize, hlost, hdraining⟩
  · exact (congrArg (· + _) hholds.tail).trans (hback t hle)
  · rw [List.length_drop]
    exact (congrArg (· + _) hholds.head).trans (hback _ (hle.trans hlen))
  · rw [List.length_drop]
    omega
  · have hfits := hholds.fits
    rw [List.length_drop, shift_size]
    omega
  · have hbound := hholds.bound
    rw [List.length_drop]
    omega
  · intro p hp
    rw [List.getElem?_drop]
    exact hholds.drained (n + p) (by omega)
  · intro p b hp hb
    rw [List.getElem?_drop] at hb
    have hshifted := hmod (n + p) (Nat.le_add_right n p)
    rw [Nat.add_sub_cancel_left] at hshifted
    rw [shift_size, hslot, hshifted]
    exact hholds.slot (n + p) b (by omega) hb
  · intro i hi hfree
    rw [shift_size] at hi hfree
    refine hholds.free i hi fun p hp hp' => ?_
    rw [← hmod p (hle.trans hp)]
    exact hfree (p - n) (by omega) (by rw [List.length_drop]; omega)

end Ring

/-- How many pieces were taken in before only counts for their number. -/
lemma Backlog.serve_taken (N : ℕ) (q : Backlog) (n : ℕ) (demand : Demand) :
    serve N { q with taken := n } demand =
      { q.serve N demand with taken := (serve N { q with taken := n } demand).taken } := by
  cases demand <;> rfl

namespace Desk

variable {N n : ℕ} {q : Backlog} {s : Desk} {k : BitVec 64} {filter : Filter}

/-- The desk and the queue agree, some rounds of the ring before. -/
def Turned (N : ℕ) (q : Backlog) (s : Desk) : Prop :=
  ∃ k s' n, Turn N k ∧ s = s'.shift k ∧ n < N + q.waiting.length ∧ Agrees N { q with taken := n } s'

lemma turned_of_agrees (hpos : 0 < N) (hturn : Turn N k) (h : Agrees N { q with taken := n } s) :
    Turned N q (s.shift k) := by
  obtain ⟨hfits, hsunk, done, lost, htaken, hlost, hring⟩ := h
  -- back by whole rounds, so that less than one is done
  have hdvd : N ∣ N * (done.length / N) := Nat.dvd_mul_right _ _
  have hle : N * (done.length / N) ≤ done.length := Nat.mul_div_le _ _
  have hrest : done.length - N * (done.length / N) < N := by
    have hdiv := Nat.div_add_mod done.length N
    have hmod := Nat.mod_lt done.length hpos
    omega
  generalize N * (done.length / N) = m at hdvd hle hrest
  refine ⟨BitVec.ofNat 64 m + k, s.shift (-BitVec.ofNat 64 m),
    (done.drop m ++ q.waiting).length, ⟨hturn.lt, hturn.dvd, ?_⟩, ?_, ?_, hfits, hsunk,
    done.drop m, lost, rfl, hlost, ?_⟩
  · rw [BitVec.toNat_add, BitVec.toNat_ofNat]
    have hm : N ∣ m % 2 ^ 64 := (Nat.dvd_mod_iff hturn.dvd).2 hdvd
    exact (Nat.dvd_mod_iff hturn.dvd).2 (Nat.dvd_add hm hturn.step)
  · have hback : ∀ p : BitVec 64, p + -BitVec.ofNat 64 m + (BitVec.ofNat 64 m + k) = p + k :=
      fun p => by rw [add_assoc, neg_add_cancel_left]
    simp only [shift, Ring.shift, hback]
  · rw [List.length_append, List.length_drop]
    omega
  · have hstands := hring.shift_neg hdvd hle
    rw [← List.map_drop, List.drop_append_of_le_length hle] at hstands
    rw [List.length_drop]
    exact hstands

lemma Turned.serve (hpos : 0 < N) (h : Turned N q s) {call : Call} {demand : Demand}
    (hdemand : call.demand? filter = some demand) :
    Turned N (q.serve N demand) (s.serve demand) := by
  obtain ⟨k, s, n, hturn, rfl, hn, hagrees⟩ := h
  have hfits : q.waiting.length ≤ N := hagrees.fits
  have hdouble : 2 * N ≤ 2 ^ 64 := by
    obtain ⟨i, hi⟩ := hturn.dvd
    have hlt := hturn.lt
    -- a divisor other than the power itself is at most half of it
    rcases i with _ | _ | i
    · omega
    · omega
    · rw [hi, Nat.mul_comm]
      exact Nat.mul_le_mul_left N (by omega)
  have hbound : (Backlog.serve N { q with taken := n } demand).taken < 2 ^ 64 := by
    cases demand with
    | enter text =>
      show n + ((pieces text).take (N - q.waiting.length)).length < 2 ^ 64
      rw [List.length_take]
      omega
    | flush =>
      show n < 2 ^ 64
      omega
  obtain ⟨done, lost, -, -, hring⟩ := hagrees.ring
  have hdemands : [call].filterMap (Call.demand? filter) = [demand] :=
    List.filterMap_cons_some hdemand
  have hserved := hagrees.foldl_serve filter [call] (by rw [hdemands]; exact hbound)
  rw [hdemands] at hserved
  change Agrees N (Backlog.serve N { q with taken := n } demand) (s.serve demand) at hserved
  rw [Backlog.serve_taken] at hserved
  rw [serve_shift (by rw [hring.size]; exact hturn)]
  exact turned_of_agrees hpos hturn hserved

lemma Turned.foldl_serve (hpos : 0 < N) (h : Turned N q s) (filter : Filter) (calls : List Call) :
    Turned N (q.serveAll N (calls.filterMap (Call.demand? filter)))
      ((calls.filterMap (Call.demand? filter)).foldl Desk.serve s) := by
  induction calls generalizing q s with
  | nil => exact h
  | cons call rest ih =>
    cases hdemand : call.demand? filter with
    | none =>
      rw [List.filterMap_cons_none hdemand]
      exact ih h
    | some demand =>
      rw [List.filterMap_cons_some hdemand]
      exact ih (h.serve hpos hdemand)

lemma agrees_startingAt (N : ℕ) (p : BitVec 64) :
    Agrees N { taken := p.toNat } ⟨.startingAt N p, []⟩ := by
  refine ⟨Nat.zero_le _, rfl, List.replicate p.toNat [], 0, by simp, by simp, ?_⟩
  simpa using Ring.stands_startingAt N p

/-- What comes to the sink if the calls return, made from an empty ring of `N` slots at the
position. -/
def delivered (N : ℕ) (p : BitVec 64) (filter : Filter) (calls : List Call) :
    Option (List (List UInt8)) :=
  match performAll filter calls ⟨.startingAt N p, []⟩ with
  | .ok _ s => some s.sunk
  | .error _ _ => none

lemma delivered_eq_serve (N : ℕ) (p : BitVec 64) (filter : Filter) (calls : List Call) :
    delivered N p filter calls =
      some ((calls.filterMap (Call.demand? filter)).foldl serve ⟨.startingAt N p, []⟩).sunk := by
  rw [delivered, performAll_eq_serve rfl]

/-- What the queue lets through. -/
def due (N : ℕ) (filter : Filter) (calls : List Call) : List (List UInt8) :=
  (Backlog.serveAll N (calls.filterMap (Call.demand? filter)) {}).sunk

lemma delivered_of_dvd (hpos : 0 < N) (hlt : N < 2 ^ 64) (hdvd : N ∣ 2 ^ 64) (p : BitVec 64)
    (calls : List Call) : delivered N p filter calls = some (due N filter calls) := by
  have hturned : Turned N {} ((⟨.startingAt N p, []⟩ : Desk).shift 0#64) :=
    turned_of_agrees hpos ⟨hlt, hdvd, Nat.dvd_zero N⟩ (agrees_startingAt N p)
  have hzero : (⟨.startingAt N p, []⟩ : Desk).shift 0#64 = ⟨.startingAt N p, []⟩ := by
    simp [shift, Ring.shift]
  rw [hzero] at hturned
  obtain ⟨k, s', n, -, hs, -, hagrees⟩ := hturned.foldl_serve hpos filter calls
  rw [delivered_eq_serve, hs]
  exact congrArg some hagrees.sunk

end Desk

/-! ### Two positions of one slot -/

namespace Ring

variable {r : Ring} {w : Writer} {N lost : ℕ} {text : List UInt8}

/-- A byte for which another slot is needed finds one that is empty, or the record is cut short. -/
lemma push_cases (hw : w.truncated = false) (hfull : hasRoom w = false) (b : UInt8) :
    ((push (r, w) b).1.lost = r.lost + 1 ∧ (push (r, w) b).2 = { truncated := true }) ∨
    ((r.publish w).slotAt ((r.publish w).index r.head) = .empty ∧
      push (r, w) b = ((r.publish w).reserved ((r.publish w).index r.head),
        { slot := some ((r.publish w).index r.head, [b]) })) := by
  rw [push_of_full hw hfull, advance, reserve_eq_ite, publish_head]
  split_ifs with hused hempty
  · exact .inl ⟨congrArg (· + 1) (publish_lost r w), rfl⟩
  · exact .inr ⟨hempty, by simp [hw]⟩
  · exact .inl ⟨congrArg (· + 1) (publish_lost r w), rfl⟩

/-- A record that began at the last position has written the text. As long as it is not cut short,
its pieces after the first went to the slots from the first on, and the slot of the last position is
not reached yet. -/
inductive Crossing (N lost : ℕ) : List UInt8 → Ring × Writer → Prop where
  | start {r : Ring} (size : r.size = N) (head : r.head = BitVec.allOnes 64)
      (kept : r.lost = lost) : Crossing N lost [] (r, {})
  | filling {r : Ring} {text last : List UInt8} {init : List (List UInt8)} {i : ℕ}
      (cut : pieces text = init ++ [last]) (size : r.size = N)
      (head : r.head = BitVec.ofNat 64 init.length) (kept : r.lost = lost)
      (short : init.length < 2 ^ 64 % N) (used : r.slotAt (2 ^ 64 % N - 1) ≠ .empty) :
      Crossing N lost text (r, { slot := some (i, last) })
  | truncated {r : Ring} {text : List UInt8} (told : r.lost = lost + 1) :
      Crossing N lost text (r, { truncated := true })

/-- Another slot, which is that of the last position or one before it. -/
lemma Crossing.next (init : List (List UInt8)) {b : UInt8} (hw : w.truncated = false)
    (hfull : hasRoom w = false) (hcut : pieces (text ++ [b]) = init ++ [[b]]) (hpos : 0 < N)
    (hsize : r.size = N) (hhead : r.head + 1#64 = BitVec.ofNat 64 init.length)
    (hkept : r.lost = lost)
    (hshort : (r.publish w).slotAt ((r.publish w).index r.head) = .empty →
      init.length < 2 ^ 64 % N)
    (hused : (r.publish w).index r.head = 2 ^ 64 % N - 1 ∨
      (r.publish w).slotAt (2 ^ 64 % N - 1) ≠ .empty) :
    Crossing N lost (text ++ [b]) (Ring.push (r, w) b) := by
  have hsize' : (r.publish w).size = N := (publish_size r w).trans hsize
  rcases push_cases (r := r) hw hfull b with ⟨htold, htruncated⟩ | ⟨hempty, hpush⟩
  · -- the slot at the head is in use, and the record is cut short
    rw [← Prod.mk.eta (p := Ring.push (r, w) b), htruncated]
    exact .truncated (by rw [htold, hkept])
  · rw [hpush]
    refine .filling hcut ((reserved_size _).trans hsize') ?_ ((publish_lost r w).trans hkept)
      (hshort hempty) ?_
    · exact (congrArg (· + 1#64) (publish_head r w)).trans hhead
    · rw [reserved, slotAt_setSlot]
      split_ifs with hslot
      · exact Slot.noConfusion
      · -- the slot of the last position stays in use
        rcases hused with hindex | hused
        · refine absurd ⟨hindex, ?_⟩ hslot
          show r.head.toNat % (r.publish w).size < (r.publish w).size
          rw [hsize']
          exact Nat.mod_lt _ hpos
        · exact hused

lemma Crossing.push {rw : Ring × Writer} (h : Crossing N lost text rw) (hpos : 0 < N)
    (hdvd : ¬ N ∣ 2 ^ 64) (b : UInt8) : Crossing N lost (text ++ [b]) (Ring.push rw b) := by
  have hrest : 0 < 2 ^ 64 % N := Nat.emod_pos_of_not_dvd hdvd
  have hless : 2 ^ 64 % N < N := Nat.mod_lt _ hpos
  cases h with
  | @start r size head kept =>
    have hindex : r.index r.head = 2 ^ 64 % N - 1 := by
      have hdiv := Nat.div_add_mod (2 ^ 64) N
      have hlast : 2 ^ 64 - 1 = N * (2 ^ 64 / N) + (2 ^ 64 % N - 1) := by omega
      rw [index, size, head, BitVec.toNat_allOnes, hlast, Nat.mul_add_mod, Nat.mod_eq_of_lt]
      omega
    exact Crossing.next [] rfl rfl (by rw [List.nil_append, pieces_singleton]; rfl) hpos size
      (by rw [head]; rfl) kept (fun _ => hrest) (.inl hindex)
  | @filling r text last init i cut size head kept short used =>
    have hsnoc := pieces_snoc_of_eq cut b
    by_cases hroom : last.length < slotLength
    · rw [if_pos hroom] at hsnoc
      have hpush : Ring.push (r, { slot := some (i, last) }) b =
          (r, { slot := some (i, last ++ [b]) }) := by
        simp [Ring.push, hasRoom, hroom]
      rw [hpush]
      exact .filling hsnoc size head kept short used
    · rw [if_neg hroom] at hsnoc
      have hpublished : (r.setSlot i (.ready last)).slotAt (2 ^ 64 % N - 1) ≠ .empty := by
        rw [slotAt_setSlot]
        split_ifs
        · exact Slot.noConfusion
        · exact used
      have hindex : (r.setSlot i (.ready last)).index r.head = init.length := by
        have hle : 2 ^ 64 % N ≤ 2 ^ 64 := Nat.mod_le _ _
        rw [index, setSlot_size, size, head, BitVec.toNat_ofNat,
          Nat.mod_eq_of_lt (a := init.length), Nat.mod_eq_of_lt] <;> omega
      refine Crossing.next (init ++ [last]) rfl (by simpa [hasRoom] using hroom)
        (by rw [hsnoc]; simp) hpos size ?_ kept (fun hempty => ?_) (.inr hpublished)
      · rw [head, List.length_append, List.length_singleton, BitVec.ofNat_add]
      · -- the slot of the last position stops the text, so it has not got that far
        have hother : init.length ≠ 2 ^ 64 % N - 1 := by
          rintro he
          refine hpublished ?_
          rw [← he, ← hindex]
          exact hempty
        rw [List.length_append, List.length_singleton]
        omega
  | @truncated r text told => exact .truncated told

lemma Crossing.write {rw : Ring × Writer} (h : Crossing N lost text rw) (hpos : 0 < N)
    (hdvd : ¬ N ∣ 2 ^ 64) (more : List UInt8) :
    Crossing N lost (text ++ more) (Ring.write rw more) := by
  induction more generalizing text rw with
  | nil =>
    rw [List.append_nil]
    exact h
  | cons b rest ih =>
    have hassoc : text ++ b :: rest = text ++ [b] ++ rest := by simp
    rw [hassoc]
    exact ih (h.push hpos hdvd b)

/-- A record from the last position on is cut short where it needs the slot of that position
again. -/
lemma lost_recorded (hpos : 0 < N) (hdvd : ¬ N ∣ 2 ^ 64) (hsize : r.size = N)
    (hhead : r.head = BitVec.allOnes 64) (hlong : 2 ^ 64 % N < (pieces text).length) :
    (r.recorded text).lost = r.lost + 1 := by
  have hcrossing := (Crossing.start hsize hhead rfl).write hpos hdvd text
  rw [List.nil_append] at hcrossing
  rw [recorded, publish_lost]
  generalize Ring.write (r, {}) text = rw at hcrossing
  cases hcrossing with
  | start => simp at hlong
  | filling cut _ _ _ short =>
    rw [cut, List.length_append, List.length_singleton] at hlong
    omega
  | truncated told => exact told

end Ring

/-- A text of `m` whole pieces and some more. -/
def lengthy (m : ℕ) : List UInt8 :=
  recordText .error none none (List.replicate (slotLength * m) "x") {}

lemma length_lengthy (m : ℕ) : (lengthy m).length = slotLength * m + 49 := by
  have hheading : ((heading .error none none {}).flatMap Text.utf8).length = 48 := by
    decide +kernel
  have hbyte : (Text.utf8 "x").length = 1 := by decide +kernel
  have hend : (Text.utf8 "\n").length = 1 := by decide +kernel
  rw [lengthy, recordText, List.flatMap_append, List.flatMap_append, List.length_append,
    List.length_append, hheading]
  simp [List.flatMap_replicate, hbyte, hend]
  omega

lemma length_pieces_lengthy (m : ℕ) : (pieces (lengthy m)).length = m + 1 := by
  simp only [pieces, List.length_map, List.length_range, length_lengthy, slotLength]
  omega

lemma pieces_lengthy_zero : pieces (lengthy 0) = [lengthy 0] := by
  have hlength := length_lengthy 0
  exact pieces_of_le (List.ne_nil_of_length_pos (by omega)) (by rw [hlength]; decide)

lemma slotLength_le_lengthy {m : ℕ} (hm : 0 < m) : slotLength ≤ (lengthy m).length := by
  rw [length_lengthy]
  exact (Nat.le_mul_of_pos_right slotLength hm).trans (Nat.le_add_right _ _)

lemma lostNotice_ne_take_lengthy {m : ℕ} (hm : 0 < m) :
    Text.utf8 lostNotice ≠ (lengthy m).take slotLength := by
  intro heq
  have hlengths := congrArg List.length heq
  have hnotice : (Text.utf8 lostNotice).length = 26 := by decide +kernel
  rw [hnotice, List.length_take_of_le (slotLength_le_lengthy hm)] at hlengths
  exact absurd hlengths (by decide)

namespace Backlog

variable {N : ℕ} {q : Backlog}

lemma serveAll_lengthy_zero (hN : 3 ≤ N) (hwaiting : q.waiting = []) (hlossy : q.lossy = false)
    (n : ℕ) : q.serveAll N (List.replicate n (.enter (lengthy 0))) =
      { q with sunk := q.sunk ++ List.replicate n (lengthy 0), taken := q.taken + n } := by
  have htexts : (List.replicate n (Demand.enter (lengthy 0))).filterMap Demand.text? =
      List.replicate n (lengthy 0) := List.filterMap_replicate_of_some rfl
  have hpieces : (List.replicate n (lengthy 0)).flatMap pieces = List.replicate n (lengthy 0) := by
    rw [List.flatMap_replicate, pieces_lengthy_zero, List.flatten_replicate_singleton]
  have hshort : (lengthy 0).length ≤ slotLength * (N / 3) := by
    rw [length_lengthy]
    simp only [slotLength]
    omega
  rw [serveAll_of_short _ hwaiting hlossy fun text htext => ?_, htexts, hpieces,
    List.length_replicate]
  rw [htexts] at htext
  rw [List.eq_of_mem_replicate htext]
  exact hshort

/-- A record that fits where nothing waits is not cut short. -/
lemma sunk_serve_lengthy {m : ℕ} (hm : m < N) (hwaiting : q.waiting = [])
    (hlossy : q.lossy = false) :
    (q.serve N (.enter (lengthy m))).sunk = q.sunk ++ (pieces (lengthy m)).take (N / 3) := by
  have hfitting : q.fitting N (lengthy m) = pieces (lengthy m) := by
    rw [fitting, hwaiting, List.take_of_length_le]
    rw [length_pieces_lengthy]
    exact hm
  simp [serve, enter, release, hfitting, hwaiting, hlossy]

lemma taken_serve_le (N : ℕ) (text : List UInt8) : (serveAll N [.enter text] {}).taken ≤ N := by
  show 0 + ((pieces text).take (N - 0)).length ≤ N
  rw [Nat.zero_add, List.length_take]
  exact Nat.min_le_left _ _

end Backlog

namespace Desk

variable {N n : ℕ} {p : BitVec 64}

def lengthyRecord (m : ℕ) : Call :=
  .log .error none none (List.replicate (slotLength * m) "x") {}

lemma demand?_lengthyRecord (m : ℕ) :
    (lengthyRecord m).demand? (some .error) = some (.enter (lengthy m)) := rfl

/-- Some records of one piece, and one that needs the slot of its first piece again if that is at
the last position. -/
def untilLast (N n : ℕ) : List Call :=
  List.replicate n (lengthyRecord 0) ++ [lengthyRecord (2 ^ 64 % N)]

lemma filterMap_untilLast (N n : ℕ) :
    (untilLast N n).filterMap (Call.demand? (some .error)) =
      List.replicate n (.enter (lengthy 0)) ++ [.enter (lengthy (2 ^ 64 % N))] := by
  rw [untilLast, List.filterMap_append, List.filterMap_replicate_of_some (demand?_lengthyRecord 0)]
  rfl

lemma due_untilLast (hN : 3 ≤ N) (n : ℕ) :
    due N (some .error) (untilLast N n) =
      List.replicate n (lengthy 0) ++ (pieces (lengthy (2 ^ 64 % N))).take (N / 3) := by
  have hfirst := Backlog.serveAll_lengthy_zero (q := {}) hN rfl rfl n
  rw [Backlog.serveAll] at hfirst
  rw [due, filterMap_untilLast, Backlog.serveAll, List.foldl_append, hfirst]
  exact Backlog.sunk_serve_lengthy (Nat.mod_lt _ (by omega)) rfl rfl

/-- Records of one piece come out at once and lead from any position to the last one. -/
lemma foldl_serve_lengthy_zero (hN : 3 ≤ N) (hn : p.toNat + n = 2 ^ 64 - 1) {s : Desk}
    (hs : s = (List.replicate n (Demand.enter (lengthy 0))).foldl serve ⟨.startingAt N p, []⟩) :
    s.ring.size = N ∧ s.ring.head = BitVec.allOnes 64 ∧ s.sunk = List.replicate n (lengthy 0) := by
  have hdemands : (List.replicate n (lengthyRecord 0)).filterMap (Call.demand? (some .error)) =
      List.replicate n (.enter (lengthy 0)) :=
    List.filterMap_replicate_of_some (demand?_lengthyRecord 0)
  have hqueue := Backlog.serveAll_lengthy_zero (q := { taken := p.toNat }) hN rfl rfl n
  have hagrees := (agrees_startingAt N p).foldl_serve (some .error)
    (List.replicate n (lengthyRecord 0))
    (by rw [hdemands, hqueue]; show p.toNat + n < 2 ^ 64; omega)
  rw [hdemands, hqueue, ← hs] at hagrees
  obtain ⟨-, hsunk, done, lost, htaken, -, hring⟩ := hagrees
  refine ⟨hring.size, ?_, hsunk⟩
  rw [hring.holds.head, List.length_map, ← htaken]
  show BitVec.ofNat 64 (p.toNat + n) = _
  rw [hn]
  decide

/-- From any position there are calls that lead to the last one. There the next record is cut short,
so that the notice comes to the sink where its first piece is due. -/
lemma delivered_untilLast_ne (hpos : 0 < N) (hdvd : ¬ N ∣ 2 ^ 64) (hn : p.toNat + n = 2 ^ 64 - 1) :
    delivered N p (some .error) (untilLast N n) ≠ some (due N (some .error) (untilLast N n)) := by
  have hN : 3 ≤ N := by
    by_contra hlt
    interval_cases N <;> exact hdvd (by decide)
  obtain ⟨s, hs⟩ : ∃ s, s =
      (List.replicate n (Demand.enter (lengthy 0))).foldl serve ⟨.startingAt N p, []⟩ := ⟨_, rfl⟩
  obtain ⟨hsize, hhead, hsunk⟩ := foldl_serve_lengthy_zero hN hn hs
  rw [delivered_eq_serve, due_untilLast hN, filterMap_untilLast, List.foldl_append, ← hs]
  have hrest : 0 < 2 ^ 64 % N := Nat.emod_pos_of_not_dvd hdvd
  generalize hm : 2 ^ 64 % N = m at hrest
  have htold := Ring.lost_recorded (r := s.ring) hpos hdvd hsize hhead
    (by rw [hm, length_pieces_lengthy]; exact Nat.lt_succ_self m)
  have hserved : (s.serve (.enter (lengthy m))).sunk =
      s.sunk ++ notice (s.ring.recorded (lengthy m)).lost ++ _ := rfl
  obtain ⟨k, hk⟩ : ∃ k, N / 3 = k + 1 := ⟨N / 3 - 1, by omega⟩
  intro heq
  rw [Option.some.injEq, List.foldl_cons, List.foldl_nil, hserved, htold, hsunk, notice,
    if_pos (Nat.succ_pos _), List.append_assoc, List.append_cancel_left_eq,
    pieces_of_ge (slotLength_le_lengthy hrest), hk, List.take_succ_cons, List.singleton_append,
    List.cons.injEq] at heq
  exact lostNotice_ne_take_lengthy hrest heq.1

/-- From the first position the queue is followed at least until the positions are used up. -/
lemma delivered_zero {filter : Filter} {calls : List Call}
    (hbound : (Backlog.serveAll N (calls.filterMap (Call.demand? filter)) {}).taken < 2 ^ 64) :
    delivered N 0#64 filter calls = some (due N filter calls) := by
  rw [delivered_eq_serve]
  exact congrArg some ((agrees_startingAt N 0#64).foldl_serve filter calls hbound).sunk

/-- **Positions wrap for the sizes that divide their number.** An empty ring of `N` slots delivers
the same from every position, whatever calls are made, exactly if `N` divides 2 ^ 64. Then it
delivers what the queue lets through, also across the end of the positions and for ever. If `N` does
not divide it, there are calls from every position for which something else is delivered. -/
theorem delivered_eq_iff_dvd (hpos : 0 < N) (hlt : N < 2 ^ 64) :
    ((∀ p filter calls, delivered N p filter calls = delivered N 0#64 filter calls) ↔
      N ∣ 2 ^ 64) ∧
    ∀ p, (∀ filter calls, delivered N p filter calls = some (due N filter calls)) ↔ N ∣ 2 ^ 64 := by
  constructor
  · constructor
    · -- a start one position before the wrap shows the difference
      intro hsame
      by_contra hdvd
      have hlast : (BitVec.allOnes 64).toNat + 0 = 2 ^ 64 - 1 := by decide
      refine delivered_untilLast_ne hpos hdvd hlast ((hsame _ _ _).trans (delivered_zero ?_))
      rw [filterMap_untilLast]
      exact (Backlog.taken_serve_le N _).trans_lt hlt
    · intro hdvd p filter calls
      rw [delivered_of_dvd hpos hlt hdvd, delivered_of_dvd hpos hlt hdvd]
  · intro p
    constructor
    · -- from any start the last position can be reached first
      intro hdue
      by_contra hdvd
      have hn : p.toNat + (2 ^ 64 - 1 - p.toNat) = 2 ^ 64 - 1 := by
        have hlt := p.isLt
        omega
      exact delivered_untilLast_ne hpos hdvd hn (hdue _ _)
    · intro hdvd filter calls
      exact delivered_of_dvd hpos hlt hdvd p calls

/-- A record of two pieces, one of one piece and a flush. -/
def twoRecords : List Call := [lengthyRecord 1, lengthyRecord 0, .flush]

theorem delivered_eq_iff_dvd_four :
    delivered 4 (BitVec.allOnes 64) (some .error) twoRecords =
        some (due 4 (some .error) twoRecords) ∧
      (due 4 (some .error) twoRecords).map List.length = [120, 49, 49] :=
  ⟨((delivered_eq_iff_dvd (by decide) (by decide)).2 _).2 (by decide) _ _, by decide +kernel⟩

/-- In a ring of three slots the second piece would go to the slot of the first. It is lost, and the
record after it does not come out at the flush. -/
theorem delivered_three_ne :
    (delivered 3 (BitVec.allOnes 64) (some .error) twoRecords).map (·.map List.length) =
        some [26, 120] ∧
      (delivered 3 0#64 (some .error) twoRecords).map (·.map List.length) =
        some [120, 49, 49] := by
  decide +kernel

end Desk

end BoardSupport.Log
