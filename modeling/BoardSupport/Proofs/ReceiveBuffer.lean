import BoardSupport.Interrupt.Reception
import BoardSupport.Proofs.Outcome

/-!
What a receive buffer makes of the units that it is given: it keeps as many as it has room for,
in order, and counts the others. The loop that fills a buffer is dealt with here once for all
places that a buffer may have and for anything that may go on while units are taken.
-/

namespace BoardSupport.ReceiveBuffer

variable {b b₁ b₂ : ReceiveBuffer} {units more : List Word}

@[simp] lemma write_width (i : ℕ) (u : Word) : (b.write i u).width = b.width := rfl
@[simp] lemma write_count (i : ℕ) (u : Word) : (b.write i u).count = b.count := rfl
@[simp] lemma write_dropped (i : ℕ) (u : Word) : (b.write i u).dropped = b.dropped := rfl
@[simp] lemma write_capacity (i : ℕ) (u : Word) : (b.write i u).capacity = b.capacity := by
  simp [capacity, write]

lemma write_cut (i : ℕ) (u : Word) : b.write i (b.width.cut u) = b.write i u := by
  rw [write, write, Width.cut_cut]

/-- The units written to the places from `i` up. -/
def writeFrom (b : ReceiveBuffer) (i : ℕ) : List Word → ReceiveBuffer
  | [] => b
  | unit :: rest => (b.write i unit).writeFrom (i + 1) rest

@[simp] lemma writeFrom_width (i : ℕ) : (b.writeFrom i units).width = b.width := by
  induction units generalizing b i with
  | nil => rfl
  | cons u rest ih => rw [writeFrom, ih, write_width]

@[simp] lemma writeFrom_dropped (i : ℕ) : (b.writeFrom i units).dropped = b.dropped := by
  induction units generalizing b i with
  | nil => rfl
  | cons u rest ih => rw [writeFrom, ih, write_dropped]

@[simp] lemma writeFrom_capacity (i : ℕ) : (b.writeFrom i units).capacity = b.capacity := by
  induction units generalizing b i with
  | nil => rfl
  | cons u rest ih => rw [writeFrom, ih, write_capacity]

/-- Places that do not exist take nothing. -/
lemma writeFrom_of_capacity_le {i : ℕ} (h : b.capacity ≤ i) : b.writeFrom i units = b := by
  induction units generalizing b i with
  | nil => rfl
  | cons u rest ih =>
    have hw : b.write i u = b := by
      rw [write, List.set_eq_of_length_le h]
    rw [writeFrom, hw, ih (by omega)]

lemma writeFrom_append (i : ℕ) :
    b.writeFrom i (units ++ more) = (b.writeFrom i units).writeFrom (i + units.length) more := by
  induction units generalizing b i with
  | nil => rfl
  | cons u rest ih =>
    rw [List.cons_append, writeFrom, ih, writeFrom, List.length_cons, Nat.add_assoc,
      Nat.add_comm 1]

lemma take_writeFrom {i : ℕ} (h : i ≤ b.capacity) :
    (b.writeFrom i units).slots.take (i + units.length) =
      b.slots.take i ++ (units.take (b.capacity - i)).map b.width.cut := by
  induction units generalizing b i with
  | nil => simp [writeFrom]
  | cons u rest ih =>
    rcases Nat.lt_or_ge i b.capacity with hi | hi
    · rw [writeFrom, List.length_cons, show i + (rest.length + 1) = i + 1 + rest.length by omega,
        ih (by rw [write_capacity]; omega), write_capacity, write_width,
        show b.capacity - i = b.capacity - (i + 1) + 1 by omega, List.take_succ_cons, List.map_cons]
      have hset : (b.write i u).slots.take (i + 1) = b.slots.take i ++ [b.width.cut u] := by
        have hi' : i < (b.slots.set i (b.width.cut u)).length := by
          rw [List.length_set]; exact hi
        rw [write, List.take_succ_eq_append_getElem hi', List.getElem_set_self,
          List.take_set_of_le (Nat.le_refl i)]
      rw [hset, List.append_assoc, List.singleton_append]
    · rw [writeFrom_of_capacity_le hi]
      have hlen : b.slots.length ≤ i := hi
      simp [List.take_of_length_le hlen, List.take_of_length_le (Nat.le_add_right_of_le hlen),
        Nat.sub_eq_zero_of_le hi]

/-- What has become of a buffer that was given `units`. -/
structure Took (b : ReceiveBuffer) (units : List Word) (b' : ReceiveBuffer) : Prop where
  width : b'.width = b.width
  capacity : b'.capacity = b.capacity
  count : b'.count = b.count + min units.length (b.capacity - b.count)
  received : b'.received = b.received ++ (units.take (b.capacity - b.count)).map b.width.cut
  dropped : b'.dropped = b.dropped + (units.length - (b.capacity - b.count))

lemma took_nil (b : ReceiveBuffer) : b.Took [] b := ⟨rfl, rfl, by simp, by simp, by simp⟩

lemma Took.trans (h : b.Took units b₁) (h' : b₁.Took more b₂) : b.Took (units ++ more) b₂ := by
  obtain ⟨hw, hcap, hc, hr, hd⟩ := h
  obtain ⟨hw', hcap', hc', hr', hd'⟩ := h'
  have hroom : b₁.capacity - b₁.count = b.capacity - b.count - units.length := by
    rw [hcap, hc]; omega
  refine ⟨hw'.trans hw, hcap'.trans hcap, ?_, ?_, ?_⟩
  · rw [hc', hroom, hc, List.length_append]; omega
  · rw [hr', hr, hroom, hw, List.take_append, List.map_append, List.append_assoc]
  · rw [hd', hroom, hd, List.length_append]; omega

/-- Writing above the count and publishing. -/
lemma took_writeFrom (b : ReceiveBuffer) (units : List Word) :
    b.Took units
      { b.writeFrom b.count units with
        count := b.count + min units.length (b.capacity - b.count)
        dropped := b.dropped + (units.length - (b.capacity - b.count)) } := by
  refine ⟨writeFrom_width _, writeFrom_capacity _, rfl, ?_, rfl⟩
  show (b.writeFrom b.count units).slots.take
    (b.count + min units.length (b.capacity - b.count)) = b.slots.take b.count ++ _
  rcases Nat.le_total b.count b.capacity with h | h
  · have ht : _ = b.slots.take b.count ++ (units.take _).map _ := take_writeFrom h
    have hlen : (b.writeFrom b.count units).slots.length = b.capacity := writeFrom_capacity _
    rw [← ht]
    rcases Nat.le_total units.length (b.capacity - b.count) with hu | hu
    · rw [Nat.min_eq_left hu]
    · rw [Nat.min_eq_right hu, List.take_of_length_le (by omega), List.take_of_length_le (by omega)]
  · rw [writeFrom_of_capacity_le h]
    simp [Nat.sub_eq_zero_of_le h]

/-! ### The loop that fills a buffer -/

variable {σ : Type} {buffer : Cell σ ReceiveBuffer} {next : ℕ → Proc σ Word} {start n : ℕ} {s : σ}

/-- What holds with no unit taken, and with one more taken whether or not there is a place for it,
holds with all taken. -/
lemma stops_fill {M : ℕ → ℕ → σ → Prop} {H : Halt → σ → Prop}
    (hnext : ∀ i < n, ∀ stored s, M i stored s → (next i).Stops s (fun unit s' =>
      (start + stored < (buffer.get s').capacity →
        M (i + 1) (stored + 1) (buffer.put ((buffer.get s').write (start + stored) unit) s')) ∧
      ((buffer.get s').capacity ≤ start + stored → M (i + 1) stored s')) H)
    (h : M 0 0 s) : (fill buffer next start n 0 0).Stops s (fun stored s' => M n stored s') H := by
  have hall : ∀ left i stored s, i + left = n → M i stored s →
      (fill buffer next start left i stored).Stops s (fun stored' s' => M n stored' s') H := by
    intro left
    induction left with
    | zero =>
      rintro i stored s rfl h
      exact (Proc.stops_pure stored).2 h
    | succ left ih =>
      intro i stored s hi h
      rw [fill, Proc.stops_bind]
      refine (hnext i (by omega) stored s h).mono (fun unit s₁ h₁ => ?_) fun _ _ he => he
      rw [Proc.stops_bind, Cell.stops_read]
      split
      · next hroom =>
        rw [Proc.stops_bind, Cell.stops_update]
        exact ih (i + 1) (stored + 1) _ (by omega) (h₁.1 hroom)
      · next hfull => exact ih (i + 1) stored s₁ (by omega) (h₁.2 (Nat.not_lt.1 hfull))
  exact hall n 0 0 s (Nat.zero_add n) h

/-- The same where the state does not matter if it halts. -/
lemma ends_fill {M : ℕ → ℕ → σ → Prop} {E : Halt → Prop}
    (hnext : ∀ i < n, ∀ stored s, M i stored s → (next i).Ends s (fun unit s' =>
      (start + stored < (buffer.get s').capacity →
        M (i + 1) (stored + 1) (buffer.put ((buffer.get s').write (start + stored) unit) s')) ∧
      ((buffer.get s').capacity ≤ start + stored → M (i + 1) stored s')) E)
    (h : M 0 0 s) : (fill buffer next start n 0 0).Ends s (fun stored s' => M n stored s') E :=
  Proc.ends_iff_stops.2 (stops_fill (fun i hi stored s hM =>
    Proc.ends_iff_stops.1 (hnext i hi stored s hM)) h)

/-- As many units as are asked for are taken, and those for which there is a place are written, if
nothing else touches the buffer. What `M` says of the units taken so far does not depend on it. -/
lemma ends_fill_units (hbuffer : buffer.Lawful) (hb : buffer.get s = b)
    {M : List Word → σ → Prop} {E : Halt → Prop}
    (hnext : ∀ units s, units.length < n → M units s →
      (next units.length).Ends s (fun unit s' => ∃ v, unit = b.width.cut v ∧
        buffer.get s' = buffer.get s ∧ ∀ b', M (units ++ [v]) (buffer.put b' s')) E)
    (h : M [] s) :
    (fill buffer next start n 0 0).Ends s (fun stored s' => ∃ units, units.length = n ∧
      M units s' ∧ buffer.get s' = b.writeFrom start units ∧
      stored = min n (b.capacity - start)) E := by
  refine ends_fill (M := fun i stored s' => ∃ units, units.length = i ∧ M units s' ∧
    buffer.get s' = b.writeFrom start units ∧ stored = min i (b.capacity - start)) ?_ ?_
  · rintro _ hi stored s₁ ⟨units, rfl, hM, hwritten, hstored⟩
    refine (hnext units s₁ hi hM).imp ?_
    rintro _ s₂ ⟨v, rfl, hkept, hM₂⟩
    have hwritten₂ : buffer.get s₂ = b.writeFrom start units := hkept.trans hwritten
    have hcapacity : (buffer.get s₂).capacity = b.capacity := by
      rw [hwritten₂, writeFrom_capacity]
    rw [hcapacity]
    refine ⟨fun hroom => ⟨units ++ [v], List.length_append, hM₂ _, ?_, by omega⟩,
      fun hfull => ⟨units ++ [v], List.length_append, ?_, ?_, by omega⟩⟩
    · -- there was a place for every unit before, so this one gets the next
      have hall : stored = units.length := by omega
      rw [hbuffer.get_put, hwritten₂, writeFrom_append, hall, writeFrom, writeFrom,
        ← write_cut (u := v), writeFrom_width]
    · rw [← hbuffer.put_get s₂]
      exact hM₂ _
    · -- the place of the unit lies beyond the last
      have hbeyond : (b.writeFrom start units).capacity ≤ start + units.length := by
        rw [writeFrom_capacity]
        omega
      rw [hwritten₂, writeFrom_append, writeFrom_of_capacity_le hbeyond]
  · exact ⟨[], rfl, h, hb, by rw [Nat.zero_min]⟩

end BoardSupport.ReceiveBuffer
