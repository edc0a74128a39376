import BoardSupport.Proofs.LogRing

/-!
What one record puts into the log ring.

A record fills slot after slot, and when it finds no other it keeps the slots that it has filled.
`Wrote` relates the writer to the chunks reserved since the record began, among which there may be
chunks of other records that were logged in between.
-/

namespace BoardSupport.Log

/-! ### The chunks of one record -/

section

variable {α β : Type} {i : ℕ} {l d : List α} {o u : List ℕ}

/-- The entries that belong to `i`, in order. -/
def own (i : ℕ) (l : List α) (owners : List ℕ) : List α :=
  ((l.zip owners).filter fun e => e.2 = i).map Prod.fst

lemma own_append (h : l.length = o.length) : own i (l ++ d) (o ++ u) = own i l o ++ own i d u := by
  simp [own, List.zip_append h]

@[simp] lemma own_cons_self (a : α) : own i (a :: l) (i :: o) = a :: own i l o := by
  simp [own]

lemma own_cons_of_ne (a : α) {j : ℕ} (h : j ≠ i) : own i (a :: l) (j :: o) = own i l o := by
  simp [own, h]

lemma own_eq_nil (h : i ∉ o) : own i l o = [] := by
  unfold own
  rw [List.map_eq_nil_iff, List.filter_eq_nil_iff]
  rintro ⟨a, j⟩ hmem hj
  simp only [decide_eq_true_eq] at hj
  subst hj
  exact h (List.of_mem_zip hmem).2

lemma own_map (f : α → β) : own i (l.map f) o = (own i l o).map f := by
  induction l generalizing o with
  | nil => rfl
  | cons a l ih =>
    cases o with
    | nil => rfl
    | cons j o =>
      by_cases hj : j = i
      · subst hj; simp [ih]
      · simp only [List.map_cons, own_cons_of_ne _ hj, ih]

lemma length_own (h : l.length = o.length) :
    (own i l o).length = o.count i := by
  induction l generalizing o with
  | nil =>
    cases o with
    | nil => rfl
    | cons j o => cases h
  | cons a l ih =>
    cases o with
    | nil => cases h
    | cons j o =>
      have hrest := ih (Nat.succ.inj h)
      by_cases hj : j = i
      · subst hj
        rw [own_cons_self, List.length_cons, hrest, List.count_cons_self]
      · rw [own_cons_of_ne a hj, hrest, List.count_cons_of_ne hj]

end

namespace Ring

/-! ### Reservations are counted -/

variable {N i base t : ℕ} {r r' : Ring} {w : Writer} {text bytes : List UInt8}

/-- How many positions are in use, as the ring counts them. -/
def used (r : Ring) : ℕ := (r.head - r.tail).toNat

lemma Holds.used_eq {l : List (Option (List UInt8))} (h : r.Holds t l) : r.used = l.length - t :=
  h.toNat_sub

/-- The ring `r'` has some more positions reserved than `r`, as far as there were slots. -/
structure Grew (r r' : Ring) : Prop where
  tail : r'.tail = r.tail
  size : r'.size = r.size
  le : r.used ≤ r'.used
  fits : r'.used = r.used ∨ r'.used ≤ r.size

lemma grew_refl (r : Ring) : Grew r r := ⟨rfl, rfl, le_rfl, .inl rfl⟩

lemma Grew.trans {r'' : Ring} (h : Grew r r') (h' : Grew r' r'') : Grew r r'' := by
  refine ⟨h'.tail.trans h.tail, h'.size.trans h.size, h.le.trans h'.le, ?_⟩
  rcases h'.fits with he | hle
  · rw [he]; exact h.fits
  · exact .inr (hle.trans h.size.le)

/-- The head tells how many were reserved. -/
lemma Grew.toNat_sub_head (h : Grew r r') : (r'.head - r.head).toNat = r'.used - r.used := by
  have hle := h.le
  unfold used at hle ⊢
  rw [h.tail] at hle ⊢
  bv_omega

lemma grew_of_eq (hhead : r'.head = r.head) (htail : r'.tail = r.tail) (hsize : r'.size = r.size) :
    Grew r r' := by
  have hused : r'.used = r.used := by rw [used, used, hhead, htail]
  exact ⟨htail, hsize, hused.ge, .inl hused⟩

section

variable (r : Ring) (w : Writer)

@[simp] lemma publish_head : (r.publish w).head = r.head := by
  unfold publish
  split <;> rfl

@[simp] lemma publish_tail : (r.publish w).tail = r.tail := by
  unfold publish
  split <;> rfl

@[simp] lemma publish_lost : (r.publish w).lost = r.lost := by
  unfold publish
  split <;> rfl

@[simp] lemma publish_draining : (r.publish w).draining = r.draining := by
  unfold publish
  split <;> rfl

@[simp] lemma publish_size : (r.publish w).size = r.size := by
  unfold publish
  split
  · exact setSlot_size _ _ _
  · rfl

@[simp] lemma publish_used : (r.publish w).used = r.used := by
  rw [used, used, publish_head, publish_tail]

end

lemma reserve_grew (hN : r.size < 2 ^ 64) : Grew r r.reserve.2 := by
  unfold reserve
  split
  · exact grew_refl r
  · next hroom =>
    have hgrew : Grew r { r with head := r.head + 1#64 } := by
      have hused : ({ r with head := r.head + 1#64 } : Ring).used = r.used + 1 := by
        unfold used
        bv_omega
      unfold used at hused
      refine ⟨rfl, rfl, by unfold used; omega, .inr ?_⟩
      unfold used
      omega
    dsimp only
    split
    · exact hgrew.trans (grew_of_eq rfl rfl (setSlot_size _ _ _))
    · exact hgrew

lemma advance_grew (hN : r.size < 2 ^ 64) : Grew r (r.advance w).1 := by
  have hpublish : Grew r (r.publish w) := grew_of_eq (by simp) (by simp) (by simp)
  have hreserve := reserve_grew (r := r.publish w) (by rw [publish_size]; exact hN)
  unfold advance
  split
  · next j r' he =>
    rw [he] at hreserve
    exact hpublish.trans hreserve
  · next r' he =>
    rw [he] at hreserve
    exact hpublish.trans (hreserve.trans (grew_of_eq rfl rfl rfl))

lemma push_grew (hN : r.size < 2 ^ 64) (b : UInt8) : Grew r (push (r, w) b).1 := by
  unfold push
  split
  · exact grew_refl r
  · dsimp only
    split
    · exact grew_refl r
    · exact advance_grew hN

lemma write_grew (hN : r.size < 2 ^ 64) : Grew r (write (r, w) bytes).1 := by
  induction bytes generalizing r w with
  | nil => exact grew_refl r
  | cons b rest ih =>
    have hpush := push_grew (w := w) hN b
    exact hpush.trans (ih (by rw [hpush.size]; exact hN))

lemma reserve_draining (r : Ring) : r.reserve.2.draining = r.draining := by
  unfold reserve
  dsimp only
  split_ifs <;> rfl

lemma advance_draining (r : Ring) (w : Writer) : (r.advance w).1.draining = r.draining := by
  have hreserve := (reserve_draining (r.publish w)).trans (publish_draining r w)
  unfold advance
  split
  · next he => rw [he] at hreserve; exact hreserve
  · next he => rw [he] at hreserve; exact hreserve

lemma write_draining : (write (r, w) bytes).1.draining = r.draining := by
  induction bytes generalizing r w with
  | nil => rfl
  | cons b rest ih =>
    have hpush : (push (r, w) b).1.draining = r.draining := by
      unfold push
      dsimp only
      split_ifs
      · rfl
      · rfl
      · exact advance_draining r w
    exact ih.trans hpush

/-! ### What a record has written -/

/-- What is settled in `new` stays so in `new'`. -/
def Settles {α : Type} (new new' : List (Option α)) : Prop :=
  ∀ (p : ℕ) (b : α), new[p]? = some (some b) → new'[p]? = some (some b)

lemma Settles.append_left {α : Type} {new new' : List (Option α)} (h : Settles new new')
    (l : List (Option α)) : Settles (l ++ new) (l ++ new') := by
  intro p b hb
  rw [List.getElem?_append] at hb ⊢
  split at hb
  · next hp => rw [if_pos hp]; exact hb
  · next hp => rw [if_neg hp]; exact h _ _ hb

lemma Settles.append_right {α : Type} {l d : List (Option α)} (h : Settles l d)
    (e : List (Option α)) : Settles l (d ++ e) := by
  intro p b hb
  have hd := h p b hb
  rw [List.getElem?_append_left (List.getElem?_eq_some_iff.1 hd).1]
  exact hd

/-- Record `i` has written `text`. Since it began, at position `base`, the chunks `new` were
reserved by the records `o`. Of its own all but the last are full, and the last is the one that
its writer fills, unless it found none. -/
inductive Wrote (N i base : ℕ) :
    List UInt8 → Writer → List (Option (List UInt8)) → List ℕ → Prop where
  | start {a : List (List UInt8)} {o : List ℕ} (len : a.length = o.length) (fresh : i ∉ o) :
      Wrote N i base [] {} (a.map some) o
  | filling {a b : List (List UInt8)} {oa ob : List ℕ} {bytes : List UInt8}
      (len : a.length = oa.length) (len' : b.length = ob.length)
      (full : ∀ f ∈ own i a oa, f.length = slotLength) (fits : bytes.length ≤ slotLength)
      (last : i ∉ ob) :
      Wrote N i base ((own i a oa).flatten ++ bytes)
        { slot := some ((base + a.length) % N, bytes) } (a.map some ++ none :: b.map some)
        (oa ++ i :: ob)
  | truncated {text : List UInt8} {a : List (List UInt8)} {o : List ℕ} (len : a.length = o.length)
      (full : ∀ f ∈ own i a o, f.length = slotLength) (first : (own i a o).flatten <+: text) :
      Wrote N i base text { truncated := true } (a.map some) o

variable {l new : List (Option (List UInt8))} {o u : List ℕ}

lemma Wrote.length_eq (h : Wrote N i base text w new o) : new.length = o.length := by
  cases h with
  | start len _ => simpa using len
  | filling len len' _ _ _ => simp [len, len']
  | truncated len _ _ => simpa using len

lemma Wrote.hasRoom_eq_false (h : Wrote N i base text w new o) (hw : w.truncated = true) :
    hasRoom w = false := by
  cases h with
  | start => cases hw
  | filling => cases hw
  | truncated => rfl

/-- Chunks of other records come in between. -/
lemma Wrote.append (h : Wrote N i base text w new o) {e : List (List UInt8)}
    (he : e.length = u.length) (hi : i ∉ u) :
    Wrote N i base text w (new ++ e.map some) (o ++ u) := by
  cases h with
  | @start a o len fresh =>
    rw [← List.map_append]
    exact .start (by simp [len, he]) (by simp [fresh, hi])
  | @filling a b oa ob bytes len len' full fits last =>
    -- the open slot stays between what came before it and what comes now
    have hnew : a.map some ++ none :: b.map some ++ e.map some =
        a.map some ++ none :: (b ++ e).map some := by simp
    have ho : oa ++ i :: ob ++ u = oa ++ i :: (ob ++ u) := by simp
    rw [hnew, ho]
    exact .filling len (by simp [len', he]) full fits (by simp [last, hi])
  | @truncated text a o len full first =>
    have hown : own i (a ++ e) (o ++ u) = own i a o := by
      rw [own_append len, own_eq_nil hi, List.append_nil]
    rw [← List.map_append]
    exact .truncated (by simp [len, he]) (by rwa [hown]) (by rwa [hown])

/-- With the slot of record `i` published, the chunks since it began are `d`, and its own make up
what it has written, or what it could write before it stopped short. -/
structure Settled (i t : ℕ) (l new : List (Option (List UInt8))) (o : List ℕ) (text : List UInt8)
    (w : Writer) (r : Ring) (d : List (List UInt8)) : Prop where
  holds : r.Holds t (l ++ d.map some)
  length_eq : d.length = o.length
  other : ∀ j ≠ i, own j (d.map some) o = own j new o
  settles : Settles new (d.map some)
  all : w.truncated = false → (own i d o).flatten = text
  part : w.truncated = true → (own i d o).flatten <+: text
  full : hasRoom w = false → ∀ f ∈ own i d o, f.length = slotLength

lemma Wrote.publish (h : Wrote N i l.length text w new o) (hr : r.Holds t (l ++ new))
    (hN : r.size = N) : ∃ d, Settled i t l new o text w (r.publish w) d := by
  cases h with
  | @start a o len fresh =>
    have hown : own i a o = [] := own_eq_nil fresh
    exact ⟨a, hr, len, fun _ _ => rfl, fun _ _ hb => hb, fun _ => by rw [hown]; rfl, nofun,
      fun _ => by simp [hown]⟩
  | @filling a b oa ob bytes len len' full fits last =>
    have hown : own i (a ++ bytes :: b) (oa ++ i :: ob) = own i a oa ++ [bytes] := by
      rw [own_append len, own_cons_self, own_eq_nil last]
    have hset : (l ++ (a.map some ++ none :: b.map some)).set (l.length + a.length)
        (some bytes) = l ++ (a ++ bytes :: b).map some := by
      simp
    refine ⟨a ++ bytes :: b, ?_, by simp [len, len'], ?_, ?_, ?_, nofun, ?_⟩
    · have hwriting : (l ++ (a.map some ++ none :: b.map some))[l.length + a.length]? =
          some none := by simp
      rw [← hset, Ring.publish, ← hN]
      exact hr.publish (hr.le_of_writing hwriting) (by simp)
    · -- only this record owns the slot
      intro j hj
      have hlen : (a.map some).length = oa.length := by simpa using len
      rw [List.map_append, own_append hlen, own_append hlen, List.map_cons,
        own_cons_of_ne _ (Ne.symm hj), own_cons_of_ne _ (Ne.symm hj)]
    · rw [List.map_append, List.map_cons]
      refine Settles.append_left (fun p f hf => ?_) _
      cases p with
      | zero => cases hf
      | succ p => exact hf
    · intro _
      rw [hown]
      simp
    · -- it goes on to another slot only when this one is full
      intro hroom f hf
      rw [hown] at hf
      rcases List.mem_append.1 hf with hf | hf
      · exact full f hf
      · obtain rfl := List.mem_singleton.1 hf
        simp only [hasRoom, decide_eq_false_iff_not, Nat.not_lt] at hroom
        omega
  | @truncated text a o len full first =>
    exact ⟨a, hr, len, fun _ _ => rfl, fun _ _ hb => hb, nofun, fun _ => first, fun _ => full⟩

/-- A record that stops short is counted as lost, once. -/
def Counted (rw rw' : Ring × Writer) : Prop :=
  (rw'.1.lost = rw.1.lost ∧ rw'.2.truncated = rw.2.truncated) ∨
    (rw'.1.lost = rw.1.lost + 1 ∧ rw.2.truncated = false ∧ rw'.2.truncated = true)

/-- Record `i` went on to `text` without a break, so that the positions reserved are its own. -/
structure WentOn (N i t : ℕ) (l new : List (Option (List UInt8))) (o : List ℕ) (text : List UInt8)
    (rw rw' : Ring × Writer) (new' : List (Option (List UInt8))) : Prop where
  holds : rw'.1.Holds t (l ++ new')
  wrote : Wrote N i l.length text rw'.2 new' (o ++ List.replicate (rw'.1.used - rw.1.used) i)
  other : ∀ j ≠ i, own j new' (o ++ List.replicate (rw'.1.used - rw.1.used) i) = own j new o
  settles : Settles new new'
  counted : Counted rw rw'

variable {rw rw' rw'' : Ring × Writer} {new' new'' : List (Option (List UInt8))}
  {text' : List UInt8}

lemma WentOn.trans (hle : rw.1.used ≤ rw'.1.used) (hle' : rw'.1.used ≤ rw''.1.used)
    (h : WentOn N i t l new o text rw rw' new')
    (h' : WentOn N i t l new' (o ++ List.replicate (rw'.1.used - rw.1.used) i) text' rw' rw''
      new'') :
    WentOn N i t l new o text' rw rw'' new'' := by
  have howners : o ++ List.replicate (rw'.1.used - rw.1.used) i ++
      List.replicate (rw''.1.used - rw'.1.used) i =
      o ++ List.replicate (rw''.1.used - rw.1.used) i := by
    rw [List.append_assoc, List.replicate_append_replicate]
    congr 2
    omega
  have hwrote := h'.wrote
  have hother := h'.other
  rw [howners] at hwrote hother
  refine ⟨h'.holds, hwrote, fun j hj => by rw [hother j hj, h.other j hj],
    fun p b hb => h'.settles p b (h.settles p b hb), ?_⟩
  have hcounted := h.counted
  have hcounted' := h'.counted
  unfold Counted at *
  grind

/-- A reservation is counted. -/
lemma Holds.used_reserved (h : r.Holds t l) (hroom : l.length < t + r.size) (hN : r.size < 2 ^ 64)
    (j : ℕ) : (r.reserved j).used = r.used + 1 := by
  have hused := h.used_eq
  have hle := h.le
  unfold used at *
  show (r.head + 1#64 - r.tail).toNat = _
  bv_omega

section

variable {d : List (List UInt8)} {r₀ : Ring} (hused : r.used = r₀.used) (hlost : r.lost = r₀.lost)
  (hw : w.truncated = false) (hroom : hasRoom w = false)

include hused hlost hw hroom

/-- The record takes the next slot. -/
lemma Settled.next (h : Settled i t l new o text w r d) (hN : r.size = N) (hlim : N < 2 ^ 64)
    (hfree : (l ++ d.map some).length < t + N) (hbound : (l ++ d.map some).length + 1 < 2 ^ 64)
    (b : UInt8) :
    WentOn N i t l new o (text ++ [b]) (r₀, w)
      (r.reserved ((l ++ d.map some).length % N),
        { slot := some ((l ++ d.map some).length % N, [b]) }) (d.map some ++ [none]) := by
  have hlen : (d.map some).length = o.length := by simpa using h.length_eq
  have hone : List.replicate ((r.reserved ((l ++ d.map some).length % N)).used - r₀.used) i =
      [i] := by
    rw [h.holds.used_reserved (by rw [hN]; exact hfree) (by rw [hN]; exact hlim), hused,
      Nat.add_sub_cancel_left]
    rfl
  refine ⟨?_, ?_, fun j hj => ?_, h.settles.append_right _, .inl ⟨hlost, hw.symm⟩⟩
  · rw [← List.append_assoc, ← hN]
    exact h.holds.reserved (by rw [hN]; exact hfree) hbound
  · have hwrote : Wrote N i l.length ((own i d o).flatten ++ [b])
        { slot := some ((l.length + d.length) % N, [b]) } (d.map some ++ none :: [].map some)
        (o ++ i :: []) :=
      .filling h.length_eq rfl (h.full hroom) (by simp [slotLength]) List.not_mem_nil
    dsimp only
    rw [hone, List.length_append, List.length_map, ← h.all hw]
    exact hwrote
  · dsimp only
    rw [hone, own_append hlen, h.other j hj, own_cons_of_ne _ hj.symm]
    exact List.append_nil _

/-- The ring is full, and what the record has written before stays. -/
lemma Settled.stop (h : Settled i t l new o text w r d) (b : UInt8) :
    WentOn N i t l new o (text ++ [b]) (r₀, w)
      ({ r with lost := r.lost + 1 }, { slot := none, truncated := true }) (d.map some) := by
  have hsame : ({ r with lost := r.lost + 1 } : Ring).used = r₀.used := hused
  have hnone : o ++ List.replicate (({ r with lost := r.lost + 1 } : Ring).used - r₀.used) i =
      o := by
    rw [hsame, Nat.sub_self, List.replicate_zero, List.append_nil]
  refine ⟨h.holds.congr rfl rfl rfl, ?_, ?_, h.settles,
    .inr ⟨congrArg (· + 1) hlost, hw, rfl⟩⟩
  · dsimp only
    rw [hnone]
    exact .truncated h.length_eq (h.full hroom) (by rw [h.all hw]; exact List.prefix_append _ _)
  · dsimp only
    rw [hnone]
    exact h.other

end

/-- Another slot for a record whose slots are all full, and a byte into it. -/
lemma Wrote.advance (h : Wrote N i l.length text w new o) (hr : r.Holds t (l ++ new))
    (hN : r.size = N) (hlim : N < 2 ^ 64) (hw : w.truncated = false) (hroom : hasRoom w = false)
    (b : UInt8) (hbound : (l ++ new).length + ((push (r, w) b).1.used - r.used) < 2 ^ 64) :
    ∃ new', WentOn N i t l new o (text ++ [b]) (r, w) (push (r, w) b) new' := by
  obtain ⟨d, hd⟩ := h.publish hr hN
  have hsize : (r.publish w).size = N := (publish_size r w).trans hN
  have hlen : (l ++ d.map some).length = (l ++ new).length := by
    simp [hd.length_eq, h.length_eq]
  have hpush : push (r, w) b = ((r.advance w).1,
      { (r.advance w).2 with slot := (r.advance w).2.slot.map fun s => (s.1, s.2 ++ [b]) }) := by
    unfold push
    rw [if_neg (by simp [hw]), if_neg (by simp [hroom])]
  have hle := hd.holds.fits
  rw [hsize] at hle
  rcases Nat.lt_or_ge (l ++ d.map some).length (t + N) with hfree | hfull
  · -- a slot is free, and the byte is the first in it
    have hadvance : r.advance w = ((r.publish w).reserved ((l ++ d.map some).length % N),
        { w with slot := some ((l ++ d.map some).length % N, []) }) := by
      rw [Ring.advance, hd.holds.reserve_eq (by rw [hsize]; exact hfree), hsize]
    rw [hpush, hadvance] at hbound ⊢
    dsimp only at hbound
    rw [hd.holds.used_reserved (by rw [hsize]; exact hfree) (by rw [hsize]; exact hlim),
      publish_used, Nat.add_sub_cancel_left, ← hlen] at hbound
    have hnext := hd.next (publish_used r w) (publish_lost r w) hw hroom hsize hlim hfree hbound b
    exact ⟨_, by simpa [hw] using hnext⟩
  · -- the ring is full, and the record is counted as lost
    have hadvance : r.advance w = ({ r.publish w with lost := (r.publish w).lost + 1 },
        { slot := none, truncated := true }) := by
      rw [Ring.advance, hd.holds.reserve_full (by rw [hsize]; omega)]
    rw [hpush, hadvance]
    exact ⟨_, hd.stop (publish_used r w) (publish_lost r w) hw hroom b⟩

/-- A record that is over, or that has room in its slot, leaves the ring as it is. -/
lemma Wrote.stay (h : Wrote N i l.length text w new o) (hr : r.Holds t (l ++ new))
    (hw : ¬ (w.truncated = false ∧ hasRoom w = false)) (b : UInt8) :
    WentOn N i t l new o (text ++ [b]) (r, w) (push (r, w) b) new := by
  suffices hstay : (push (r, w) b).1 = r ∧
      Wrote N i l.length (text ++ [b]) (push (r, w) b).2 new o ∧
      (push (r, w) b).2.truncated = w.truncated by
    obtain ⟨hring, hwrote, hsame⟩ := hstay
    have hnone : o ++ List.replicate ((push (r, w) b).1.used - r.used) i = o := by
      rw [hring, Nat.sub_self, List.replicate_zero, List.append_nil]
    refine ⟨by rw [hring]; exact hr, ?_, ?_, fun _ _ hb => hb, .inl ⟨by rw [hring], hsame⟩⟩ <;>
      dsimp only <;> rw [hnone]
    · exact hwrote
    · exact fun _ _ => rfl
  cases h with
  | start => exact absurd ⟨rfl, rfl⟩ hw
  | @filling a d oa ob bytes len len' full fits last =>
    have hroom : bytes.length < slotLength := by simpa [hasRoom] using hw
    have hpush : push (r, { slot := some ((l.length + a.length) % N, bytes) }) b =
        (r, { slot := some ((l.length + a.length) % N, bytes ++ [b]) }) := by
      simp [push, hasRoom, hroom]
    rw [hpush, List.append_assoc]
    exact ⟨rfl, .filling len len' full (by simp; omega) last, rfl⟩
  | @truncated text a o len full first =>
    exact ⟨rfl, .truncated len full (first.trans (List.prefix_append _ _)), rfl⟩

lemma Wrote.push (h : Wrote N i l.length text w new o) (hr : r.Holds t (l ++ new))
    (hN : r.size = N) (hlim : N < 2 ^ 64) (b : UInt8)
    (hbound : (l ++ new).length + ((push (r, w) b).1.used - r.used) < 2 ^ 64) :
    ∃ new', WentOn N i t l new o (text ++ [b]) (r, w) (Ring.push (r, w) b) new' := by
  by_cases hw : w.truncated = false ∧ hasRoom w = false
  · exact h.advance hr hN hlim hw.1 hw.2 b hbound
  · exact ⟨new, h.stay hr hw b⟩

/-- A piece of a record. -/
lemma Wrote.write (h : Wrote N i l.length text w new o) (hr : r.Holds t (l ++ new))
    (hN : r.size = N) (hlim : N < 2 ^ 64)
    (hbound : (l ++ new).length + ((write (r, w) bytes).1.used - r.used) < 2 ^ 64) :
    ∃ new', WentOn N i t l new o (text ++ bytes) (r, w) (Ring.write (r, w) bytes) new' := by
  induction bytes generalizing r w text new o with
  | nil =>
    refine ⟨new, hr, ?_, ?_, fun _ _ hb => hb, .inl ⟨rfl, rfl⟩⟩
    · simpa using h
    · simp
  | cons b rest ih =>
    have hcons : Ring.write (r, w) (b :: rest) = Ring.write (Ring.push (r, w) b) rest := rfl
    have hpush : Grew r (Ring.push (r, w) b).1 := push_grew (by omega) b
    have hstep := fun hb => h.push hr hN hlim b hb
    rw [hcons] at hbound ⊢
    generalize Ring.push (r, w) b = rw₁ at *
    obtain ⟨r₁, w₁⟩ := rw₁
    have hrest : Grew r₁ (Ring.write (r₁, w₁) rest).1 := write_grew (by rw [hpush.size]; omega)
    have hle := hpush.le
    have hle' := hrest.le
    dsimp only at hle hstep
    obtain ⟨new₁, h₁⟩ := hstep (by omega)
    have hlen := h.length_eq
    have hlen₁ := h₁.wrote.length_eq
    simp only [List.length_append, List.length_replicate] at hbound hlen₁
    obtain ⟨new₂, h₂⟩ := ih h₁.wrote h₁.holds (hpush.size.trans hN)
      (by simp only [List.length_append]; omega)
    rw [List.append_assoc] at h₂
    exact ⟨new₂, h₁.trans hle hle' h₂⟩

/-! ### Where a record stops short -/

/-- Slots of record `i` that are all full. -/
lemma length_flatten_own {d : List (List UInt8)} (hlen : d.length = o.length)
    (hfull : ∀ f ∈ own i d o, f.length = slotLength) :
    (own i d o).flatten.length = slotLength * o.count i := by
  rw [List.length_flatten, List.map_congr_left hfull, List.map_const', List.sum_replicate,
    smul_eq_mul, length_own hlen, Nat.mul_comm]

/-- Until it stops short, a record has slots enough for what it has written. -/
lemma Wrote.length_le (h : Wrote N i base text w new o) (hw : w.truncated = false) :
    text.length ≤ slotLength * o.count i := by
  cases h with
  | start => exact Nat.zero_le _
  | @filling a b oa ob bytes len len' full fits last =>
    rw [List.length_append, length_flatten_own len full, List.count_append, List.count_cons_self,
      List.count_eq_zero_of_not_mem last, Nat.mul_add]
    omega
  | truncated => cases hw

lemma write_of_truncated (hw : w.truncated = true) : write (r, w) bytes = (r, w) := by
  induction bytes with
  | nil => rfl
  | cons b rest ih =>
    have hpush : push (r, w) b = (r, w) := by simp [push, hw]
    show write (push (r, w) b) rest = _
    rw [hpush, ih]

/-- A byte finds no slot: the ring is full, and what the record has written before fills its own. -/
lemma Wrote.push_stops (h : Wrote N i l.length text w new o) (hr : r.Holds t (l ++ new))
    (hN : r.size = N) (hw : w.truncated = false) (b : UInt8)
    (hstop : (Ring.push (r, w) b).2.truncated = true) :
    (Ring.push (r, w) b).1.used = N ∧ r.used = N ∧ text.length = slotLength * o.count i := by
  have hroom : hasRoom w = false := by
    by_contra hroom
    rw [Bool.not_eq_false] at hroom
    simp [Ring.push, hw, hroom] at hstop
  obtain ⟨d, hd⟩ := h.publish hr hN
  have hsize : (r.publish w).size = N := (publish_size r w).trans hN
  have hpush : (Ring.push (r, w) b).1 = (r.advance w).1 ∧
      (Ring.push (r, w) b).2.truncated = (r.advance w).2.truncated := by
    unfold Ring.push
    rw [if_neg (by simp [hw]), if_neg (by simp [hroom])]
    exact ⟨rfl, rfl⟩
  have hfull : (l ++ d.map some).length = t + (r.publish w).size := by
    have hfits := hd.holds.fits
    by_contra hne
    rw [hpush.2, Ring.advance, hd.holds.reserve_eq (by omega)] at hstop
    exact absurd (hstop.symm.trans hw) nofun
  have hused : (r.publish w).used = N := by
    rw [hd.holds.used_eq, hfull, hsize, Nat.add_sub_cancel_left]
  refine ⟨?_, (publish_used r w).symm.trans hused, ?_⟩
  · rw [hpush.1, Ring.advance, hd.holds.reserve_full hfull]
    exact hused
  · rw [← hd.all hw, length_flatten_own hd.length_eq (hd.full hroom)]

/-- A record that stops short has found the ring full, and its slots are too few for its text. -/
lemma Wrote.write_stops (h : Wrote N i l.length text w new o) (hr : r.Holds t (l ++ new))
    (hN : r.size = N) (hlim : N < 2 ^ 64)
    (hbound : (l ++ new).length + ((Ring.write (r, w) bytes).1.used - r.used) < 2 ^ 64)
    (hw : w.truncated = false) (hstop : (Ring.write (r, w) bytes).2.truncated = true) :
    (Ring.write (r, w) bytes).1.used = N ∧
      slotLength * (o.count i + ((Ring.write (r, w) bytes).1.used - r.used)) <
        (text ++ bytes).length := by
  induction bytes generalizing r w text new o with
  | nil => exact absurd (hstop.symm.trans hw) nofun
  | cons b rest ih =>
    have hcons : Ring.write (r, w) (b :: rest) = Ring.write (Ring.push (r, w) b) rest := rfl
    have hgrew : Grew r (Ring.push (r, w) b).1 := push_grew (by omega) b
    have hstep := fun hb => h.push hr hN hlim b hb
    have hfirst := h.push_stops hr hN hw b
    rw [hcons] at hbound hstop ⊢
    generalize Ring.push (r, w) b = rw₁ at *
    obtain ⟨r₁, w₁⟩ := rw₁
    dsimp only at hgrew hstep hfirst
    cases hw₁ : w₁.truncated with
    | true =>
      -- this byte is the one that found the ring full
      obtain ⟨hused₁, hused, hlen⟩ := hfirst hw₁
      rw [write_of_truncated hw₁]
      simp only [hused₁, hused, Nat.sub_self, Nat.add_zero, ← hlen, List.length_append,
        List.length_cons, true_and]
      omega
    | false =>
      have hle := hgrew.le
      have hrest : Grew r₁ (Ring.write (r₁, w₁) rest).1 := write_grew (by rw [hgrew.size]; omega)
      have hle' := hrest.le
      obtain ⟨new₁, h₁⟩ := hstep (by omega)
      have hlen := h.length_eq
      have hlen₁ := h₁.wrote.length_eq
      simp only [List.length_append, List.length_replicate] at hbound hlen₁
      obtain ⟨hfull, hshort⟩ := ih h₁.wrote h₁.holds (hgrew.size.trans hN)
        (by simp only [List.length_append]; omega) hw₁ hstop
      refine ⟨hfull, ?_⟩
      have hcount : (o ++ List.replicate (r₁.used - r.used) i).count i +
          ((Ring.write (r₁, w₁) rest).1.used - r₁.used) =
          o.count i + ((Ring.write (r₁, w₁) rest).1.used - r.used) := by
        rw [List.count_append, List.count_replicate_self]
        omega
      rw [hcount, List.append_assoc] at hshort
      exact hshort

end Ring

end BoardSupport.Log
