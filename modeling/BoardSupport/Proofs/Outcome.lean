import Mathlib.Tactic
import BoardSupport.Platform

/-!
What a procedure leads to.

`Ends` says what holds of the result and of the state after a procedure that starts in a given
state, and how it may halt; `Stops` says also what holds of the state where it halts. `Keeps` says
that the state after is always related to the state before; for a relation that is reflexive and
transitive it passes from the steps of a procedure to the whole.
-/

namespace BoardSupport

namespace Proc

variable {σ α β : Type} {Q : α → σ → Prop} {E : Halt → Prop} {s : σ}

/-- From `s` the procedure ends with `Q`, or halts in a way that `E` allows. -/
def Ends (x : Proc σ α) (s : σ) (Q : α → σ → Prop) (E : Halt → Prop) : Prop :=
  match x s with
  | .ok a s' => Q a s'
  | .error h _ => E h

lemma Ends.mono {x : Proc σ α} {Q' : α → σ → Prop} {E' : Halt → Prop} (h : x.Ends s Q E)
    (hQ : ∀ a s', Q a s' → Q' a s') (hE : ∀ e, E e → E' e) : x.Ends s Q' E' := by
  unfold Ends at h ⊢
  cases hx : x s with
  | ok a s' => rw [hx] at h; exact hQ a s' h
  | error e s' => rw [hx] at h; exact hE e h

lemma Ends.imp {x : Proc σ α} {Q' : α → σ → Prop} (h : x.Ends s Q E)
    (hQ : ∀ a s', Q a s' → Q' a s') : x.Ends s Q' E := h.mono hQ fun _ he => he

/-- A procedure that may not halt gives a result. -/
lemma Ends.returns {x : Proc σ α} (h : x.Ends s Q fun _ => False) :
    ∃ a s', x s = .ok a s' ∧ Q a s' := by
  unfold Ends at h
  cases hx : x s with
  | ok a s' => rw [hx] at h; exact ⟨a, s', rfl, h⟩
  | error e s' => rw [hx] at h; exact h.elim

lemma Ends.of_ok {x : Proc σ α} {a : α} {s' : σ} (h : x.Ends s Q E) (hx : x s = .ok a s') :
    Q a s' := by
  unfold Ends at h
  rw [hx] at h
  exact h

lemma bind_of_ok {x : Proc σ α} {f : α → Proc σ β} {a : α} {s' : σ} (h : x s = .ok a s') :
    (x >>= f) s = f a s' := by
  show EStateM.bind x f s = f a s'
  simp only [EStateM.bind, h]

lemma bind_of_error {x : Proc σ α} {f : α → Proc σ β} {e : Halt} {s' : σ} (h : x s = .error e s') :
    (x >>= f) s = .error e s' := by
  show EStateM.bind x f s = .error e s'
  simp only [EStateM.bind, h]

/-- What follows depends on a procedure only through what it does in the state at hand. -/
lemma bind_congr_at {x y : Proc σ α} {f : α → Proc σ β} (h : x s = y s) :
    (x >>= f) s = (y >>= f) s := by
  show EStateM.bind x f s = EStateM.bind y f s
  simp only [EStateM.bind, h]

lemma sequence_cons_of_ok {x : Proc σ α} {xs : List (Proc σ α)} {a : α} {as : List α} {s₁ s₂ : σ}
    (hx : x s = .ok a s₁) (hxs : sequence xs s₁ = .ok as s₂) :
    sequence (x :: xs) s = .ok (a :: as) s₂ :=
  (bind_of_ok hx).trans (bind_of_ok hxs)

@[simp] lemma ends_pure (a : α) : (pure a : Proc σ α).Ends s Q E ↔ Q a s := Iff.rfl

@[simp] lemma ends_bind {x : Proc σ α} {f : α → Proc σ β} {Q : β → σ → Prop} :
    (x >>= f).Ends s Q E ↔ x.Ends s (fun a s' => (f a).Ends s' Q E) E := by
  show (match EStateM.bind x f s with | .ok a s' => Q a s' | .error h _ => E h) ↔ _
  unfold EStateM.bind Ends
  cases x s <;> rfl

@[simp] lemma ends_discard {x : Proc σ α} {Q : Unit → σ → Prop} :
    (discard x : Proc σ Unit).Ends s Q E ↔ x.Ends s (fun _ s' => Q () s') E := by
  unfold Ends
  simp only [Functor.discard, Functor.mapConst, Function.comp, EStateM.map]
  cases x s <;> rfl

lemma ends_throw (e : Halt) : (throw e : Proc σ α).Ends s Q E ↔ E e := Iff.rfl

@[simp] lemma ends_fault (f : Fault) : (fault f : Proc σ α).Ends s Q E ↔ E (.fault f) := Iff.rfl

@[simp] lemma ends_hang : (hang : Proc σ α).Ends s Q E ↔ E .hang := Iff.rfl

@[simp] lemma ends_get {Q : σ → σ → Prop} : (get : Proc σ σ).Ends s Q E ↔ Q s s := Iff.rfl

@[simp] lemma ends_set (s' : σ) {Q : Unit → σ → Prop} :
    (set s' : Proc σ Unit).Ends s Q E ↔ Q () s' := Iff.rfl

@[simp] lemma ends_modify (f : σ → σ) {Q : Unit → σ → Prop} :
    (modify f : Proc σ Unit).Ends s Q E ↔ Q () (f s) := Iff.rfl

lemma ends_iterate {p : Platform σ} {step : β → Proc σ (β ⊕ α)} {b : β} :
    (p.iterate step b).Ends s Q E ↔ (Platform.rounds step (p.patience s + 1) b).Ends s Q E :=
  Iff.rfl

lemma discard_eq_bind (x : Proc σ α) :
    (discard x : Proc σ Unit) = (x >>= fun _ => pure () : Proc σ Unit) := by
  simp only [Functor.discard, map_const, Function.comp, map_eq_pure_bind]

/-- From `s` the procedure ends with `Q`, or halts with `H`. -/
def Stops (x : Proc σ α) (s : σ) (Q : α → σ → Prop) (H : Halt → σ → Prop) : Prop :=
  match x s with
  | .ok a s' => Q a s'
  | .error e s' => H e s'

variable {H : Halt → σ → Prop}

lemma Stops.mono {x : Proc σ α} {Q' : α → σ → Prop} {H' : Halt → σ → Prop} (h : x.Stops s Q H)
    (hQ : ∀ a s', Q a s' → Q' a s') (hH : ∀ e s', H e s' → H' e s') : x.Stops s Q' H' := by
  unfold Stops at h ⊢
  cases hx : x s with
  | ok a s' => rw [hx] at h; exact hQ a s' h
  | error e s' => rw [hx] at h; exact hH e s' h

lemma Stops.of_ok {x : Proc σ α} {a : α} {s' : σ} (h : x.Stops s Q H) (hx : x s = .ok a s') :
    Q a s' := by
  unfold Stops at h
  rw [hx] at h
  exact h

lemma ends_iff_stops {x : Proc σ α} : x.Ends s Q E ↔ x.Stops s Q fun e _ => E e := Iff.rfl

/-- A procedure that may not halt, where halting matters. -/
lemma Ends.stops {x : Proc σ α} (h : x.Ends s Q fun _ => False) : x.Stops s Q H := by
  obtain ⟨a, s', hx, hQ⟩ := h.returns
  unfold Stops
  rw [hx]
  exact hQ

/-- A procedure that may not end halts. -/
lemma Stops.halts {x : Proc σ α} (h : x.Stops s (fun _ _ => False) H) :
    ∃ e s', x s = .error e s' ∧ H e s' := by
  unfold Stops at h
  cases hx : x s with
  | ok a s' => rw [hx] at h; exact h.elim
  | error e s' => rw [hx] at h; exact ⟨e, s', rfl, h⟩

@[simp] lemma stops_pure (a : α) : (pure a : Proc σ α).Stops s Q H ↔ Q a s := Iff.rfl

@[simp] lemma stops_bind {x : Proc σ α} {f : α → Proc σ β} {Q : β → σ → Prop} :
    (x >>= f).Stops s Q H ↔ x.Stops s (fun a s' => (f a).Stops s' Q H) H := by
  show (match EStateM.bind x f s with | .ok a s' => Q a s' | .error e s' => H e s') ↔ _
  unfold EStateM.bind Stops
  cases x s <;> rfl

@[simp] lemma stops_throw (e : Halt) : (throw e : Proc σ α).Stops s Q H ↔ H e s := Iff.rfl

@[simp] lemma stops_get {Q : σ → σ → Prop} : (get : Proc σ σ).Stops s Q H ↔ Q s s := Iff.rfl

@[simp] lemma stops_modify (f : σ → σ) {Q : Unit → σ → Prop} :
    (modify f : Proc σ Unit).Stops s Q H ↔ Q () (f s) := Iff.rfl

lemma stops_iterate {p : Platform σ} {step : β → Proc σ (β ⊕ α)} {b : β} :
    (p.iterate step b).Stops s Q H ↔ (Platform.rounds step (p.patience s + 1) b).Stops s Q H :=
  Iff.rfl

/-! ### Loops -/

/-- The loop of rounds: what is carried meets an invariant that counts the rounds, and the loop
hangs when there are no more of them. -/
lemma stops_rounds {step : β → Proc σ (β ⊕ α)} {M : ℕ → β → σ → Prop} {n : ℕ} {b : β}
    (hstep : ∀ i < n, ∀ b s, M i b s →
      (step b).Stops s (fun r s' => r.elim (fun b' => M (i + 1) b' s') fun a => Q a s') H)
    (hang : ∀ b s, M n b s → H .hang s) (h : M 0 b s) :
    (Platform.rounds step n b).Stops s Q H := by
  have hall : ∀ left i b s, i + left = n → M i b s →
      (Platform.rounds step left b).Stops s Q H := by
    intro left
    induction left with
    | zero =>
      rintro i b s rfl h
      exact (stops_throw _).2 (hang b s h)
    | succ left ih =>
      intro i b s hi h
      rw [Platform.rounds, stops_bind]
      refine (hstep i (by omega) b s h).mono (fun r s₁ h₁ => ?_) fun _ _ he => he
      cases r with
      | inl b' => exact ih (i + 1) b' s₁ (by omega) h₁
      | inr a => exact (stops_pure a).2 h₁
  exact hall n 0 b s (Nat.zero_add n) h

lemma ends_rounds {step : β → Proc σ (β ⊕ α)} {M : ℕ → β → σ → Prop} {n : ℕ} {b : β}
    (hstep : ∀ i < n, ∀ b s, M i b s →
      (step b).Ends s (fun r s' => r.elim (fun b' => M (i + 1) b' s') fun a => Q a s') E)
    (hang : ∀ b s, M n b s → E .hang) (h : M 0 b s) : (Platform.rounds step n b).Ends s Q E :=
  ends_iff_stops.2 (stops_rounds (M := M)
    (fun i hi b s h => ends_iff_stops.1 (hstep i hi b s h)) hang h)

/-- A wait ends where its condition was found to hold. There is at least one round, so where it
hangs the condition was found not to hold. -/
lemma stops_await {p : Platform σ} {condition : Proc σ Bool} {I P : σ → Prop}
    (h : ∀ s, I s → condition.Stops s (fun r s' => if r then P s' else I s' ∧ H .hang s') H)
    (hs : I s) : (p.await condition).Stops s (fun _ s' => P s') H := by
  refine stops_iterate.2 (stops_rounds (M := fun i _ s' => I s' ∧ (i ≠ 0 → H .hang s'))
    (fun i _ _ s₁ h₁ => ?_) (fun _ s₁ h₁ => h₁.2 (Nat.succ_ne_zero _)) ⟨hs, fun h => absurd rfl h⟩)
  rw [stops_bind]
  refine (h s₁ h₁.1).mono (fun r s₂ h₂ => ?_) fun _ _ he => he
  cases r with
  | true => exact (stops_pure _).2 h₂
  | false => exact (stops_pure _).2 ⟨h₂.1, fun _ => h₂.2⟩

end Proc

namespace Cell

variable {σ α : Type} {E : Halt → Prop} {s : σ}

@[simp] lemma ends_read (c : Cell σ α) {Q : α → σ → Prop} :
    c.read.Ends s Q E ↔ Q (c.get s) s := Iff.rfl

@[simp] lemma ends_write (c : Cell σ α) (a : α) {Q : Unit → σ → Prop} :
    (c.write a).Ends s Q E ↔ Q () (c.put a s) := Iff.rfl

@[simp] lemma ends_update (c : Cell σ α) (f : α → α) {Q : Unit → σ → Prop} :
    (c.update f).Ends s Q E ↔ Q () (c.put (f (c.get s)) s) := Iff.rfl

variable {H : Halt → σ → Prop}

@[simp] lemma stops_read (c : Cell σ α) {Q : α → σ → Prop} :
    c.read.Stops s Q H ↔ Q (c.get s) s := Iff.rfl

@[simp] lemma stops_write (c : Cell σ α) (a : α) {Q : Unit → σ → Prop} :
    (c.write a).Stops s Q H ↔ Q () (c.put a s) := Iff.rfl

@[simp] lemma stops_update (c : Cell σ α) (f : α → α) {Q : Unit → σ → Prop} :
    (c.update f).Stops s Q H ↔ Q () (c.put (f (c.get s)) s) := Iff.rfl

/-- A value that nothing changes, as a cell. -/
def fixed (a : α) : Cell σ α := ⟨fun _ => a, fun _ s => s⟩

@[simp] lemma fixed_get (a : α) (s : σ) : (fixed a).get s = a := rfl

/-- Calls one after the other, each of which updates the place, are a run of the place alone. -/
lemma Lawful.forM_of_update {c : Cell σ α} (hc : c.Lawful) {κ : Type} {perform : κ → Proc σ Unit}
    {step : α → κ → α} (h : ∀ call s, perform call s = .ok () (c.put (step (c.get s) call) s))
    (calls : List κ) (s : σ) :
    calls.forM perform s = .ok () (c.put (calls.foldl step (c.get s)) s) := by
  induction calls generalizing s with
  | nil =>
    rw [List.foldl_nil, hc.put_get]
    rfl
  | cons call rest ih =>
    refine (Proc.bind_of_ok (h call s)).trans ?_
    rw [ih, hc.get_put, hc.put_put, List.foldl_cons]

end Cell

/-- The first of the calls counts only where no later one gives a value. -/
lemma getLastD_filterMap_cons {κ α : Type} (given : κ → Option α) (call : κ) (calls : List κ)
    (before : α) :
    ((call :: calls).filterMap given).getLastD before =
      (calls.filterMap given).getLastD ((given call).getD before) := by
  cases hgiven : given call with
  | none => rw [List.filterMap_cons_none hgiven, Option.getD_none]
  | some a => rw [List.filterMap_cons_some hgiven, List.getLastD_cons, Option.getD_some]

/-- What every step sets or leaves alone is in the end what the last call to set it gave. -/
lemma foldl_eq_last {σ κ α : Type} {step : σ → κ → σ} (view : σ → α) {given : κ → Option α}
    (h : ∀ s call, view (step s call) = (given call).getD (view s)) (calls : List κ) (s : σ) :
    view (calls.foldl step s) = (calls.filterMap given).getLastD (view s) := by
  induction calls generalizing s with
  | nil => rfl
  | cons call rest ih => rw [List.foldl_cons, ih, h, getLastD_filterMap_cons]

/-- What every step leaves alone, a run leaves alone. -/
lemma foldl_kept {σ κ α : Type} {step : σ → κ → σ} (view : σ → α)
    (h : ∀ s call, view (step s call) = view s) (calls : List κ) (s : σ) :
    view (calls.foldl step s) = view s := by
  induction calls generalizing s with
  | nil => rfl
  | cons call rest ih => exact (ih (step s call)).trans (h s call)

namespace Proc

-- The rules above are all a proof needs; unfolding would run the procedure.
attribute [irreducible] Ends Stops

variable {σ α β : Type} {R : σ → σ → Prop} {E : Halt → Prop}

/-- Every run relates the state before to the state after, and halts only as `E` allows. -/
def Keeps (R : σ → σ → Prop) (E : Halt → Prop) (x : Proc σ α) : Prop :=
  ∀ s, x.Ends s (fun _ s' => R s s') E

/-- Where halting does not matter. -/
lemma keeps_iff {x : Proc σ α} :
    Keeps R (fun _ => True) x ↔ ∀ s a s', x s = .ok a s' → R s s' := by
  constructor
  · intro h s a s' hx
    exact (h s).of_ok hx
  · intro h s
    unfold Ends
    cases hx : x s with
    | ok a s' => exact h s a s' hx
    | error e s' => trivial

lemma Keeps.discard {x : Proc σ α} (hx : Keeps R E x) :
    Keeps R E (Functor.discard x : Proc σ Unit) := by
  intro s
  rw [ends_discard]
  exact hx s

section

variable [IsPreorder σ R]

lemma keeps_pure (a : α) : Keeps R E (pure a : Proc σ α) := fun s => (ends_pure a).2 (refl_of R s)

lemma Keeps.bind {x : Proc σ α} {f : α → Proc σ β} (hx : Keeps R E x)
    (hf : ∀ a, Keeps R E (f a)) : Keeps R E (x >>= f) := by
  intro s
  rw [ends_bind]
  exact (hx s).imp fun a s' h => (hf a s').imp fun _ _ h' => trans_of R h h'

lemma keeps_read (c : Cell σ α) : Keeps R E c.read := fun s => c.ends_read.2 (refl_of R s)

lemma keeps_rounds {step : β → Proc σ (β ⊕ α)} (hang : E .hang) (hstep : ∀ b, Keeps R E (step b))
    (n : ℕ) (b : β) : Keeps R E (Platform.rounds step n b) := by
  intro s
  refine ends_rounds (M := fun _ _ s' => R s s') (fun _ _ b s₁ h₁ => ?_) (fun _ _ _ => hang)
    (refl_of R s)
  refine (hstep b s₁).imp fun r s₂ h₂ => ?_
  cases r <;> exact trans_of R h₁ h₂

lemma keeps_iterate {p : Platform σ} {step : β → Proc σ (β ⊕ α)} (hang : E .hang)
    (hstep : ∀ b, Keeps R E (step b)) (b : β) : Keeps R E (p.iterate step b) := by
  intro s
  rw [ends_iterate]
  exact keeps_rounds hang hstep (p.patience s + 1) b s

end

end Proc

namespace Platform

variable {σ α β : Type} {step : β → Proc σ (β ⊕ α)} {b c : β} {a : α} {s s' : σ}

lemma rounds_of_inl (h : step b s = .ok (.inl c) s') (n : ℕ) :
    rounds step (n + 1) b s = rounds step n c s' := by
  show EStateM.bind (step b) _ s = _
  rw [EStateM.bind, h]

lemma rounds_of_inr (h : step b s = .ok (.inr a) s') (n : ℕ) :
    rounds step (n + 1) b s = .ok a s' := by
  show EStateM.bind (step b) _ s = _
  rw [EStateM.bind, h]
  rfl

end Platform

end BoardSupport
