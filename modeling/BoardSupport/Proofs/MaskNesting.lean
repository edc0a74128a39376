import BoardSupport.Bench.Session
import BoardSupport.Proofs.Outcome

/-!
Masked sections nest.

A `Nesting` is made of acts, one after the other and within masked sections to any depth, where an
act is any procedure that leaves the enables of the core alone. `asserting` puts an assertion about
the enables before and after each of its parts; that none of them fails is how we say what holds
throughout a run.
-/

namespace BoardSupport

namespace Core

/-- One of the enables of a core. -/
inductive Enable where
  | global
  | ofClass (k : Trap.Class)
  deriving DecidableEq

def Enable.all : List Enable :=
  [.global, .ofClass .software, .ofClass .timer, .ofClass .external]

lemma Enable.mem_all (e : Enable) : e ∈ all := by
  rcases e with _ | ⟨_ | _ | _⟩ <;> decide

end Core

namespace CoreFlags

def isOn (f : CoreFlags) : Core.Enable → Bool
  | .global => f.global
  | .ofClass k => f.get k

def turn (f : CoreFlags) (on : Bool) : Core.Enable → CoreFlags
  | .global => { f with global := on }
  | .ofClass k => f.put on k

lemma isOn_turn (f : CoreFlags) (on : Bool) (e e' : Core.Enable) :
    (f.turn on e).isOn e' = if e' = e then on else f.isOn e' := by
  rcases e with _ | ⟨_ | _ | _⟩ <;> rcases e' with _ | ⟨_ | _ | _⟩ <;> rfl

lemma turn_turn (f : CoreFlags) (on on' : Bool) (e : Core.Enable) :
    (f.turn on e).turn on' e = f.turn on' e := by
  rcases e with _ | ⟨_ | _ | _⟩ <;> rfl

lemma turn_isOn (f : CoreFlags) (e : Core.Enable) : f.turn (f.isOn e) e = f := by
  rcases e with _ | ⟨_ | _ | _⟩ <;> rfl

end CoreFlags

/-- The same is seen in both states. -/
def Unchanged {σ ν : Type} (view : σ → ν) (s s' : σ) : Prop := view s' = view s

instance {σ ν : Type} (view : σ → ν) : IsPreorder σ (Unchanged view) where
  refl _ := rfl
  trans _ _ _ h h' := h'.trans h

namespace Core

variable {σ α β : Type} {core : Core σ} {enables : σ → CoreFlags} {E : Halt → Prop} {s : σ}

/-- Each operation writes its enable and returns what it was. -/
structure Obeys (core : Core σ) (enables : σ → CoreFlags) : Prop where
  setGlobal : ∀ on s, ∃ s', core.setGlobal on s = .ok (enables s).global s' ∧
    enables s' = { enables s with global := on }
  setClass : ∀ k on s, ∃ s', core.setClass k on s = .ok ((enables s).get k) s' ∧
    enables s' = (enables s).put on k

def write (core : Core σ) : Enable → Bool → Proc σ Bool
  | .global => core.setGlobal
  | .ofClass k => core.setClass k

/-- A masked section of either kind. -/
def masking (core : Core σ) : Enable → Proc σ α → Proc σ α
  | .global => core.without
  | .ofClass k => core.withMasked k

lemma masking_eq (core : Core σ) (e : Enable) (x : Proc σ α) :
    core.masking e x = do
      let enabled ← core.write e false
      let a ← x
      if enabled then discard (core.write e true)
      return a := by
  cases e <;> rfl

lemma Obeys.write (h : core.Obeys enables) (e : Enable) (on : Bool) (s : σ) :
    ∃ s', core.write e on s = .ok ((enables s).isOn e) s' ∧
      enables s' = (enables s).turn on e := by
  cases e with
  | global => exact h.setGlobal on s
  | ofClass k => exact h.setClass k on s

lemma Obeys.ends_write (h : core.Obeys enables) (e : Enable) (on : Bool) (s : σ) :
    (core.write e on).Ends s
      (fun was s' => was = (enables s).isOn e ∧ enables s' = (enables s).turn on e) E := by
  obtain ⟨s', hwrite, hs'⟩ := h.write e on s
  unfold Proc.Ends
  rw [hwrite]
  exact ⟨rfl, hs'⟩

/-- A masked section puts its enable back as it was. -/
lemma Obeys.keeps_masking (h : core.Obeys enables) (e : Enable) {x : Proc σ α}
    (hx : x.Keeps (Unchanged enables) E) : (core.masking e x).Keeps (Unchanged enables) E := by
  intro s
  rw [masking_eq, Proc.ends_bind]
  refine (h.ends_write e false s).imp ?_
  rintro was s₁ ⟨rfl, h₁⟩
  rw [Proc.ends_bind]
  refine (hx s₁).imp fun a s₂ h₂ => ?_
  replace h₂ : enables s₂ = (enables s).turn false e := h₂.trans h₁
  -- the section goes by what the enable was at its start, not by what others made of it
  cases hwas : (enables s).isOn e with
  | true =>
    rw [if_pos rfl, Proc.ends_bind, Proc.ends_discard]
    refine (h.ends_write e true s₂).imp ?_
    rintro _ s₃ ⟨-, h₃⟩
    rw [Proc.ends_pure]
    show enables s₃ = enables s
    rw [h₃, h₂, CoreFlags.turn_turn, ← hwas, CoreFlags.turn_isOn]
  | false =>
    rw [if_neg (by decide), Proc.ends_pure]
    show enables s₂ = enables s
    rw [h₂, ← hwas, CoreFlags.turn_isOn]

/-- Only what a section does with its enable off counts. -/
lemma Obeys.masking_congr (h : core.Obeys enables) (e : Enable) {x y : Proc σ α}
    (hxy : ∀ s₁, enables s₁ = (enables s).turn false e → x s₁ = y s₁) :
    core.masking e x s = core.masking e y s := by
  obtain ⟨s₁, hwrite, h₁⟩ := h.write e false s
  rw [masking_eq, masking_eq, Proc.bind_of_ok hwrite, Proc.bind_of_ok hwrite]
  exact Proc.bind_congr_at (hxy s₁ h₁)

/-! ### Programs of masked sections -/

/-- Acts, one after the other and within masked sections. What follows may depend on results. -/
inductive Nesting (σ : Type) : Type → Type 1
  | act {α : Type} (x : Proc σ α) : Nesting σ α
  | bind {α β : Type} (p : Nesting σ β) (f : β → Nesting σ α) : Nesting σ α
  | masked {α : Type} (e : Enable) (body : Nesting σ α) : Nesting σ α

namespace Nesting

def run (core : Core σ) : {α : Type} → Nesting σ α → Proc σ α
  | _, act x => x
  | _, bind p f => p.run core >>= fun b => (f b).run core
  | _, masked e body => core.masking e (body.run core)

/-- No act changes the enables, and each halts only as `E` allows. -/
def Neutral (enables : σ → CoreFlags) (E : Halt → Prop) : {α : Type} → Nesting σ α → Prop
  | _, act x => x.Keeps (Unchanged enables) E
  | _, bind p f => p.Neutral enables E ∧ ∀ b, (f b).Neutral enables E
  | _, masked _ body => body.Neutral enables E

/-- The same procedure before and after. -/
def surround (x : Proc σ Unit) (p : Nesting σ α) : Nesting σ α :=
  bind (act x) fun _ => bind p fun a => bind (act x) fun _ => act (pure a)

/-- The enables of the sections around are off, and the others are as given. -/
def Within (given : CoreFlags) (around : List Enable) (now : CoreFlags) : Prop :=
  ∀ e, now.isOn e = if e ∈ around then false else given.isOn e

instance (given now : CoreFlags) (around : List Enable) : Decidable (Within given around now) :=
  decidable_of_iff (∀ e ∈ Enable.all, now.isOn e = if e ∈ around then false else given.isOn e)
    ⟨fun h e => h e e.mem_all, fun h e _ => h e⟩

/-- Halt in the given way unless the enables are as the sections around leave them. -/
def assertWithin (enables : σ → CoreFlags) (given : CoreFlags) (failure : Halt)
    (around : List Enable) : Proc σ Unit := do
  unless Within given around (enables (← get)) do throw failure

/-- The program with an assertion before and after each of its parts. -/
def asserting (enables : σ → CoreFlags) (given : CoreFlags) (failure : Halt) :
    {α : Type} → Nesting σ α → List Enable → Nesting σ α
  | _, act x, around => surround (assertWithin enables given failure around) (act x)
  | _, bind p f, around =>
    surround (assertWithin enables given failure around)
      (bind (p.asserting enables given failure around) fun b =>
        (f b).asserting enables given failure around)
  | _, masked e body, around =>
    surround (assertWithin enables given failure around)
      (masked e (body.asserting enables given failure (e :: around)))

variable {p : Nesting σ α} {given : CoreFlags} {around : List Enable} {failure : Halt}

lemma keeps_run (hcore : core.Obeys enables) (p : Nesting σ α) (hp : p.Neutral enables E) :
    (p.run core).Keeps (Unchanged enables) E := by
  induction p with
  | act x => exact hp
  | bind p f ihp ihf => exact (ihp hp.1).bind fun b => ihf b (hp.2 b)
  | masked e body ih => exact hcore.keeps_masking e (ih hp)

lemma within_turn {now : CoreFlags} (h : Within given around now) (e : Enable) :
    Within given (e :: around) (now.turn false e) := by
  intro e'
  rw [CoreFlags.isOn_turn, h e']
  by_cases he : e' = e <;> simp [he]

lemma assertWithin_of_within (h : Within given around (enables s)) :
    assertWithin enables given failure around s = .ok () s := by
  have hget : (get : Proc σ σ) s = .ok s s := rfl
  rw [assertWithin, Proc.bind_of_ok hget, if_pos h]
  rfl

/-- Assertions around something that runs like a program without them. -/
lemma run_surround (hcore : core.Obeys enables) (hp : p.Neutral enables E)
    (hs : Within given around (enables s)) {q : Nesting σ α}
    (hq : q.run core s = p.run core s) (failure : Halt) :
    (surround (assertWithin enables given failure around) q).run core s = p.run core s := by
  refine (Proc.bind_of_ok (assertWithin_of_within hs)).trans ?_
  cases hrun : p.run core s with
  | ok a s' =>
    have hsame : enables s' = enables s := (keeps_run hcore p hp s).of_ok hrun
    have hs' : Within given around (enables s') := by rwa [hsame]
    exact (Proc.bind_of_ok (hq.trans hrun)).trans (Proc.bind_of_ok (assertWithin_of_within hs'))
  | error h s' => exact Proc.bind_of_error (hq.trans hrun)

/-- No assertion fails. -/
lemma run_asserting (hcore : core.Obeys enables) (p : Nesting σ α) (hp : p.Neutral enables E)
    (hs : Within given around (enables s)) (failure : Halt) :
    (p.asserting enables given failure around).run core s = p.run core s := by
  induction p generalizing s around with
  | act x => exact run_surround hcore hp hs rfl failure
  | bind p f ihp ihf =>
    refine run_surround hcore hp hs ?_ failure
    refine (Proc.bind_congr_at (ihp hp.1 hs)).trans ?_
    cases hrun : p.run core s with
    | ok b s' =>
      have hsame : enables s' = enables s := (keeps_run hcore p hp.1 s).of_ok hrun
      have hbind : (bind p f).run core s = (f b).run core s' := Proc.bind_of_ok hrun
      exact (Proc.bind_of_ok hrun).trans ((ihf b (hp.2 b) (by rwa [hsame])).trans hbind.symm)
    | error h s' =>
      have hbind : (bind p f).run core s = .error h s' := Proc.bind_of_error hrun
      exact (Proc.bind_of_error hrun).trans hbind.symm
  | masked e body ih =>
    -- the body starts with its own section around it too
    refine run_surround hcore hp hs ?_ failure
    refine hcore.masking_congr e fun s₁ hs₁ => ?_
    exact ih hp (by rw [hs₁]; exact within_turn hs e)

/-- **Masked sections nest.** After any nesting of them every enable is as it was before. Wherever
the run comes, the enables of the sections around are off, whatever sections ended before, and the
others are as at the start: to assert this before and after every part changes nothing, however a
failed assertion would halt. The run itself halts only as its acts may. -/
theorem run_restores_enables (hcore : core.Obeys enables) (p : Nesting σ α)
    (hp : p.Neutral enables E) (s : σ) :
    (p.run core).Ends s (fun _ s' => enables s' = enables s) E ∧
      ∀ failure, (p.asserting enables (enables s) failure []).run core s = p.run core s :=
  ⟨keeps_run hcore p hp s, fun failure => run_asserting hcore p hp (fun _ => rfl) failure⟩

end Nesting

end Core

namespace Bench.Session

lemma core_obeys : core.Obeys flags :=
  ⟨fun _ _ => ⟨_, rfl, rfl⟩, fun _ _ _ => ⟨_, rfl, rfl⟩⟩

end Bench.Session

namespace Core.Nesting

/-- A section for the timer with another one in it, and after that one everything masked. -/
def timerTwice : Nesting Bench.Session Unit :=
  .masked (.ofClass .timer)
    (.bind (.masked (.ofClass .timer) (.act (pure ()))) fun _ => .masked .global (.act (pure ())))

def allOn : Bench.Session :=
  { medium := .cells {}
    flags := { global := true, software := true, timer := true, external := true } }

theorem run_restores_enables_timerTwice :
    timerTwice.Neutral Bench.Session.flags (fun _ => False) ∧
      (∃ s, timerTwice.run Bench.Session.core allOn = .ok () s ∧ s.flags = allOn.flags) ∧
      (timerTwice.asserting Bench.Session.flags allOn.flags .hang []).run Bench.Session.core allOn =
        timerTwice.run Bench.Session.core allOn := by
  have hacts : timerTwice.Neutral Bench.Session.flags fun _ => False :=
    ⟨Proc.keeps_pure (), fun _ => Proc.keeps_pure ()⟩
  obtain ⟨hends, hassert⟩ :=
    run_restores_enables Bench.Session.core_obeys timerTwice hacts allOn
  obtain ⟨⟨⟩, s, hrun, hs⟩ := hends.returns
  exact ⟨hacts, ⟨s, hrun, hs⟩, hassert .hang⟩

end Core.Nesting

end BoardSupport
