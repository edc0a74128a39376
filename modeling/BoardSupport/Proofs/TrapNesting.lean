import BoardSupport.Proofs.Outcome
import BoardSupport.Trap.Dispatcher

/-!
The dispatcher under every nesting of traps.

A handler may take traps itself, whose handlers may take others, to any depth. Such a tree of
traps is watched from outside: calls, handlers and returns are written down in order, each with
the phase of the dispatcher at that moment. What holds of one more trap holds of the whole tree.
-/

namespace BoardSupport.Trap

/-- A trap, and the traps that its handler takes one after the other if it is run. -/
inductive Call where
  | trap (cause : Cause) (address : ℕ) (inner : List Call)

/-- A dispatch from its call to its return. -/
structure Visit where
  cause : Cause
  address : ℕ
  /-- The phase at its call. -/
  before : Phase
  /-- The classes whose handlers it ran, in order. -/
  ran : List Class
  result : Except Fatal ℕ
  /-- The phase at its return. -/
  after : Phase

inductive Moment where
  | call (cause : Cause) (address : ℕ)
  | enter (c : Class)
  | leave (c : Class)
  | back (v : Visit)

/-- A moment, and the phase of the dispatcher then. -/
structure Sight where
  moment : Moment
  phase : Phase

/-- A dispatcher that is watched. -/
structure Watch (τ : Type) where
  phase : Phase
  /-- The handlers that the current dispatch ran so far. -/
  ran : List Class := []
  sights : List Sight := []
  rest : τ

mutual

/-- The causes of all the traps of a tree. -/
def Call.causes : Call → List Cause
  | .trap cause _ inner => cause :: causesOf inner

def causesOf : List Call → List Cause
  | [] => []
  | c :: rest => c.causes ++ causesOf rest

end

namespace Watch

variable {τ : Type}

def phaseCell : Cell (Watch τ) Phase := ⟨phase, fun f s => { s with phase := f }⟩

def noted (s : Watch τ) (m : Moment) : Watch τ := { s with sights := s.sights ++ [⟨m, s.phase⟩] }

def note (m : Moment) : Proc (Watch τ) Unit := modify (noted · m)

/-- A handler of the class that does `body`, watched. -/
def handler (body : Proc (Watch τ) Unit) (c : Class) : Proc (Watch τ) Unit := do
  modify fun s => { s with ran := s.ran ++ [c] }
  note (.enter c)
  body
  note (.leave c)

mutual

/-- Take the trap; its handler takes the inner ones. -/
def perform (p : Platform (Watch τ)) : Call → Proc (Watch τ) Unit
  | .trap cause address inner => do
    let s ← get
    set { s with ran := [] }
    note (.call cause address)
    let result ← dispatch p phaseCell (handler (performAll p inner)) cause address
    let s' ← get
    note (.back ⟨cause, address, s.phase, s'.ran, result, s'.phase⟩)
    modify fun s'' => { s'' with ran := s.ran }

def performAll (p : Platform (Watch τ)) : List Call → Proc (Watch τ) Unit
  | [] => pure ()
  | c :: rest => do
    perform p c
    performAll p rest

end

end Watch

/-! ### What is seen -/

def Moment.isException : Moment → Bool
  | .call cause _ => !cause.isInterrupt
  | _ => false

def Moment.isEnter : Moment → Bool
  | .enter _ => true
  | _ => false

def Moment.isLeave : Moment → Bool
  | .leave _ => true
  | _ => false

/-- Whether an exception has been dispatched. -/
def excepted (h : List Sight) : Bool := h.any (·.moment.isException)

/-- How many handlers are running. -/
def running (h : List Sight) : ℕ := h.countP (·.moment.isEnter) - h.countP (·.moment.isLeave)

lemma excepted_append (h t : List Sight) : excepted (h ++ t) = (excepted h || excepted t) :=
  List.any_append

lemma excepted_snoc (h : List Sight) (m : Moment) (f : Phase) :
    excepted (h ++ [⟨m, f⟩]) = (excepted h || m.isException) := by
  simp [excepted]

lemma excepted_of_earlier {h h' : List Sight} (hp : h <+: h') (he : excepted h = true) :
    excepted h' = true := by
  obtain ⟨t, rfl⟩ := hp
  rw [excepted_append, he, Bool.true_or]

/-- What the phase has to be after what was seen: an exception ends the dispatcher for good, and
until then it dispatches while a handler runs. -/
structure Fits (h : List Sight) (f : Phase) : Prop where
  ended : excepted h = true → f = .terminating
  busy : excepted h = false → 0 < running h → f = .dispatching

lemma fits_dispatching {h : List Sight} {f : Phase} (hnone : excepted h = false)
    (hf : f = .dispatching) : Fits h f := by
  refine ⟨fun he => ?_, fun _ _ => hf⟩
  rw [hnone] at he
  cases he

/-- The dispatch resumes after an interrupt, unless the dispatcher is ended, and is fatal with its
own cause and address otherwise. It runs the handler of its class when it resumes, and no other. -/
structure Visit.Right (v : Visit) : Prop where
  ok : v.result = .ok v.address ↔ v.cause.isInterrupt = true ∧ v.before ≠ .terminating
  error : v.result ≠ .ok v.address → v.result = .error ⟨v.cause, v.address⟩
  ran : v.ran = [] ∨ ∃ c, v.ran = [c]
  handler : ∀ c, v.ran = [c] ↔ v.result = .ok v.address ∧ v.cause.code = c.code

/-- What one sight says, given what was seen before it. -/
structure Lawful (h : List Sight) (x : Sight) : Prop where
  fits : Fits h x.phase
  enter : ∀ c, x.moment = .enter c → excepted h = false ∧ x.phase = .dispatching
  back : ∀ v, x.moment = .back v →
    v.Right ∧ v.after = if excepted h then .terminating else v.before

def Told (l : List Sight) : Prop := ∀ h x, h ++ [x] <+: l → Lawful h x

lemma Told.snoc {l : List Sight} {y : Sight} (h : Told l) (hy : Lawful l y) : Told (l ++ [y]) := by
  intro h' x hx
  rcases List.prefix_concat_iff.1 hx with heq | hpre
  · obtain ⟨rfl, hxy⟩ := List.append_inj' heq rfl
    cases hxy
    exact hy
  · exact h h' x hpre

/-! ### One dispatch -/

lemma Class.ofCode?_eq_some_iff {n : ℕ} {c : Class} : Class.ofCode? n = some c ↔ n = c.code := by
  constructor
  · intro h
    unfold Class.ofCode? at h
    split at h <;> cases h <;> rfl
  · rintro rfl
    exact Class.ofCode?_code c

lemma Cause.class?_eq_some_iff {cause : Cause} (h : cause.isInterrupt = true) {c : Class} :
    cause.class? = some c ↔ cause.code = c.code := by
  rw [Cause.class?, if_pos h, Class.ofCode?_eq_some_iff]

section

variable {cause : Cause} {address : ℕ} {before after : Phase}

lemma right_fatal (h : cause.isInterrupt = false ∨ before = .terminating) :
    Visit.Right ⟨cause, address, before, [], .error ⟨cause, address⟩, after⟩ := by
  refine ⟨⟨?_, ?_⟩, fun _ => rfl, .inl rfl, fun c => ⟨?_, ?_⟩⟩
  · intro hr
    cases hr
  · rintro ⟨hi, hb⟩
    rcases h with h | h
    · rw [hi] at h
      cases h
    · exact absurd h hb
  · intro hc
    cases hc
  · rintro ⟨hr, -⟩
    cases hr

/-- The class of the interrupt says which handler is run. -/
lemma right_resumed (hi : cause.isInterrupt = true) (hb : before ≠ .terminating) (address : ℕ)
    (after : Phase) :
    Visit.Right ⟨cause, address, before, cause.class?.toList, .ok address, after⟩ := by
  refine ⟨⟨fun _ => ⟨hi, hb⟩, fun _ => rfl⟩, fun h => absurd rfl h, ?_, fun c => ?_⟩
  · cases cause.class? with
    | none => exact .inl rfl
    | some c => exact .inr ⟨c, rfl⟩
  · dsimp only
    rw [← Cause.class?_eq_some_iff hi]
    cases cause.class? <;> simp

end

namespace Watch

variable {τ α : Type} {p : Platform (Watch τ)} {cause : Cause} {address : ℕ} {s s' s'' : Watch τ}
  {cs cs' : List Cause}

/-- A procedure that returns and that the watch does not notice. -/
def Aside (x : Proc (Watch τ) α) : Prop :=
  ∀ s, x.Ends s (fun _ s' => ∃ rest, s' = { s with rest }) fun _ => False

/-- The three things that a dispatch can do. -/
lemma ends_dispatch (hlog : ∀ r, Aside (p.log r)) {handle : Class → Proc (Watch τ) Unit}
    {Q : Except Fatal ℕ → Watch τ → Prop}
    (fatal : cause.isInterrupt = false ∨ s.phase = .terminating →
      ∀ rest, Q (.error ⟨cause, address⟩) { s with phase := .terminating, rest })
    (unknown : cause.isInterrupt = true → s.phase ≠ .terminating → cause.class? = none →
      ∀ rest, Q (.ok address) { s with rest })
    (served : ∀ c, cause.isInterrupt = true → s.phase ≠ .terminating → cause.class? = some c →
      ∀ rest, (handle c).Ends { s with phase := .dispatching, rest }
        (fun _ s' => Q (.ok address) { s' with phase := s'.phase.leave s.phase })
        fun _ => False) :
    (dispatch p phaseCell handle cause address).Ends s Q fun _ => False := by
  unfold dispatch
  rw [Proc.ends_bind, Cell.ends_read]
  have hphase : phaseCell.get s = s.phase := rfl
  rw [hphase]
  split
  · next h =>
    -- an exception, or any trap after one
    have hfatal : cause.isInterrupt = false ∨ s.phase = .terminating := by
      simpa using h
    simp only [Proc.ends_bind, Cell.ends_write, Proc.ends_pure]
    refine (hlog _ _).imp ?_
    rintro _ _ ⟨rest, rfl⟩
    exact fatal hfatal rest
  · next h =>
    obtain ⟨hi, hb⟩ : cause.isInterrupt = true ∧ s.phase ≠ .terminating := by
      simpa using h
    split
    · next hc =>
      simp only [Proc.ends_bind, Proc.ends_pure]
      refine (hlog _ _).imp ?_
      rintro _ _ ⟨rest, rfl⟩
      exact unknown hi hb hc rest
    · next c hc =>
      -- whether it is nested or not, the handler starts in the dispatching phase
      have run : ∀ rest, (do
          p.trace path 186 ("dispatch " ++ cause.text)
          handle c
          phaseCell.update (·.leave s.phase)
          return (.ok address : Except Fatal ℕ)).Ends { s with phase := .dispatching, rest } Q
            fun _ => False := by
        intro rest
        simp only [Proc.ends_bind, Cell.ends_update, Proc.ends_pure]
        refine (hlog _ _).imp ?_
        rintro _ _ ⟨rest', rfl⟩
        exact served c hi hb hc rest'
      split
      · rw [Proc.ends_bind, Cell.ends_write]
        exact run s.rest
      · next hidle =>
        -- a nested interrupt finds the phase as it needs it
        have hnested : s.phase = .dispatching := by
          cases hf : s.phase with
          | idle => exact absurd hf hidle
          | dispatching => rfl
          | terminating => exact absurd hf hb
        rw [Proc.ends_bind]
        refine (hlog _ _).imp ?_
        rintro _ _ ⟨rest, rfl⟩
        have hsame : { s with rest } = { s with phase := .dispatching, rest } := by rw [← hnested]
        rw [hsame]
        exact run rest

/-! ### Trees -/

/-- What traps with these causes do to a watched dispatcher, whatever handlers they run. -/
structure Follows (cs : List Cause) (s s' : Watch τ) : Prop where
  sights : s.sights <+: s'.sights
  ran : s'.ran = s.ran
  level : running s'.sights = running s.sights
  blame : excepted s'.sights = true →
    excepted s.sights = true ∨ ∃ cause ∈ cs, cause.isInterrupt = false
  phase : s'.phase = if excepted s'.sights then .terminating else s.phase
  told : Told s'.sights

lemma Follows.fits (h : Follows cs s s') (hs : Fits s.sights s.phase) :
    Fits s'.sights s'.phase := by
  refine ⟨fun he => by rw [h.phase, if_pos he], fun he hr => ?_⟩
  have hbefore : excepted s.sights = false := by
    by_contra hne
    rw [excepted_of_earlier h.sights (by simpa using hne)] at he
    cases he
  rw [h.phase, if_neg (by simp [he])]
  exact hs.busy hbefore (h.level ▸ hr)

lemma follows_refl (hfits : Fits s.sights s.phase) (htold : Told s.sights) : Follows [] s s := by
  refine ⟨List.prefix_refl _, rfl, rfl, .inl, ?_, htold⟩
  split
  · next he => exact hfits.ended he
  · rfl

lemma Follows.trans (h : Follows cs s s') (h' : Follows cs' s' s'') :
    Follows (cs ++ cs') s s'' := by
  refine ⟨h.sights.trans h'.sights, h'.ran.trans h.ran, h'.level.trans h.level, ?_, ?_, h'.told⟩
  · -- the exception is among the calls of the stretch that saw it first
    intro he
    rcases h'.blame he with he' | ⟨cause, hc, hi⟩
    · rcases h.blame he' with he'' | ⟨cause, hc, hi⟩
      · exact .inl he''
      · exact .inr ⟨cause, List.mem_append_left _ hc, hi⟩
    · exact .inr ⟨cause, List.mem_append_right _ hc, hi⟩
  · rw [h'.phase, h.phase]
    by_cases he : excepted s''.sights = true
    · simp [he]
    · have he' : excepted s'.sights = false := by
        by_contra hne
        exact he (excepted_of_earlier h'.sights (by simpa using hne))
      simp [he, he']

/-- A handler starts while no exception has been dispatched. Whatever its traps do, it leaves the
dispatcher in the phase it found unless one of them is an exception. -/
lemma ends_handler {body : Proc (Watch τ) Unit} (c : Class)
    (hbody : ∀ s : Watch τ, Fits s.sights s.phase → Told s.sights →
      body.Ends s (fun _ s' => Follows cs s s') fun _ => False)
    (hnone : excepted s.sights = false) (hphase : s.phase = .dispatching)
    (htold : Told s.sights) :
    (handler body c).Ends s (fun _ s' => Follows cs { s with ran := s.ran ++ [c] } s')
      fun _ => False := by
  set s₁ : Watch τ := noted { s with ran := s.ran ++ [c] } (.enter c) with hs₁
  have hnone₁ : excepted s₁.sights = false := by
    rw [hs₁, noted, excepted_snoc, hnone]
    rfl
  have hfits₁ : Fits s₁.sights s₁.phase := fits_dispatching hnone₁ hphase
  have htold₁ : Told s₁.sights := by
    refine htold.snoc ⟨fits_dispatching hnone hphase, fun _ _ => ⟨hnone, hphase⟩, ?_⟩
    intro v hv
    cases hv
  simp only [handler, note, Proc.ends_bind, Proc.ends_modify]
  refine (hbody s₁ hfits₁ htold₁).imp ?_
  intro _ s₂ h
  have hkept : excepted (s₂.sights ++ [⟨.leave c, s₂.phase⟩]) = excepted s₂.sights := by
    rw [excepted_snoc]
    exact Bool.or_false _
  refine ⟨?_, h.ran, ?_, ?_, ?_, ?_⟩
  · exact (List.prefix_append _ _).trans (h.sights.trans (List.prefix_append _ _))
  · have hlevel := h.level
    simp [hs₁, noted, running, Moment.isEnter, Moment.isLeave] at hlevel ⊢
    omega
  · intro he
    rw [noted, hkept] at he
    rcases h.blame he with he' | hcause
    · rw [hnone₁] at he'
      cases he'
    · exact .inr hcause
  · show s₂.phase = if excepted (s₂.sights ++ _) = true then _ else s.phase
    rw [hkept]
    exact h.phase
  · refine h.told.snoc ⟨h.fits hfits₁, ?_, ?_⟩
    · intro c' hc'
      cases hc'
    · intro v hv
      cases hv

lemma excepted_call : excepted (s.sights ++ [⟨.call cause address, s.phase⟩]) =
    (excepted s.sights || !cause.isInterrupt) := excepted_snoc _ _ _

lemma told_call (hfits : Fits s.sights s.phase) (htold : Told s.sights) :
    Told (s.sights ++ [⟨.call cause address, s.phase⟩]) := by
  refine htold.snoc ⟨hfits, ?_, ?_⟩
  · intro c hc
    cases hc
  · intro v hv
    cases hv

lemma running_call : running (s.sights ++ [⟨.call cause address, s.phase⟩]) = running s.sights := by
  simp [running, Moment.isEnter, Moment.isLeave]

/-- A dispatch that runs no handler. -/
lemma follows_call (hfits : Fits s.sights s.phase) (htold : Told s.sights) {f : Phase} {rest : τ}
    (hf : f = if excepted s.sights || !cause.isInterrupt then .terminating else s.phase) :
    Follows (cause :: cs) { s with ran := [] }
      { noted { s with ran := [] } (.call cause address) with phase := f, rest } := by
  refine ⟨List.prefix_append _ _, rfl, running_call, ?_, ?_, told_call hfits htold⟩
  · intro he
    rw [noted, excepted_call, Bool.or_eq_true, Bool.not_eq_true'] at he
    rcases he with he | hi
    · exact .inl he
    · exact .inr ⟨cause, List.mem_cons_self, hi⟩
  · rw [noted, excepted_call]
    exact hf

/-- A dispatch that runs a handler: the phase is put back unless an exception ended it. -/
lemma follows_served {c : Class} {rest : τ} (hi : cause.isInterrupt = true)
    (h : Follows cs { noted { s with ran := [] } (.call cause address) with
      phase := .dispatching, ran := [c], rest } s') :
    Follows (cause :: cs) { s with ran := [c] } { s' with phase := s'.phase.leave s.phase } := by
  refine ⟨(List.prefix_append _ _).trans h.sights, h.ran, h.level.trans running_call, ?_, ?_,
    h.told⟩
  · intro he
    rcases h.blame he with he' | ⟨cause', hc, hi'⟩
    · rw [noted, excepted_call, hi, Bool.not_true, Bool.or_false] at he'
      exact .inl he'
    · exact .inr ⟨cause', List.mem_cons_of_mem _ hc, hi'⟩
  · show s'.phase.leave s.phase = _
    rw [h.phase, Phase.leave]
    by_cases he : excepted s'.sights = true <;> simp [he]

/-- What a dispatch leaves for its return, if its handler takes traps with these causes. -/
lemma ends_visit (hlog : ∀ r, Aside (p.log r)) {body : Proc (Watch τ) Unit}
    (hbody : ∀ s : Watch τ, Fits s.sights s.phase → Told s.sights →
      body.Ends s (fun _ s' => Follows cs s s') fun _ => False)
    (hfits : Fits s.sights s.phase) (htold : Told s.sights) :
    (dispatch p phaseCell (handler body) cause address).Ends
      (noted { s with ran := [] } (.call cause address))
      (fun result s' => ∃ ran, Follows (cause :: cs) { s with ran } s' ∧
        Visit.Right ⟨cause, address, s.phase, ran, result, s'.phase⟩) fun _ => False := by
  apply ends_dispatch hlog
  · intro hfatal rest
    refine ⟨[], follows_call hfits htold ?_, right_fatal hfatal⟩
    rcases hfatal with hi | hb
    · simp [hi]
    · have hb' : s.phase = .terminating := hb
      simp [hb']
  · -- an interrupt of no class runs nothing
    intro hi hb hc rest
    have hright := right_resumed hi hb address s.phase
    rw [hc] at hright
    refine ⟨[], follows_call hfits htold ?_, hright⟩
    split
    · next he =>
      rw [hi, Bool.not_true, Bool.or_false] at he
      exact hfits.ended he
    · rfl
  · -- no exception came before, or this call would not be served
    intro c hi hb hc rest
    have hnone : excepted s.sights = false := by
      by_contra hne
      exact hb (hfits.ended (by simpa using hne))
    have hnone' : excepted (s.sights ++ [⟨.call cause address, s.phase⟩]) = false := by
      rw [excepted_call, hnone, hi]
      rfl
    refine (ends_handler c hbody hnone' rfl (told_call hfits htold)).imp fun _ s' h => ?_
    have hright := right_resumed hi hb address (s'.phase.leave s.phase)
    rw [hc] at hright
    exact ⟨[c], follows_served hi h, hright⟩

/-- The return is seen, and the handlers of the dispatch around it are counted again. -/
lemma Follows.back {ran : List Class} {result : Except Fatal ℕ}
    (h : Follows cs { s with ran } s') (hfits : Fits s.sights s.phase)
    (hright : Visit.Right ⟨cause, address, s.phase, ran, result, s'.phase⟩) :
    Follows cs s { noted s' (.back ⟨cause, address, s.phase, s'.ran, result, s'.phase⟩) with
      ran := s.ran } := by
  have hran : s'.ran = ran := h.ran
  subst hran
  have hkept : ∀ m : Moment, m.isException = false →
      excepted (s'.sights ++ [⟨m, s'.phase⟩]) = excepted s'.sights := by
    intro m hm
    rw [excepted_snoc, hm, Bool.or_false]
  refine ⟨h.sights.trans (List.prefix_append _ _), rfl, ?_, ?_, ?_, ?_⟩
  · rw [← show running s'.sights = running s.sights from h.level]
    simp [noted, running, Moment.isEnter, Moment.isLeave]
  · intro he
    rw [noted, hkept _ rfl] at he
    exact h.blame he
  · rw [noted, hkept _ rfl]
    exact h.phase
  · refine h.told.snoc ⟨h.fits hfits, ?_, ?_⟩
    · intro c hc
      cases hc
    · intro v hv
      cases hv
      exact ⟨hright, h.phase⟩

mutual

theorem perform_follows (hlog : ∀ r, Aside (p.log r)) (c : Call) (s : Watch τ)
    (hfits : Fits s.sights s.phase) (htold : Told s.sights) :
    (perform p c).Ends s (fun _ s' => Follows c.causes s s') fun _ => False := by
  obtain ⟨cause, address, inner⟩ := c
  simp only [perform, note, Proc.ends_bind, Proc.ends_get, Proc.ends_set, Proc.ends_modify]
  refine (ends_visit hlog (performAll_follows hlog inner) hfits htold).imp ?_
  rintro result s' ⟨ran, h, hright⟩
  exact h.back hfits hright

theorem performAll_follows (hlog : ∀ r, Aside (p.log r)) (calls : List Call) (s : Watch τ)
    (hfits : Fits s.sights s.phase) (htold : Told s.sights) :
    (performAll p calls).Ends s (fun _ s' => Follows (causesOf calls) s s') fun _ => False := by
  cases calls with
  | nil => exact (Proc.ends_pure ()).2 (follows_refl hfits htold)
  | cons c rest =>
    rw [performAll, Proc.ends_bind]
    refine (perform_follows hlog c s hfits htold).imp fun _ s₁ h₁ => ?_
    refine (performAll_follows hlog rest s₁ (h₁.fits hfits) h₁.told).imp fun _ s₂ h₂ => ?_
    exact h₁.trans h₂

end

/-- How traps that were taken one after the other, each with all that nests in it, went from the
phase `start`. -/
structure Orderly (start : Phase) (calls : List Call) (s : Watch τ) : Prop where
  visits : ∀ v f, ⟨.back v, f⟩ ∈ s.sights → v.Right
  /-- While a handler runs the dispatcher dispatches, until there is an exception. -/
  busy : ∀ h x, h ++ [x] <+: s.sights → excepted h = false →
    (0 < running h ∨ ∃ c, x.moment = .enter c) → x.phase = .dispatching
  /-- After an exception the dispatcher is ended for good, and no handler starts. -/
  ended : ∀ h x, h ++ [x] <+: s.sights → excepted h = true →
    x.phase = .terminating ∧ ∀ c, x.moment ≠ .enter c
  final : excepted s.sights = true → s.phase = .terminating
  /-- Where there is no exception, every dispatch leaves the phase that it found. -/
  restored : (∀ cause ∈ causesOf calls, cause.isInterrupt = true) →
    (∀ v f, ⟨.back v, f⟩ ∈ s.sights → v.after = v.before) ∧ s.phase = start

/-- **Nesting.** Whatever traps the handlers take in turn, every dispatch returns and is right, and
the phase is what the handlers that run and the exceptions taken make it. -/
theorem performAll_orderly (p : Platform (Watch τ)) (hlog : ∀ r, Aside (p.log r)) (start : Phase)
    (rest : τ) (calls : List Call) :
    ∃ s' : Watch τ, performAll p calls { phase := start, rest } = .ok () s' ∧
      Orderly start calls s' := by
  have hfits : Fits [] start :=
    ⟨fun he => absurd he (by decide), fun _ hr => absurd hr (by decide)⟩
  have htold : Told [] := fun h x hx => absurd (List.prefix_nil.1 hx) (by simp)
  obtain ⟨_, s', hrun, h⟩ :=
    (performAll_follows hlog calls { phase := start, rest } hfits htold).returns
  have hback : ∀ v f, ⟨.back v, f⟩ ∈ s'.sights → ∃ h, h <+: s'.sights ∧
      v.Right ∧ v.after = if excepted h then .terminating else v.before := by
    intro v f hv
    obtain ⟨l, t, hl⟩ := List.append_of_mem hv
    have hpre : l ++ [⟨.back v, f⟩] <+: s'.sights := ⟨t, by simp [hl]⟩
    exact ⟨l, (List.prefix_append _ _).trans hpre, (h.told l _ hpre).back v rfl⟩
  refine ⟨s', hrun, ⟨?_, ?_, ?_, ?_, ?_⟩⟩
  · intro v f hv
    obtain ⟨_, -, hright, -⟩ := hback v f hv
    exact hright
  · rintro l x hx hnone (hr | ⟨c, hc⟩)
    · exact (h.told l x hx).fits.busy hnone hr
    · exact ((h.told l x hx).enter c hc).2
  · intro l x hx he
    refine ⟨(h.told l x hx).fits.ended he, fun c hc => ?_⟩
    rw [((h.told l x hx).enter c hc).1] at he
    cases he
  · intro he
    rw [h.phase, if_pos he]
  · intro hall
    have hnone : excepted s'.sights = false := by
      by_contra hne
      rcases h.blame (by simpa using hne) with he | ⟨cause, hc, hi⟩
      · cases he
      · rw [hall cause hc] at hi
        cases hi
    refine ⟨fun v f hv => ?_, by rw [h.phase, hnone]; rfl⟩
    obtain ⟨l, hl, -, hafter⟩ := hback v f hv
    have hl' : excepted l = false := by
      by_contra hne
      rw [excepted_of_earlier hl (by simpa using hne)] at hnone
      cases hnone
    rw [hafter, hl']
    rfl

/-- Nothing but a log that counts its records. -/
def countingPlatform : Platform (Watch ℕ) where
  load := fun _ _ => pure 0#32
  store := fun _ _ _ => pure ()
  log := fun _ => modify fun s => { s with rest := s.rest + 1 }
  patience := fun _ => 0

/-- The handler of an external interrupt takes a timer interrupt, in which there is a store fault,
and then a software interrupt. Another external interrupt comes after it. -/
def faultingTraps : List Call :=
  [.trap ⟨0x8000000b#32⟩ 0x20000020
      [.trap ⟨0x80000007#32⟩ 0x20000010 [.trap ⟨7#32⟩ 0x20000030 []],
        .trap ⟨0x80000003#32⟩ 0x20000014 []],
    .trap ⟨0x8000000b#32⟩ 0x20000024 []]

theorem performAll_orderly_faultingTraps :
    ∃ s' : Watch ℕ, performAll countingPlatform faultingTraps { phase := .idle, rest := 0 } =
        .ok () s' ∧
      Orderly .idle faultingTraps s' :=
  performAll_orderly countingPlatform (fun _ _ => (Proc.ends_modify _).2 ⟨_, rfl⟩) .idle 0
    faultingTraps

end Watch

end BoardSupport.Trap
