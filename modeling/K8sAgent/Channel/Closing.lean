import K8sAgent.Channel.Keepalive

set_option relaxedAutoImplicit false
set_option autoImplicit false

/-!
# Closing a dead connection

What `keepalive` of `internal/wsclient/wsclient.go` is for: when the other side is gone, the
connection is closed before long. This takes two things. The goroutine must not be able to put the
closing off, whatever is read and however the wall clock is set; and time must be able to pass,
since a goroutine that stopped the clock would never be late.

## Main definitions

* `K8sAgent.Keepalive.Pc.deadline` — when the connection is closed at the latest, if no pong comes.
* `K8sAgent.Keepalive.Leads` — there is a run without pong from one state to another.
* `K8sAgent.Keepalive.ClosedBy` — the connection is closed by a time, and that time comes.

## Main results

* `K8sAgent.Keepalive.Timely.deadline_step` — without a pong, the deadline is not put off.
* `K8sAgent.Keepalive.exists_leads` — time goes on.
* `K8sAgent.Keepalive.closed_in_time` — a dead connection is closed in time.
-/

namespace K8sAgent.Keepalive

open Transition

variable (τ : Timing)

/-! ## The deadline -/

/-- When the connection is closed at the latest, if no pong comes. -/
def Pc.deadline : Pc → ℕ
  | .starting since => since + τ.pingEvery + τ.pongWithin + 3 * τ.lag
  | .looping next ready .waiting => ready.getD next + τ.pongWithin + 2 * τ.lag
  | .looping _ _ (.checking _ since) => since + τ.pongWithin + 2 * τ.lag
  | .looping _ _ (.pinging since) => since + τ.pongWithin + τ.lag
  | .looping _ _ (.answered stamp) => stamp.since + τ.pingEvery + τ.pongWithin + 3 * τ.lag
  | .silent | .dead | .stopped => 0

/-- No pong comes, and the context is not found done. -/
def Label.unanswered : Label → Bool
  | .pong | .cancel => false
  | _ => true

/-- There is a run without pong from one state to another. -/
def Leads (s s' : State) : Prop :=
  ∃ ls : List Label, (∀ l ∈ ls, l.unanswered = true) ∧ run (step τ) s ls = some s'

/-- **The connection is closed by a time**, if no pong comes any more and the context is not done:
time goes on, and where it has passed that time, the connection is closed. -/
structure ClosedBy (s : State) (t : ℕ) : Prop where
  /-- There are runs to every later time. -/
  goesOn : ∀ t', s.now ≤ t' → ∃ s', Leads τ s s' ∧ s'.now = t'
  /-- Every run past the time has closed the connection. -/
  closed : ∀ s', Leads τ s s' → t < s'.now → s'.pc.closed = true

section Lemmas

variable {τ} {s s' : State}

/-- The deadline is at most a period, the time allowed for a pong and three lags away. -/
lemma Timely.deadline_le (h : Timely τ s) :
    s.pc.deadline τ ≤ s.now + τ.pingEvery + τ.pongWithin + 3 * τ.lag := by
  have hpc := h.pc
  cases hp : s.pc with
  | starting since =>
    rw [hp] at hpc
    have := hpc.1
    simp only [Pc.deadline]
    omega
  | looping next ready place =>
    rw [hp] at hpc
    obtain ⟨-, hnext, hready, hpast, -⟩ := hpc
    cases place with
    | waiting =>
      cases ready with
      | none =>
        simp only [Pc.deadline, Option.getD_none]
        omega
      | some r =>
        have := hready r rfl
        simp only [Pc.deadline, Option.getD_some]
        omega
    | checking | pinging | answered =>
      simp only [Place.Past] at hpast
      simp only [Pc.deadline]
      omega
  | silent | dead | stopped => exact Nat.zero_le _

/-- While the goroutine is not done, the deadline has not passed. -/
lemma Timely.now_le_deadline (h : Timely τ s) (hopen : s.pc.ended = false) :
    s.now ≤ s.pc.deadline τ := by
  have hpc := h.pc
  cases hp : s.pc with
  | starting since =>
    rw [hp] at hpc
    have := hpc.2
    simp only [Pc.deadline]
    omega
  | looping next ready place =>
    rw [hp] at hpc
    obtain ⟨-, -, -, -, hlimit⟩ := hpc
    cases place with
    | waiting | checking | pinging | answered =>
      simp only [Place.limit] at hlimit
      simp only [Pc.deadline]
      omega
  | silent | dead | stopped =>
    rw [hp] at hopen
    cases hopen

/-- **Without a pong, no step puts the deadline off**, and a goroutine that is done stays so. -/
theorem Timely.deadline_step (h : Timely τ s) {l : Label} (hl : l.unanswered = true)
    (hstep : Keepalive.step τ s l = some s') (hopen : s'.pc.ended = false) :
    s.pc.ended = false ∧ s'.pc.deadline τ ≤ s.pc.deadline τ := by
  have hpc := h.pc
  cases move_of_step hstep with
  | elapse | set | frame | store => exact ⟨hopen, Nat.le_refl _⟩
  | launch hp =>
    rw [hp] at hpc ⊢
    have := hpc.2
    refine ⟨rfl, ?_⟩
    simp only [Pc.deadline, Option.getD_none]
    omega
  | tick hp =>
    rename_i ready place
    rw [hp]
    refine ⟨rfl, ?_⟩
    cases place <;> exact Nat.le_refl _
  | receive hp =>
    rw [hp]
    exact ⟨rfl, Nat.le_refl _⟩
  | ping hp hquiet =>
    rw [hp] at hpc ⊢
    have hlimit := hpc.2.2.2.2
    refine ⟨rfl, ?_⟩
    simp only [Place.limit] at hlimit
    simp only [Pc.deadline]
    omega
  | record hp =>
    rename_i next ready stamp
    rw [hp] at hpc ⊢
    obtain ⟨-, hnext, -, -, hlimit⟩ := hpc
    refine ⟨rfl, ?_⟩
    simp only [Place.limit] at hlimit
    cases ready with
    | none =>
      simp only [Pc.deadline, Option.map_none, Option.getD_none]
      omega
    | some r =>
      simp only [Pc.deadline, Option.map_some, Option.getD_some]
      omega
  | pong | cancel => cases hl
  | silent | timeout | broken => cases hopen

/-- Only a context that is done ends the goroutine without closing the connection. -/
lemma ne_stopped_step {l : Label} (hl : l.unanswered = true) (hstep : step τ s l = some s')
    (hne : s.pc ≠ .stopped) : s'.pc ≠ .stopped := by
  cases move_of_step hstep with
  | elapse | set | frame | store => exact hne
  | cancel => cases hl
  | _ => exact Pc.noConfusion

/-- **Past the deadline the connection is closed**, if no pong has come. -/
theorem Timely.closed (h : Timely τ s) (hopen : s.pc.ended = false) (hleads : Leads τ s s')
    (hlate : s.pc.deadline τ < s'.now) : s'.pc.closed = true := by
  obtain ⟨ls, hls, hrun⟩ := hleads
  have hne : s.pc ≠ .stopped := by
    intro hpc
    rw [hpc] at hopen
    cases hopen
  -- the deadline stays, as long as the goroutine is not done
  obtain ⟨htimely, hne', hdeadline⟩ :=
    invariant (P := fun _ l => l.unanswered = true) (I := fun t => Timely τ t ∧
        t.pc ≠ .stopped ∧ (t.pc.ended = false → t.pc.deadline τ ≤ s.pc.deadline τ))
      (fun h hl hstep => ⟨h.1.step hstep, ne_stopped_step hl hstep h.2.1, fun hopen => by
        obtain ⟨hbefore, hle⟩ := h.1.deadline_step hl hstep hopen
        exact Nat.le_trans hle (h.2.2 hbefore)⟩)
      ⟨h, hne, fun _ => Nat.le_refl _⟩ (along_of_forall_mem fun l hl _ => hls l hl) hrun
  cases hp : s'.pc with
  | silent | dead => rfl
  | stopped => exact absurd hp hne'
  | starting | looping =>
    have hopen' : s'.pc.ended = false := by rw [hp]; rfl
    have hnow := htimely.now_le_deadline hopen'
    have hless := hdeadline hopen'
    omega

/-! ## Time goes on -/

lemma leads_refl (s : State) : Leads τ s s := ⟨[], by simp, rfl⟩

/-- Runs without pong from `s₁` to `s₂` and from `s₂` to `s₃` make one from `s₁` to `s₃`. -/
lemma Leads.trans {s₁ s₂ s₃ : State} (h : Leads τ s₁ s₂) (h' : Leads τ s₂ s₃) : Leads τ s₁ s₃ := by
  obtain ⟨ls, hls, hrun⟩ := h
  obtain ⟨ls', hls', hrun'⟩ := h'
  refine ⟨ls ++ ls', fun l hl => ?_, ?_⟩
  · exact (List.mem_append.mp hl).elim (hls l) (hls' l)
  · rw [run_append, hrun]
    exact hrun'

/-- A step that is no pong, and a run without pong after it, make a run without pong. -/
lemma leads_cons {l : Label} {s₁ : State} (hl : l.unanswered = true) (hstep : step τ s l = some s₁)
    (h : Leads τ s₁ s') : Leads τ s s' := by
  refine Leads.trans ⟨[l], by simpa using hl, ?_⟩ h
  rw [run, hstep]
  rfl

/-- The goroutines are in time after a run, too. -/
lemma Timely.leads (h : Timely τ s) (hleads : Leads τ s s') : Timely τ s' := by
  obtain ⟨ls, -, hrun⟩ := hleads
  exact invariant_all (fun h hstep => h.step hstep) h hrun

/-- The state leads, at the same time, to one in which nothing is late a nanosecond later. -/
def Frees (τ : Timing) (s : State) : Prop :=
  ∃ pc last, Leads τ s { s with pc := pc, lastActivity := last } ∧ pc.Allows τ (s.now + 1)

/-- A step of the keepalive goroutine to a state with this property. -/
lemma frees_of_step (l : Label) (pc : Pc) (last : ℤ) (hl : l.unanswered = true)
    (hstep : step τ s l = some { s with pc := pc, lastActivity := last })
    (h : Frees τ { s with pc := pc, lastActivity := last }) : Frees τ s := by
  obtain ⟨pc', last', hleads, hallows⟩ := h
  exact ⟨pc', last', leads_cons hl hstep hleads, hallows⟩

section Places

variable {next : ℕ} {ready : Option ℕ}

/-- A ping is given up, if its time is over. -/
lemma frees_pinging {since : ℕ} (hnext : s.now < next)
    (hp : s.pc = .looping next ready (.pinging since)) : Frees τ s := by
  by_cases hlate : since + τ.pongWithin ≤ s.now
  · refine frees_of_step .timeout .dead s.lastActivity rfl ?_
      ⟨.dead, s.lastActivity, leads_refl _, trivial⟩
    simp only [step, hp, if_pos hlate]
  · refine ⟨s.pc, s.lastActivity, leads_refl _, ?_⟩
    rw [hp]
    refine ⟨hnext, ?_⟩
    simp only [Place.limit]
    omega

/-- The check closes the connection, or a ping is sent. -/
lemma frees_checking {last : ℤ} {since : ℕ} (hnext : s.now < next)
    (hp : s.pc = .looping next ready (.checking last since)) : Frees τ s := by
  by_cases hsilent : (τ.silenceAfter : ℤ) < s.wall - last
  · refine frees_of_step .check .silent s.lastActivity rfl ?_
      ⟨.silent, s.lastActivity, leads_refl _, trivial⟩
    simp only [step, hp, if_pos hsilent]
  · refine frees_of_step .check (.looping next ready (.pinging s.now)) s.lastActivity rfl ?_
      (frees_pinging hnext rfl)
    simp only [step, hp, if_neg hsilent]

/-- A tick is received, if there is one. -/
lemma frees_waiting (hnext : s.now < next) (hp : s.pc = .looping next ready .waiting) :
    Frees τ s := by
  cases ready with
  | none =>
    refine ⟨s.pc, s.lastActivity, leads_refl _, ?_⟩
    rw [hp]
    exact ⟨hnext, Nat.le_add_right_of_le hnext⟩
  | some since =>
    refine frees_of_step .receive (.looping next none (.checking s.lastActivity since))
      s.lastActivity rfl ?_ (frees_checking hnext rfl)
    simp only [step, hp]

/-- The goroutine stores the reading `stamp` of its last pong, and is at the ticker again. -/
lemma frees_answered {stamp : Stamp} (hnext : s.now < next)
    (hp : s.pc = .looping next ready (.answered stamp)) : Frees τ s := by
  refine frees_of_step .record (.looping next (ready.map fun _ => s.now) .waiting) stamp.reading
    rfl ?_ (frees_waiting hnext rfl)
  simp only [step, hp]

/-- In its loop, the goroutine does what it can. -/
lemma frees_looping {place : Place} (hnext : s.now < next) (hp : s.pc = .looping next ready place) :
    Frees τ s := by
  cases place with
  | waiting => exact frees_waiting hnext hp
  | checking => exact frees_checking hnext hp
  | pinging => exact frees_pinging hnext hp
  | answered => exact frees_answered hnext hp

end Places

/-- **What is due is done**, before time goes on. -/
theorem Timely.frees (h : Timely τ s) (hperiod : 0 < τ.pingEvery) : Frees τ s := by
  have hpc := h.pc
  cases hp : s.pc with
  | starting since =>
    refine frees_of_step .launch (.looping (s.now + τ.pingEvery) none .waiting) s.lastActivity
      rfl ?_ (frees_looping (Nat.lt_add_of_pos_right hperiod) rfl)
    simp only [Keepalive.step, hp]
  | looping next ready place =>
    rw [hp] at hpc
    rcases Nat.lt_or_eq_of_le hpc.1 with hlt | rfl
    · exact frees_looping hlt hp
    · -- the ticker fires first
      refine frees_of_step .tick
        (.looping (s.now + τ.pingEvery) (some (ready.getD s.now)) place) s.lastActivity rfl ?_
        (frees_looping (Nat.lt_add_of_pos_right hperiod) rfl)
      simp only [Keepalive.step, hp, if_pos]
  | silent | dead | stopped =>
    refine ⟨s.pc, s.lastActivity, leads_refl _, ?_⟩
    rw [hp]
    trivial

/-- From every state in which the goroutines are in time, a run without pong leads to the next
nanosecond. -/
lemma Timely.exists_succ (h : Timely τ s) (hperiod : 0 < τ.pingEvery) :
    ∃ s', Leads τ s s' ∧ s'.now = s.now + 1 := by
  -- the read loop stores what it has read
  obtain ⟨s₁, hleads₁, hnow₁, hreader₁⟩ : ∃ s₁, Leads τ s s₁ ∧ s₁.now = s.now ∧
      s₁.reader = none := by
    cases hr : s.reader with
    | none => exact ⟨s, leads_refl s, rfl, hr⟩
    | some stamp =>
      refine ⟨{ s with lastActivity := stamp.reading, reader := none },
        leads_cons (l := .store) rfl ?_ (leads_refl _), rfl, rfl⟩
      simp only [Keepalive.step, hr]
  obtain ⟨pc, last, hleads₂, hallows⟩ := (h.leads hleads₁).frees hperiod
  refine ⟨{ s₁ with pc := pc, lastActivity := last, now := s₁.now + 1 },
    hleads₁.trans (hleads₂.trans (leads_cons (l := .elapse (s₁.now + 1)) rfl ?_ (leads_refl _))),
    by rw [← hnow₁]⟩
  refine if_pos ⟨Nat.le_succ _, hallows, ?_⟩
  rw [hreader₁]
  exact fun stamp hstamp => by cases hstamp

/-- **Time goes on**: to every later time there is a run without pong. -/
theorem exists_leads (hperiod : 0 < τ.pingEvery) (h : Timely τ s) {t : ℕ} (ht : s.now ≤ t) :
    ∃ s', Leads τ s s' ∧ s'.now = t := by
  obtain ⟨n, rfl⟩ := Nat.exists_eq_add_of_le ht
  clear ht
  induction n with
  | zero => exact ⟨s, leads_refl s, rfl⟩
  | succ n ih =>
    obtain ⟨s₁, hleads, hnow⟩ := ih
    obtain ⟨s₂, hleads', hnow'⟩ := (h.leads hleads).exists_succ hperiod
    exact ⟨s₂, hleads.trans hleads', by rw [hnow', hnow]; rfl⟩

end Lemmas

/-- **A dead connection is closed in time.** From any state of a run in which the goroutine is not
done, if no pong comes any more and the context is not found done, the connection is closed when a
period, the time for a pong and three times the lag have passed, whatever else is read and however
the wall clock is set: by then the goroutine has come to a tick, has sent a ping and has given it
up, unless the check for silence has closed the connection before. Time does pass: there are such
runs to every later time.

**Proof sketch.** The deadline of the state is not put off by any step but a pong, and the goroutine
is done when it has passed (`Timely.closed`). In every state what is due can be done, and then time
can pass (`exists_leads`). -/
theorem closed_in_time (τ : Timing) (hperiod : 0 < τ.pingEvery) (now : ℕ) (ahead : ℤ)
    (ls : List Label) (s : State) (hrun : run (step τ) (start now ahead) ls = some s)
    (hopen : s.pc.ended = false) :
    ClosedBy τ s (s.now + τ.pingEvery + τ.pongWithin + 3 * τ.lag) := by
  have htimely : Timely τ s := timely_of_run hrun
  refine ⟨fun t' ht' => exists_leads hperiod htimely ht', fun s' hleads hlate => ?_⟩
  exact htimely.closed hopen hleads (Nat.lt_of_le_of_lt htimely.deadline_le hlate)

/-- The connection is made, a ping is answered late, and then the other side is gone. -/
def goneAfterPong : List Label :=
  [.elapse 200000000, .launch, .elapse 25200000000, .tick, .receive, .check, .elapse 50200000000,
    .tick, .elapse 54000000000, .pong]

/-- The pong is recorded, the tick that has come meanwhile is received, and its ping is not
answered, though a frame is read. -/
def unanswered : List Label :=
  [.record, .receive, .check, .elapse 60000000000, .frame, .store, .elapse 75200000000, .tick,
    .elapse 84000000000, .timeout, .elapse 110500000001]

/-- With the timing of the client and half a second of lag, the connection is closed by then. -/
theorem closed_unanswered :
    ∃ s s', run (step (clientTiming 500000000)) (start 0 0) goneAfterPong = some s ∧
      s.now = 54000000000 ∧ ClosedBy (clientTiming 500000000) s 110500000000 ∧
      run (step (clientTiming 500000000)) s unanswered = some s' ∧ s'.pc.closed = true := by
  obtain ⟨s, hs, hend⟩ := Option.map_eq_some_iff.mp (show Option.map
    (fun s : State => (s.now, s.pc.ended,
      (run (step (clientTiming 500000000)) s unanswered).map fun s' => s'.now))
    (run (step (clientTiming 500000000)) (start 0 0) goneAfterPong) =
      some (54000000000, false, some 110500000001) by decide +kernel)
  simp only [Prod.mk.injEq] at hend
  obtain ⟨hnow, hopen, hlater⟩ := hend
  obtain ⟨s', hs', hnow'⟩ := Option.map_eq_some_iff.mp hlater
  have hclosed := closed_in_time (clientTiming 500000000) (by decide) 0 0 goneAfterPong s hs hopen
  rw [hnow] at hclosed
  refine ⟨s, s', hs, hnow, hclosed, hs', hclosed.closed s' ⟨unanswered, by decide, hs'⟩ ?_⟩
  rw [hnow']
  decide

end K8sAgent.Keepalive
