import K8sAgent.Uploader.Run

set_option relaxedAutoImplicit false
set_option autoImplicit false

/-!
# Backing off

`Run` sleeps after a failed send, and doubles the delay each time. The delay is one variable for
snapshots and batches of events, and it is set back whenever a snapshot has been sent. A batch of
events that fails makes a snapshot due, so that the next batch is sent only after the delay has been
set back: however often in a row batches of events fail, each failure is followed by a delay of one
second.

## Main definitions

* `K8sAgent.Uploader.Counted` — a state with the number of failures in a row.
* `K8sAgent.Uploader.Counted.BacksOff` — the delay after a failed batch has grown with the number of
  failures.
* `K8sAgent.Uploader.Calm` — a batch of events does not fail again before one is acknowledged.

## Main results

* `K8sAgent.Uploader.backoff_eq_one` — the delay whenever `Run` is past the snapshot.
* `K8sAgent.Uploader.backsOff_iff_calm` — the runs in which `Run` backs off.
-/

namespace K8sAgent.Uploader

open Transition

/-! ## Counting failures -/

/-- A batch of events, not a part of a snapshot, is waiting for its answer. -/
def State.sendsEvents (s : State) : Bool :=
  match s.pc with
  | .sending _ false _ => true
  | _ => false

/-- A state with the number of batches of events that have failed since one was acknowledged. -/
structure Counted where
  /-- The state. -/
  state : State
  /-- The failures in a row. -/
  failures : ℕ := 0

/-- The number of failures after a step. -/
def Counted.after (c : Counted) : Label → ℕ
  | .ack => if c.state.sendsEvents then 0 else c.failures
  | .fail => if c.state.sendsEvents then c.failures + 1 else c.failures
  | _ => c.failures

/-- One step, with the failures counted. -/
def countedStep (u : Uploader) (c : Counted) (l : Label) : Option Counted :=
  (u.step c.state l).map fun s => ⟨s, c.after l⟩

/-- Counting the waits does not change the states of a run. -/
lemma run_countedStep (u : Uploader) (c : Counted) (ls : List Label) :
    (run u.countedStep c ls).map Counted.state = run u.step c.state ls := by
  induction ls generalizing c with
  | nil => rfl
  | cons l ls ih =>
    rw [run, run, countedStep]
    cases u.step c.state l with
    | none => rfl
    | some s => exact ih ⟨s, c.after l⟩

/-- **The delay has grown with the failures.** Where a batch of events has just failed, for the
`k`-th time in a row, the delay that follows is at least `min (2 ^ (k - 1)) 30` seconds. -/
def Counted.BacksOff (c : Counted) : Prop :=
  ∀ evs, c.state.pc = .failed evs → min (2 ^ (c.failures - 1)) 30 ≤ c.state.backoff

/-- The delay that follows is the one in the state in which the batch has failed. -/
lemma step_failed {u : Uploader} {s : State} {evs : List InventoryEvent}
    (hpc : s.pc = .failed evs) :
    ∃ s', u.step s .next = some s' ∧ s'.pc = .sleeping ∧ s'.backoff = s.backoff := by
  refine ⟨requeueFront s evs, ?_, rfl, rfl⟩
  simp [step, next, hpc]

/-- No batch of events fails while an earlier failure is not made up for. -/
def Calm (c : Counted) : Label → Prop
  | .fail => c.state.sendsEvents = true → c.failures = 0
  | _ => True

/-! ## The delay past the snapshot -/

/-- `Run` is past the snapshot: at the events, or about to go to them. -/
def State.pastSnapshot (s : State) : Bool :=
  match s.pc with
  | .top => !s.needSnapshot
  | .taking | .idle | .failed _ => true
  | .sending _ full _ => !full
  | _ => false

/-- `Run` is at the snapshot, or sleeps after a failure. -/
def State.beforeSnapshot (s : State) : Bool :=
  match s.pc with
  | .snapshot _ | .sleeping => true
  | .sending _ full _ => full
  | _ => false

/-- The delay has been set back past the snapshot, and before that a snapshot is due. -/
structure Reset (s : State) : Prop where
  /-- The delay past the snapshot. -/
  past : s.pastSnapshot = true → s.backoff = 1
  /-- A snapshot is due. -/
  before : s.beforeSnapshot = true → s.needSnapshot = true

/-- Enqueueing an event leaves the delay `backoff` alone. -/
lemma backoff_enqueue (u : Uploader) (s : State) (ev : InventoryEvent) :
    (u.enqueue s ev).backoff = s.backoff := by
  unfold enqueue
  split_ifs <;> rfl

/-- Refilling the buffer from the spill file leaves the delay `backoff` alone. -/
lemma backoff_refill (u : Uploader) (s : State) : (u.refill s).backoff = s.backoff := by
  rcases u.refill_cases s with h | ⟨-, h⟩ <;> rw [h]

/-- **Every step keeps the delay set back past the snapshot.** -/
theorem Reset.step {u : Uploader} {s s' : State} {l : Label} (h : Reset s)
    (hstep : u.step s l = some s') : Reset s' := by
  cases move_of_step hstep with
  | enqueue ev =>
    have hsame := u.sameRun_enqueue s ev
    have hpast : (u.enqueue s ev).pastSnapshot = s.pastSnapshot := by
      rw [State.pastSnapshot, hsame.pc, hsame.needSnapshot, State.pastSnapshot]
    have hbefore : (u.enqueue s ev).beforeSnapshot = s.beforeSnapshot := by
      rw [State.beforeSnapshot, hsame.pc, State.beforeSnapshot]
    refine ⟨fun hp => ?_, fun hb => ?_⟩
    · rw [backoff_enqueue, h.past (hpast ▸ hp)]
    · rw [hsame.needSnapshot, h.before (hbefore ▸ hb)]
  | snapshot evs hpc hneed => exact ⟨fun hp => absurd hp Bool.false_ne_true, fun _ => hneed⟩
  | skip hpc hneed =>
    refine ⟨fun _ => h.past ?_, fun hb => absurd hb Bool.false_ne_true⟩
    simp [State.pastSnapshot, hpc, hneed]
  | snapshotDone hpc => exact ⟨fun _ => rfl, fun hb => absurd hb Bool.false_ne_true⟩
  | sendPart hpc hne =>
    refine ⟨fun hp => absurd hp Bool.false_ne_true, fun _ => h.before ?_⟩
    simp [State.beforeSnapshot, hpc]
  | take hpc =>
    have hone : s.backoff = 1 := h.past (by simp [State.pastSnapshot, hpc])
    obtain ⟨s₁, rfl, ⟨-, htake⟩ | ⟨-, htake⟩⟩ := u.take_cases s
    · rw [htake]
      exact ⟨fun _ => (backoff_refill u s).trans hone, fun hb => absurd hb Bool.false_ne_true⟩
    · rw [htake]
      exact ⟨fun _ => (backoff_refill u s).trans hone, fun hb => absurd hb Bool.false_ne_true⟩
  | requeue hpc => exact ⟨fun hp => absurd hp Bool.false_ne_true, fun _ => rfl⟩
  | ackPart hpc =>
    refine ⟨fun hp => absurd hp Bool.false_ne_true, fun _ => h.before ?_⟩
    simp [State.beforeSnapshot, hpc]
  | ackEvents hpc => exact ⟨fun _ => rfl, fun hb => absurd hb Bool.false_ne_true⟩
  | failPart hpc =>
    refine ⟨fun hp => absurd hp Bool.false_ne_true, fun _ => h.before ?_⟩
    simp [State.beforeSnapshot, hpc]
  | failEvents hpc =>
    refine ⟨fun _ => h.past ?_, fun hb => absurd hb Bool.false_ne_true⟩
    simp [State.pastSnapshot, hpc]
  | awake hpc =>
    -- A snapshot is due after sleeping, so the doubled delay is for the snapshot only.
    have hneed : s.needSnapshot = true := h.before (by simp [State.beforeSnapshot, hpc])
    refine ⟨fun hp => ?_, fun hb => absurd hb Bool.false_ne_true⟩
    simp [State.pastSnapshot, hneed] at hp
  | resume hpc =>
    refine ⟨fun _ => h.past ?_, fun hb => absurd hb Bool.false_ne_true⟩
    simp [State.pastSnapshot, hpc]
  | cancel hpc =>
    exact ⟨fun hp => absurd hp Bool.false_ne_true, fun hb => absurd hb Bool.false_ne_true⟩

/-- Before `Run`, the delay is one second and a snapshot is due. -/
lemma reset_start (u : Uploader) (seq : ℤ) (spill : Encoding.Bytes) :
    Reset (u.start seq spill) :=
  ⟨fun hp => absurd hp Bool.false_ne_true, fun hb => absurd hb Bool.false_ne_true⟩

/-- **The delay after a failed batch of events is one second**, in every run. -/
theorem backoff_eq_one {u : Uploader} {seq : ℤ} {spill : Encoding.Bytes} {ls : List Label}
    {s : State} (hrun : run u.step (u.start seq spill) ls = some s) {evs : List InventoryEvent}
    (hpc : s.pc = .failed evs) : s.backoff = 1 := by
  have hreset : Reset s := invariant (P := fun _ _ => True) (fun h _ hstep => h.step hstep)
    (reset_start u seq spill) (along_of_forall_mem fun _ _ _ => trivial) hrun
  exact hreset.past (by simp [State.pastSnapshot, hpc])

/-! ## The runs in which the delay grows -/

/-- A delay of one second is enough for the first failure only. -/
lemma min_two_pow_le_one_iff (k : ℕ) : min (2 ^ k) 30 ≤ 1 ↔ k = 0 := by
  constructor
  · intro h
    by_contra hk
    have htwo : 2 ≤ 2 ^ k := Nat.le_self_pow hk 2
    omega
  · rintro rfl
    decide

/-- A failure is followed by the delay owed exactly when it is the first in a row. -/
lemma backsOff_failed {c : Counted} (hreset : Reset c.state)
    (hsends : c.state.sendsEvents = true) (evs : List InventoryEvent) :
    Counted.BacksOff ⟨{ c.state with pc := .failed evs }, c.failures + 1⟩ ↔ c.failures = 0 := by
  have hone : c.state.backoff = 1 := by
    refine hreset.past ?_
    unfold State.sendsEvents at hsends
    unfold State.pastSnapshot
    split at hsends
    next hpc => rw [hpc]; rfl
    next => cases hsends
  have howed : min (2 ^ (c.failures + 1 - 1)) 30 ≤ c.state.backoff ↔ c.failures = 0 := by
    rw [hone, Nat.add_sub_cancel, min_two_pow_le_one_iff]
  constructor
  · exact fun h => howed.mp (h evs rfl)
  · exact fun h _ _ => howed.mpr h

/-- Where no batch of events has just failed, nothing is owed. -/
lemma backsOff_of_pc {c : Counted} (h : ∀ evs, c.state.pc ≠ .failed evs) : c.BacksOff :=
  fun evs hpc => absurd hpc (h evs)

/-- **Steps other than the failure of a batch of events** add nothing to what is owed. -/
theorem backsOff_of_move {u : Uploader} {c : Counted} {s : State} {l : Label} (hc : c.BacksOff)
    (hmove : Move u c.state l s) (hl : l = .fail → c.state.sendsEvents = false) :
    Counted.BacksOff ⟨s, c.after l⟩ := by
  cases hmove with
  | enqueue ev =>
    intro evs hpc
    change (u.enqueue c.state ev).pc = .failed evs at hpc
    change min (2 ^ (c.failures - 1)) 30 ≤ (u.enqueue c.state ev).backoff
    rw [backoff_enqueue]
    exact hc evs ((u.sameRun_enqueue c.state ev).pc ▸ hpc)
  | take hpc =>
    refine backsOff_of_pc fun evs => ?_
    obtain ⟨s₁, rfl, ⟨-, htake⟩ | ⟨-, htake⟩⟩ := u.take_cases c.state
    · rw [htake]
      exact Pc.noConfusion
    · rw [htake]
      exact Pc.noConfusion
  | failEvents hpc =>
    have hsends : c.state.sendsEvents = true := by
      rw [State.sendsEvents, hpc]
    rw [hl rfl] at hsends
    cases hsends
  | snapshot evs hpc hneed => exact backsOff_of_pc fun _ => Pc.noConfusion
  | skip hpc hneed => exact backsOff_of_pc fun _ => Pc.noConfusion
  | snapshotDone hpc => exact backsOff_of_pc fun _ => Pc.noConfusion
  | sendPart hpc hne => exact backsOff_of_pc fun _ => Pc.noConfusion
  | requeue hpc => exact backsOff_of_pc fun _ => Pc.noConfusion
  | ackPart hpc => exact backsOff_of_pc fun _ => Pc.noConfusion
  | ackEvents hpc => exact backsOff_of_pc fun _ => Pc.noConfusion
  | failPart hpc => exact backsOff_of_pc fun _ => Pc.noConfusion
  | awake hpc => exact backsOff_of_pc fun _ => Pc.noConfusion
  | resume hpc => exact backsOff_of_pc fun _ => Pc.noConfusion
  | cancel hpc => exact backsOff_of_pc fun _ => Pc.noConfusion

/-- A batch of events that waits for its answer can fail. -/
lemma exists_step_fail (u : Uploader) {s : State} (h : s.sendsEvents = true) :
    ∃ evs, u.step s .fail = some { s with pc := .failed evs } := by
  unfold State.sendsEvents at h
  split at h
  next evs rest hpc => exact ⟨evs, by simp [step, hpc]⟩
  next => cases h

/-- **One step**: it leads to a state that owes no more than its delay exactly when it is calm. -/
theorem calm_iff_step (u : Uploader) {c : Counted} (l : Label) (hreset : Reset c.state)
    (hc : c.BacksOff) : Calm c l ↔ ∀ c', u.countedStep c l = some c' → c'.BacksOff := by
  by_cases hfail : l = .fail ∧ c.state.sendsEvents = true
  · obtain ⟨rfl, hsends⟩ := hfail
    obtain ⟨evs, hstep⟩ := exists_step_fail u hsends
    have hafter : u.countedStep c .fail =
        some ⟨{ c.state with pc := .failed evs }, c.failures + 1⟩ := by
      rw [countedStep, hstep, Option.map_some, Counted.after, if_pos hsends]
    have hexact := backsOff_failed hreset hsends evs
    constructor
    · intro hcalm c' hc'
      rw [hafter] at hc'
      obtain rfl := Option.some.inj hc'
      exact hexact.mpr (hcalm hsends)
    · exact fun h _ => hexact.mp (h _ hafter)
  · have hl : l = .fail → c.state.sendsEvents = false := fun hl =>
      Bool.eq_false_of_not_eq_true fun hsends => hfail ⟨hl, hsends⟩
    refine iff_of_true ?_ fun c' hc' => ?_
    · cases l with
      | fail => exact fun hsends => absurd ⟨rfl, hsends⟩ hfail
      | _ => trivial
    · obtain ⟨s, hs, rfl⟩ := Option.map_eq_some_iff.mp hc'
      exact backsOff_of_move hc (move_of_step hs) hl

/-- **`Run` backs off exactly in calm runs**: the delay after each failed batch of events is as long
as the number of failures in a row asks for in all states of a run, exactly when no batch of events
fails again before one has been acknowledged.

**Proof sketch.** Past the snapshot the delay is always one second (`Reset.step`), and a batch of
events is only sent there. So a failure leaves a state with the delay it owes exactly when it is the
first in a row (`calm_iff_step`), and no other step adds to what is owed. -/
theorem backsOff_iff_calm (u : Uploader) (seq : ℤ) (spill : Encoding.Bytes) (ls : List Label) :
    (∀ pre, pre <+: ls → ∀ c, run u.countedStep ⟨u.start seq spill, 0⟩ pre = some c →
      c.BacksOff) ↔ Along u.countedStep Calm ⟨u.start seq spill, 0⟩ ls := by
  rw [← throughout_iff]
  refine throughout_iff_along (I := fun c => Reset c.state) (fun {c c' l} hc hstep => ?_)
    (fun l hc hQ => calm_iff_step u l hc hQ) (reset_start u seq spill) (fun evs hpc => ?_) ls
  · obtain ⟨s', hs', rfl⟩ := Option.map_eq_some_iff.mp hstep
    exact hc.step hs'
  · cases hpc

/-! ## Two failures in a row -/

/-- A batch fails, an empty snapshot goes out, and the batch fails again. -/
def failTwice : List Label :=
  [.enqueue (podEvent "web" "update" 2), .snapshot [], .next, .next, .fail, .next, .wake,
    .snapshot [], .next, .next, .fail]

/-- **The second failure in a row is followed by a delay of one second**, where two are owed. -/
theorem second_failure_waits_one_second :
    ∃ c, run smallUploader.countedStep ⟨smallUploader.start 0 [], 0⟩ failTwice = some c ∧
      c.failures = 2 ∧ c.state.backoff = 1 ∧ ¬ c.BacksOff := by
  obtain ⟨c, hc, hview⟩ := Option.map_eq_some_iff.mp (show
    Option.map (fun c : Counted => (c.failures, c.state.backoff, c.state.pc))
      (run smallUploader.countedStep ⟨smallUploader.start 0 [], 0⟩ failTwice) =
        some (2, 1, .failed [podEvent "web" "update" 2]) by decide +kernel)
  obtain ⟨hfailures, hbackoff, hpc⟩ : c.failures = 2 ∧ c.state.backoff = 1 ∧
      c.state.pc = .failed [podEvent "web" "update" 2] := by
    simpa only [Prod.mk.injEq] using hview
  refine ⟨c, hc, hfailures, hbackoff, fun h => ?_⟩
  have howed := h _ hpc
  rw [hfailures, hbackoff] at howed
  revert howed
  decide

end K8sAgent.Uploader
