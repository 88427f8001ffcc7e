import K8sAgent.Uploader.Run

set_option relaxedAutoImplicit false
set_option autoImplicit false

/-!
# The size of the buffer

The buffer is meant to hold as many events as its capacity says, and a batch more when one has
failed and been put back. Enqueueing respects the capacity. Replaying the spill file does not look
at it: the buffer takes in whatever the file holds, and the file grows for as long as the server
does not answer.

## Main definitions

* `K8sAgent.Uploader.State.Bounded` — the buffer is within capacity and one batch.
* `K8sAgent.Uploader.Moderate` — a step that does not replay a file with more events than that.

## Main results

* `K8sAgent.Uploader.Roomy.step` — moderate steps keep the bound.
* `K8sAgent.Uploader.bounded_of_moderate` — the buffer is bounded in every moderate run.
-/

namespace K8sAgent.Uploader

open Transition

/-- **The buffer is bounded**: it exceeds the capacity by a batch at most. -/
def State.Bounded (u : Uploader) (s : State) : Prop := s.buf.length ≤ u.capacity + batchSize

/-- If the spill file is replayed, it holds no more events than the buffer may. -/
def Moderate (u : Uploader) (s : State) : Label → Prop
  | .next => s.pc = .taking → s.buf = [] →
      (u.codec.replayed s.spill).length ≤ u.capacity + batchSize
  | _ => True

instance (u : Uploader) (s : State) (l : Label) : Decidable (u.Moderate s l) :=
  match l with
  | .next => inferInstanceAs (Decidable (s.pc = .taking → _))
  | .enqueue _ | .snapshot _ | .ack | .fail | .wake | .cancel => isTrue trivial

/-! ## The invariant -/

/-- The buffer has room for the batch in flight, which is one batch at most. -/
structure Roomy (u : Uploader) (s : State) : Prop where
  /-- The batch in flight is a batch. -/
  flight : s.inFlight.length ≤ batchSize
  /-- The batch in flight can be put back in front of the buffer. -/
  total : s.inFlight.length + s.buf.length ≤ u.capacity + batchSize

section Lemmas

variable {u : Uploader} {s s' : State}

/-- A step that changes neither the buffer nor the batch in flight keeps the bound. -/
lemma Roomy.of_eq (h : Roomy u s) (hflight : s'.inFlight = s.inFlight) (hbuf : s'.buf = s.buf) :
    Roomy u s' := by
  refine ⟨?_, ?_⟩
  · rw [hflight]
    exact h.flight
  · rw [hflight, hbuf]
    exact h.total

/-- Enqueueing keeps room for the batch in flight, as it looks at the capacity. -/
lemma Roomy.enqueue (h : Roomy u s) (ev : InventoryEvent) : Roomy u (u.enqueue s ev) := by
  have hflight := h.flight
  unfold Uploader.enqueue
  split_ifs with hroom
  · refine ⟨hflight, ?_⟩
    change s.inFlight.length + (s.buf ++ [ev]).length ≤ u.capacity + batchSize
    rw [List.length_append, List.length_singleton]
    omega
  · exact h.of_eq rfl rfl

/-- **A batch is taken.** The buffer it is cut off is the old one, or what the file held. -/
theorem Roomy.take (h : Roomy u s) (hpc : s.pc = .taking) (hmod : u.Moderate s .next) :
    Roomy u (u.take s) := by
  obtain ⟨s₁, hs₁, htake⟩ := take_cases u s
  have hbuf : s₁.buf.length ≤ u.capacity + batchSize := by
    obtain heq | ⟨hnil, heq⟩ := refill_cases u s
    · have htotal := h.total
      rw [← hs₁, heq]
      omega
    · rw [← hs₁, heq]
      exact hmod hpc hnil
  obtain ⟨-, htake⟩ | ⟨-, htake⟩ := htake
  · rw [htake]
    refine ⟨Nat.zero_le _, ?_⟩
    change 0 + s₁.buf.length ≤ u.capacity + batchSize
    omega
  · rw [htake]
    refine ⟨length_batch_le u _, ?_⟩
    change (u.batch s₁.buf).length + (u.rest s₁.buf).length ≤ u.capacity + batchSize
    rw [← List.length_append, batch_append_rest]
    exact hbuf

/-- **Moderate steps keep room** for the batch in flight. -/
theorem Roomy.step (h : Roomy u s) {l : Label} (hmod : u.Moderate s l)
    (hstep : u.step s l = some s') : Roomy u s' := by
  have htotal := h.total
  cases move_of_step hstep with
  | enqueue ev => exact h.enqueue ev
  | take hp => exact h.take hp hmod
  | requeue hp =>
    rename_i evs
    have hflight : s.inFlight = evs := by simp [State.inFlight, hp]
    rw [hflight] at htotal
    refine ⟨Nat.zero_le _, ?_⟩
    change 0 + (evs ++ s.buf).length ≤ u.capacity + batchSize
    rw [List.length_append]
    omega
  | ackEvents hp =>
    refine ⟨Nat.zero_le _, ?_⟩
    change 0 + s.buf.length ≤ u.capacity + batchSize
    omega
  | snapshot evs hp => exact h.of_eq (by simp [State.inFlight, hp]) rfl
  | skip hp => exact h.of_eq (by simp [State.inFlight, hp]) rfl
  | snapshotDone hp => exact h.of_eq (by simp [State.inFlight, hp]) rfl
  | sendPart hp hne => exact h.of_eq (by simp [State.inFlight, sendBatch, hp]) rfl
  | ackPart hp => exact h.of_eq (by simp [State.inFlight, hp]) rfl
  | failPart hp => exact h.of_eq (by simp [State.inFlight, hp]) rfl
  | failEvents hp => exact h.of_eq (by simp [State.inFlight, hp]) rfl
  | awake hp => exact h.of_eq (by simp [State.inFlight, hp]) rfl
  | resume hp => exact h.of_eq (by simp [State.inFlight, hp]) rfl
  | cancel hp =>
    rcases hp with hp | hp | hp <;> exact h.of_eq (by simp [State.inFlight, hp]) rfl

/-- Before `Run`, nothing is in flight and the buffer is empty. -/
lemma roomy_start (seq : ℤ) (spill : Encoding.Bytes) : Roomy u (u.start seq spill) :=
  ⟨Nat.zero_le _, Nat.zero_le _⟩

end Lemmas

/-- **The buffer is bounded in moderate runs.** Whatever the interleaving of `Enqueue` with the
steps of `Run`, however many sends fail and whatever the spill file holds at the start, the buffer
exceeds its capacity by a batch at most, in every run in which no file with more events than that
is replayed.

**Proof sketch.** Buffer and batch in flight together stay within the bound: enqueueing adds to the
buffer below its capacity only, a batch that is taken moves from one to the other and back, and a
replayed file comes into an empty buffer. -/
theorem bounded_of_moderate (u : Uploader) (seq : ℤ) (spill : Encoding.Bytes) (ls : List Label)
    (s : State) (hrun : run u.step (u.start seq spill) ls = some s)
    (hmod : Along u.step u.Moderate (u.start seq spill) ls) : s.Bounded u := by
  have hinv : Roomy u s :=
    invariant (fun h hP hstep => h.step hP hstep) (roomy_start seq spill) hmod hrun
  have htotal := hinv.total
  unfold State.Bounded
  omega

/-! ## An outage -/

/-- One change is buffered and `n` more are spilled; then the server answers again, the first one is
acknowledged, and the next batch is taken. -/
def outage (n : ℕ) : List Label :=
  .enqueue (podEvent "web" "update" 2) :: List.replicate n (.enqueue (podEvent "web" "update" 2)) ++
    [.snapshot [], .next, .next, .ack, .next, .next]

/-- Three changes are replayed, and the buffer is within its bound. -/
theorem bounded_short_outage :
    ∃ s, run smallUploader.step (smallUploader.start 0 []) (outage 3) = some s ∧
      s.inFlight.length = 3 ∧ s.Bounded smallUploader := by
  obtain ⟨s, hs, hlen⟩ := Option.map_eq_some_iff.mp (show Option.map (·.inFlight.length)
    (run smallUploader.step (smallUploader.start 0 []) (outage 3)) = some 3 by decide +kernel)
  exact ⟨s, hs, hlen, bounded_of_moderate smallUploader 0 [] _ s hs (by decide +kernel)⟩

/-- Events that come while the buffer is full are spilled. -/
lemma run_enqueue_full {u : Uploader} {s : State} (hfull : u.capacity ≤ s.buf.length)
    (ev : InventoryEvent) (n : ℕ) (ls : List Label) :
    run u.step s (List.replicate n (.enqueue ev) ++ ls) = run u.step { s with
      spill := s.spill ++ u.codec.file (List.replicate n ev)
      spilled := s.spilled ++ List.replicate n ev
      enqueued := s.enqueued ++ List.replicate n ev } ls := by
  induction n generalizing s with
  | zero => simp [EventCodec.file]
  | succ n ih =>
    have hspill : u.step s (.enqueue ev) = some { s with
        spill := s.spill ++ u.codec.line ev
        spilled := s.spilled ++ [ev]
        enqueued := s.enqueued ++ [ev] } := by
      rw [step, Uploader.enqueue, if_neg (by omega)]
    have hfile : u.codec.file (ev :: List.replicate n ev) =
        u.codec.line ev ++ u.codec.file (List.replicate n ev) := rfl
    rw [List.replicate_succ, List.replicate_succ, hfile, List.cons_append, run, hspill,
      Option.bind_some]
    refine (ih ?_).trans ?_
    · exact hfull
    · simp only [List.append_assoc, List.singleton_append]

/-- After an outage the buffer holds all that was spilled, but for one batch. -/
lemma run_outage {n : ℕ} (hn : 0 < n) :
    ∃ s, run smallUploader.step (smallUploader.start 0 []) (outage n) = some s ∧
      s.buf = smallUploader.rest (List.replicate n (podEvent "web" "update" 2)) := by
  set evs := List.replicate n (podEvent "web" "update" 2) with hevs
  have hfits : ∀ ev ∈ evs, smallUploader.codec.Fits ev := by
    intro ev hev
    rw [List.eq_of_mem_replicate hev]
    decide +kernel
  -- up to the second batch the file is only written to
  have hbefore : ∃ s, run smallUploader.step (smallUploader.start 0 []) (outage n) =
      some (smallUploader.take s) ∧ s.buf = [] ∧ s.spill = smallUploader.codec.file evs := by
    rw [outage, List.cons_append, run]
    change ∃ s,
      run smallUploader.step (smallUploader.enqueue (smallUploader.start 0 []) _) _ = _ ∧ _
    rw [run_enqueue_full (by exact Nat.le_refl 1)]
    exact ⟨_, rfl, rfl, rfl⟩
  obtain ⟨s, hrun, hbuf, hspill⟩ := hbefore
  have hne : evs ≠ [] := by
    intro hnil
    rw [hevs, List.replicate_eq_nil_iff] at hnil
    omega
  have hrefill : (smallUploader.refill s).buf = evs := by
    unfold refill replaySpill
    rw [if_pos hbuf, hspill, EventCodec.replayed_file hfits]
    cases hcons : evs with
    | nil => exact absurd hcons hne
    | cons ev rest => simp [hbuf]
  refine ⟨_, hrun, ?_⟩
  obtain ⟨s₁, rfl, ⟨hnil, -⟩ | ⟨-, htake⟩⟩ := take_cases smallUploader s
  · exact absurd (hrefill.symm.trans hnil) hne
  · rw [htake, ← hrefill]
    rfl

/-- Four hundred and two changes are replayed into a buffer for one. -/
theorem buffer_outgrows_capacity :
    ∃ s, run smallUploader.step (smallUploader.start 0 []) (outage 402) = some s ∧
      ¬s.Bounded smallUploader := by
  obtain ⟨s, hs, hbuf⟩ := run_outage (show 0 < 402 by decide)
  refine ⟨s, hs, fun hbound => ?_⟩
  unfold State.Bounded at hbound
  rw [hbuf] at hbound
  revert hbound
  decide +kernel

end K8sAgent.Uploader
