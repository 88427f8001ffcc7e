import K8sAgent.Uploader.Conservation

set_option relaxedAutoImplicit false
set_option autoImplicit false

/-!
# What is left to send

Two lines of events lead out of the uploader: the events enqueued, of which those acknowledged have
gone, and, while a snapshot is being sent, the rest of it. What the server is sent is the front of
one of them.

## Main definitions

* `K8sAgent.Uploader.State.queue` — the events enqueued that are not acknowledged.
* `K8sAgent.Uploader.State.syncing` — the events of a snapshot that are not acknowledged.
* `K8sAgent.Uploader.State.outgoing` — the batch whose answer is awaited.

## Main results

* `K8sAgent.Uploader.Readable.answered` — an answer is one to the front of one of the two lines.
* `K8sAgent.Uploader.Readable.unanswered` — a step without an answer leaves both as they are.
-/

namespace K8sAgent.Uploader

/-- The events enqueued and not acknowledged, in the order in which they are sent if no other is
enqueued. -/
def State.queue (s : State) : List InventoryEvent := s.inFlight ++ s.buf ++ s.spilled

/-- The events of a snapshot that are not acknowledged. -/
def State.syncing (s : State) : List InventoryEvent :=
  match s.pc with
  | .snapshot rest => rest
  | .sending batch true rest => batch ++ rest
  | _ => []

/-- The batch whose answer is awaited. -/
def State.outgoing (s : State) : List InventoryEvent :=
  match s.pc with
  | .sending batch _ _ => batch
  | _ => []

/-- What an answer to the outgoing batch does to the two lines. -/
inductive Answered (s s' : State) : Label → Prop where
  /-- A part of a snapshot is acknowledged. -/
  | ackPart (hqueue : s'.queue = s.queue) (hsync : s.syncing = s.outgoing ++ s'.syncing) :
      Answered s s' .ack
  /-- A batch of events is acknowledged. -/
  | ackEvents (hqueue : s.queue = s.outgoing ++ s'.queue) (hsync : s'.syncing = []) :
      Answered s s' .ack
  /-- A part of a snapshot fails, and the snapshot is given up. -/
  | failPart (hqueue : s'.queue = s.queue) (hout : s.outgoing <+: s.syncing)
      (hsync : s'.syncing = []) : Answered s s' .fail
  /-- A batch of events fails. -/
  | failEvents (hqueue : s'.queue = s.queue) (hout : s.outgoing <+: s.queue)
      (hsync : s'.syncing = []) : Answered s s' .fail

section Lemmas

variable {u : Uploader} {s s' : State}

lemma pipeline_eq (s : State) : s.pipeline = s.acked ++ s.queue := by
  simp [State.pipeline, State.queue]

/-- A step that acknowledges no event leaves the queue as it is. -/
lemma Carries.queue_eq (h : Carries u s s') (hacked : s'.acked = s.acked) :
    s'.queue = s.queue := by
  have hpipe := h.pipeline
  rw [pipeline_eq, pipeline_eq, hacked] at hpipe
  exact List.append_cancel_left hpipe

/-- **An answer is one to the front of one of the two lines.** -/
theorem Readable.answered (h : Readable u s) {l : Label} (hl : l = .ack ∨ l = .fail)
    (hstep : u.step s l = some s') : Readable u s' ∧ Answered s s' l := by
  have hne : ∀ ev, l ≠ .enqueue ev := by
    rcases hl with rfl | rfl <;> exact fun _ => Label.noConfusion
  have hcarries := h.step hne hstep
  refine ⟨hcarries.readable, ?_⟩
  cases move_of_step hstep with
  | ackPart hpc =>
    exact .ackPart (hcarries.queue_eq rfl) (by simp [State.syncing, State.outgoing, hpc])
  | ackEvents hpc =>
    refine .ackEvents ?_ rfl
    simp [State.queue, State.inFlight, State.outgoing, hpc]
  | failPart hpc =>
    refine .failPart (hcarries.queue_eq rfl) ?_ rfl
    simp [State.syncing, State.outgoing, hpc]
  | failEvents hpc =>
    refine .failEvents (hcarries.queue_eq rfl) ?_ rfl
    simp [State.queue, State.inFlight, State.outgoing, hpc]
  | _ => rcases hl with hl | hl <;> cases hl

/-- **A step of `Run` without an answer** leaves both lines as they are. -/
theorem Readable.unanswered (h : Readable u s) {l : Label}
    (hl : l = .next ∨ l = .wake ∨ l = .cancel) (hstep : u.step s l = some s') :
    Readable u s' ∧ s'.queue = s.queue ∧ s'.syncing = s.syncing := by
  have hne : ∀ ev, l ≠ .enqueue ev := by
    rcases hl with rfl | rfl | rfl <;> exact fun _ => Label.noConfusion
  have hcarries := h.step hne hstep
  refine ⟨hcarries.readable, ?_⟩
  cases move_of_step hstep with
  | skip hpc | snapshotDone hpc | requeue hpc | awake hpc | resume hpc =>
    exact ⟨hcarries.queue_eq rfl, by simp [State.syncing, requeueFront, hpc]⟩
  | sendPart hpc hne =>
    refine ⟨hcarries.queue_eq rfl, ?_⟩
    simp [State.syncing, sendBatch, hpc, batch_append_rest]
  | take hpc =>
    obtain ⟨s₁, hs₁, htake⟩ := take_cases u s
    have hacked := (recorded_refill u s).2
    rw [hs₁] at hacked
    obtain ⟨-, htake⟩ | ⟨-, htake⟩ := htake
    · rw [htake] at hcarries ⊢
      exact ⟨hcarries.queue_eq hacked, by simp [State.syncing, hpc]⟩
    · rw [htake] at hcarries ⊢
      exact ⟨hcarries.queue_eq hacked, by simp [State.syncing, sendBatch, hpc]⟩
  | cancel hpc =>
    refine ⟨hcarries.queue_eq rfl, ?_⟩
    rcases hpc with hpc | hpc | hpc <;> simp [State.syncing, hpc]
  | _ => rcases hl with hl | hl | hl <;> cases hl

/-- When the snapshot `evs` is handed over, the spill file can be read back as before, and the queue
is unchanged. -/
lemma Readable.handed (h : Readable u s) {evs : List InventoryEvent}
    (hstep : u.step s (.snapshot evs) = some s') :
    Readable u s' ∧ s'.queue = s.queue ∧ s'.syncing = evs := by
  have hcarries := h.step (fun _ => Label.noConfusion) hstep
  refine ⟨hcarries.readable, ?_⟩
  cases move_of_step hstep with
  | snapshot _ hpc hneed => exact ⟨hcarries.queue_eq rfl, rfl⟩

/-- An event is enqueued: the queue has it before the spilled events, or after them. -/
lemma queue_enqueue (u : Uploader) (s : State) (ev : InventoryEvent) :
    (u.enqueue s ev).queue = if s.buf.length < u.capacity then
      s.inFlight ++ s.buf ++ ev :: s.spilled else s.queue ++ [ev] := by
  unfold enqueue
  split_ifs
  · simp [State.queue, State.inFlight]
  · simp [State.queue, State.inFlight]

lemma syncing_enqueue (u : Uploader) (s : State) (ev : InventoryEvent) :
    (u.enqueue s ev).syncing = s.syncing := by
  simp only [State.syncing, (sameRun_enqueue u s ev).pc]

end Lemmas

end K8sAgent.Uploader
