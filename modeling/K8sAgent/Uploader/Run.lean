import K8sAgent.Lib.Transition
import K8sAgent.Uploader.Spill

set_option relaxedAutoImplicit false
set_option autoImplicit false

/-!
# The uploader

`internal/uploader/uploader.go`: events are buffered, spilled to a file when the buffer is full, and
sent in batches that are retried until they are acknowledged; after a failure the full snapshot is
sent again before the events. `Enqueue` may be called at any time by others; the steps of `Run` are
those between which the mutex is free.

The state keeps, besides what the source keeps, a record of the run: the events enqueued, the
batches sent, the events of acknowledged batches, and the events the spill file holds.

## Main definitions

* `K8sAgent.batchLen` — how many events go into a batch.
* `K8sAgent.Uploader`, `K8sAgent.Uploader.State`, `K8sAgent.Uploader.Pc` — the fixed part, the
  state, and where `Run` is.
* `K8sAgent.Uploader.take`, `enqueue`, `step` — the steps.
* `K8sAgent.Uploader.enqueues`, `K8sAgent.Uploader.acknowledged` — the events that the labels of a
  run enqueue, and those of the batches that it acknowledges.

## Main results

* `K8sAgent.batchLen_append` — a batch that is closed is cut again the same, whatever has been
  appended.
* `K8sAgent.Uploader.move_of_step` — what a step can be.
* `K8sAgent.Uploader.enqueued_of_run`, `K8sAgent.Uploader.acked_of_run` — the record of the run is
  what its labels enqueue, and what it acknowledges.
-/

namespace K8sAgent

/-! ## Batches -/

/-- The number of events in a batch at most. -/
def batchSize : ℕ := 200
/-- The estimated size of a batch at most, in bytes. -/
def defaultMaxBatchBytes : ℕ := 512 * 2 ^ 10
/-- The estimated size of the fields of an event other than the object. -/
def eventOverhead : ℕ := 256

/-- The estimated size of an event. -/
def eventSize (ev : InventoryEvent) : ℕ := ev.objectJSON.length + eventOverhead

/-- How many of the events, at most `n`, can be added to a batch of size `bytes`. -/
def fitting (maxBytes : ℕ) : ℕ → ℕ → List InventoryEvent → ℕ
  | 0, _, _ => 0
  | _ + 1, _, [] => 0
  | n + 1, bytes, ev :: evs =>
    if bytes + eventSize ev ≤ maxBytes then fitting maxBytes n (bytes + eventSize ev) evs + 1 else 0

/-- How many leading events fit in one batch: at most `maxEvents`, closing before the first that
would push the size past `maxBytes`, but one at least. The source is never called on no events. -/
def batchLen (maxEvents maxBytes : ℕ) : List InventoryEvent → ℕ
  | [] => 0
  | ev :: evs => fitting maxBytes (maxEvents - 1) (eventSize ev) evs + 1

section Batches

variable {maxEvents maxBytes : ℕ}

lemma fitting_le (maxBytes n bytes : ℕ) (evs : List InventoryEvent) :
    fitting maxBytes n bytes evs ≤ n ∧ fitting maxBytes n bytes evs ≤ evs.length := by
  induction n generalizing bytes evs with
  | zero => simp [fitting]
  | succ n ih =>
    cases evs with
    | nil => simp [fitting]
    | cons ev evs =>
      rw [fitting, List.length_cons]
      have := ih (bytes + eventSize ev) evs
      split_ifs <;> omega

/-- The events that fit still fit when they are all there is. -/
lemma fitting_take (n bytes : ℕ) (evs : List InventoryEvent) :
    fitting maxBytes n bytes (evs.take (fitting maxBytes n bytes evs)) =
      fitting maxBytes n bytes evs := by
  induction n generalizing bytes evs with
  | zero => simp [fitting]
  | succ n ih =>
    cases evs with
    | nil => simp [fitting]
    | cons ev evs =>
      by_cases hfit : bytes + eventSize ev ≤ maxBytes
      · simp [fitting, hfit, ih]
      · simp [fitting, hfit]

/-- Appended events are added where the former ones leave room for them. -/
lemma fitting_append (evs rest : List InventoryEvent) :
    ∀ (n bytes : ℕ), fitting maxBytes n bytes evs = evs.length →
      fitting maxBytes n bytes (evs ++ rest) = evs.length +
        fitting maxBytes (n - evs.length) (bytes + (evs.map eventSize).sum) rest := by
  induction evs with
  | nil => simp
  | cons ev evs ih =>
    intro n bytes hall
    cases n with
    | zero => simp [fitting] at hall
    | succ n =>
      rw [fitting, List.length_cons] at hall
      split_ifs at hall with hfit
      · rw [List.cons_append, fitting, if_pos hfit, ih n _ (by omega), List.length_cons,
          List.map_cons, List.sum_cons, Nat.add_sub_add_right]
        rw [Nat.add_assoc bytes]
        omega

/-- A batch has one event at least, where there are events. -/
lemma batchLen_pos (maxEvents maxBytes : ℕ) {evs : List InventoryEvent} (hne : evs ≠ []) :
    0 < batchLen maxEvents maxBytes evs := by
  cases evs with
  | nil => exact absurd rfl hne
  | cons ev evs => simp [batchLen]

/-- The events of a batch, cut once more, make one batch. -/
lemma batchLen_take (evs : List InventoryEvent) :
    batchLen maxEvents maxBytes (evs.take (batchLen maxEvents maxBytes evs)) =
      (evs.take (batchLen maxEvents maxBytes evs)).length := by
  cases evs with
  | nil => rfl
  | cons ev evs =>
    have hle := (fitting_le maxBytes (maxEvents - 1) (eventSize ev) evs).2
    simp only [batchLen, List.take_succ_cons, fitting_take, List.length_cons, List.length_take]
    omega

/-- **A closed batch is cut again the same**, whatever has been appended: one with as many events as
go into a batch, or with no room for the event that follows. -/
theorem batchLen_append {evs rest : List InventoryEvent} (hne : evs ≠ [])
    (hwhole : batchLen maxEvents maxBytes evs = evs.length)
    (hclosed : ∀ ev ∈ rest.head?, maxEvents ≤ evs.length ∨
      maxBytes < (evs.map eventSize).sum + eventSize ev) :
    batchLen maxEvents maxBytes (evs ++ rest) = evs.length := by
  obtain ⟨first, evs, rfl⟩ := List.exists_cons_of_ne_nil hne
  simp only [batchLen, List.length_cons] at hwhole
  rw [List.cons_append, batchLen, fitting_append evs rest _ _ (by omega), List.length_cons]
  have hnone : fitting maxBytes (maxEvents - 1 - evs.length)
      (eventSize first + (evs.map eventSize).sum) rest = 0 := by
    cases hn : maxEvents - 1 - evs.length with
    | zero => rfl
    | succ n =>
      cases rest with
      | nil => rfl
      | cons ev rest =>
        rw [fitting, if_neg]
        have := hclosed ev rfl
        simp only [List.length_cons, List.map_cons, List.sum_cons] at this
        omega
  omega

end Batches

/-! ## State -/

/-- The fixed part of an uploader. -/
structure Uploader where
  /-- Cluster named in batches. -/
  clusterID : String := ""
  /-- Capacity of the buffer. -/
  capacity : ℕ := 10000
  /-- Size budget of a batch. -/
  maxBatchBytes : ℕ := defaultMaxBatchBytes
  /-- JSON. -/
  codec : EventCodec

namespace Uploader

/-- Where `Run` is. -/
inductive Pc : Type where
  /-- At the head of the loop. -/
  | top
  /-- In `sendSnapshot`, with the events not yet sent. -/
  | snapshot (rest : List InventoryEvent)
  /-- About to take a batch. -/
  | taking
  /-- Waiting for the answer to a batch; for a part of a snapshot, with the events after it. -/
  | sending (batch : List InventoryEvent) (full : Bool) (rest : List InventoryEvent)
  /-- A batch of events has failed and is to be put back. -/
  | failed (batch : List InventoryEvent)
  /-- Backing off. -/
  | sleeping
  /-- Waiting for events. -/
  | idle
  /-- Returned. -/
  | stopped
  deriving DecidableEq

/-- The state of an uploader with the record of its run. -/
structure State where
  /-- The buffer. -/
  buf : List InventoryEvent := []
  /-- The spill file. -/
  spill : Encoding.Bytes := []
  /-- The sequence number acknowledged last. -/
  seq : ℤ
  /-- Whether the full snapshot goes first. -/
  needSnapshot : Bool := true
  /-- The delay after the next failure, in seconds. -/
  backoff : ℕ := 1
  /-- Where `Run` is. -/
  pc : Pc := .top
  /-- Record: the events enqueued. -/
  enqueued : List InventoryEvent := []
  /-- Record: the events the spill file holds. -/
  spilled : List InventoryEvent := []
  /-- Record: the batches sent. -/
  attempts : List InventoryBatch := []
  /-- Record: the events of acknowledged batches that were not part of a snapshot. -/
  acked : List InventoryEvent := []

/-- What can happen next. -/
inductive Label : Type where
  /-- Another goroutine enqueues an event. -/
  | enqueue (ev : InventoryEvent)
  /-- `Run` asks for the snapshot. -/
  | snapshot (evs : List InventoryEvent)
  /-- `Run` goes on. -/
  | next
  /-- The batch is acknowledged. -/
  | ack
  /-- Sending the batch fails. -/
  | fail
  /-- A timer or a notification ends a wait. -/
  | wake
  /-- `Run` finds the context done. -/
  | cancel

/-- The events of a batch cut off a list. -/
def batch (u : Uploader) (evs : List InventoryEvent) : List InventoryEvent :=
  evs.take (batchLen batchSize u.maxBatchBytes evs)

/-- The events after that batch. -/
def rest (u : Uploader) (evs : List InventoryEvent) : List InventoryEvent :=
  evs.drop (batchLen batchSize u.maxBatchBytes evs)

/-- `Enqueue`. -/
def enqueue (u : Uploader) (s : State) (ev : InventoryEvent) : State :=
  if s.buf.length < u.capacity then
    { s with buf := s.buf ++ [ev], enqueued := s.enqueued ++ [ev] }
  else
    { s with
      spill := s.spill ++ u.codec.line ev
      spilled := s.spilled ++ [ev]
      enqueued := s.enqueued ++ [ev] }

/-- `replaySpillLocked`: the file is removed if an event has been read. -/
def replaySpill (u : Uploader) (s : State) : State :=
  match u.codec.replayed s.spill with
  | [] => s
  | evs => { s with buf := s.buf ++ evs, spill := [], spilled := [] }

/-- The buffer a batch is taken from. -/
def refill (u : Uploader) (s : State) : State := if s.buf = [] then u.replaySpill s else s

/-- Send a batch with the next sequence number. -/
def sendBatch (u : Uploader) (s : State) (evs : List InventoryEvent) (full : Bool)
    (rest : List InventoryEvent) : State :=
  { s with
    attempts := s.attempts ++
      [{ clusterID := u.clusterID, seq := s.seq + 1, full := full, events := evs }]
    pc := .sending evs full rest }

/-- `take`, and what `Run` does with the batch. -/
def take (u : Uploader) (s : State) : State :=
  let s := u.refill s
  if s.buf = [] then { s with pc := .idle }
  else u.sendBatch { s with buf := u.rest s.buf } (u.batch s.buf) false []

/-- `requeueFront`, and what `Run` does around it. -/
def requeueFront (s : State) (evs : List InventoryEvent) : State :=
  { s with buf := evs ++ s.buf, needSnapshot := true, pc := .sleeping }

/-- Go on inside `Run`. -/
def next (u : Uploader) (s : State) : Option State :=
  match s.pc with
  | .top => if s.needSnapshot then none else some { s with pc := .taking }
  | .snapshot [] => some { s with needSnapshot := false, backoff := 1, pc := .taking }
  | .snapshot (ev :: evs) => some (u.sendBatch s (u.batch (ev :: evs)) true (u.rest (ev :: evs)))
  | .taking => some (u.take s)
  | .failed evs => some (requeueFront s evs)
  | _ => none

/-- One step; `none` where it is not possible. -/
def step (u : Uploader) (s : State) : Label → Option State
  | .enqueue ev => some (u.enqueue s ev)
  | .snapshot evs => match s.pc with
    | .top => if s.needSnapshot then some { s with pc := .snapshot evs } else none
    | _ => none
  | .next => u.next s
  | .ack => match s.pc with
    | .sending _ true rest => some { s with seq := s.seq + 1, pc := .snapshot rest }
    | .sending evs false _ =>
      some { s with seq := s.seq + 1, backoff := 1, acked := s.acked ++ evs, pc := .top }
    | _ => none
  | .fail => match s.pc with
    | .sending _ true _ => some { s with pc := .sleeping }
    | .sending evs false _ => some { s with pc := .failed evs }
    | _ => none
  | .wake => match s.pc with
    | .sleeping => some { s with backoff := min (s.backoff * 2) 30, pc := .top }
    | .idle => some { s with pc := .top }
    | _ => none
  | .cancel => match s.pc with
    | .top | .sleeping | .idle => some { s with pc := .stopped }
    | _ => none

/-- The state before `Run`, with the sequence number read from disk and no spill file. -/
def init (seq : ℤ) : State := { seq := seq }

/-- The state before `Run` on a directory in which there is a spill file. -/
def start (u : Uploader) (seq : ℤ) (spill : Encoding.Bytes) : State :=
  { seq := seq, spill := spill, spilled := u.codec.replayed spill }

/-- The events of the batch in flight: sent and not answered, or failed and not put back. -/
def State.inFlight (s : State) : List InventoryEvent :=
  match s.pc with
  | .sending evs false _ => evs
  | .failed evs => evs
  | _ => []

/-! ## What a step can be -/

/-- The steps, one by one. -/
inductive Move (u : Uploader) (s : State) : Label → State → Prop where
  /-- An event is enqueued. -/
  | enqueue (ev : InventoryEvent) : Move u s (.enqueue ev) (u.enqueue s ev)
  /-- The snapshot is asked for. -/
  | snapshot (evs : List InventoryEvent) (hpc : s.pc = .top) (hneed : s.needSnapshot = true) :
      Move u s (.snapshot evs) { s with pc := .snapshot evs }
  /-- No snapshot is needed. -/
  | skip (hpc : s.pc = .top) (hneed : s.needSnapshot = false) :
      Move u s .next { s with pc := .taking }
  /-- The snapshot has been sent. -/
  | snapshotDone (hpc : s.pc = .snapshot []) :
      Move u s .next { s with needSnapshot := false, backoff := 1, pc := .taking }
  /-- A part of the snapshot is sent. -/
  | sendPart {evs : List InventoryEvent} (hpc : s.pc = .snapshot evs) (hne : evs ≠ []) :
      Move u s .next (u.sendBatch s (u.batch evs) true (u.rest evs))
  /-- A batch is taken and sent, if there is one. -/
  | take (hpc : s.pc = .taking) : Move u s .next (u.take s)
  /-- A failed batch is put back. -/
  | requeue {evs : List InventoryEvent} (hpc : s.pc = .failed evs) :
      Move u s .next (requeueFront s evs)
  /-- A part of the snapshot is acknowledged. -/
  | ackPart {evs rest : List InventoryEvent} (hpc : s.pc = .sending evs true rest) :
      Move u s .ack { s with seq := s.seq + 1, pc := .snapshot rest }
  /-- A batch is acknowledged. -/
  | ackEvents {evs rest : List InventoryEvent} (hpc : s.pc = .sending evs false rest) :
      Move u s .ack { s with seq := s.seq + 1, backoff := 1, acked := s.acked ++ evs, pc := .top }
  /-- A part of the snapshot fails. -/
  | failPart {evs rest : List InventoryEvent} (hpc : s.pc = .sending evs true rest) :
      Move u s .fail { s with pc := .sleeping }
  /-- A batch fails. -/
  | failEvents {evs rest : List InventoryEvent} (hpc : s.pc = .sending evs false rest) :
      Move u s .fail { s with pc := .failed evs }
  /-- The back-off is over. -/
  | awake (hpc : s.pc = .sleeping) :
      Move u s .wake { s with backoff := min (s.backoff * 2) 30, pc := .top }
  /-- Waiting for events is over. -/
  | resume (hpc : s.pc = .idle) : Move u s .wake { s with pc := .top }
  /-- `Run` returns. -/
  | cancel (hpc : s.pc = .top ∨ s.pc = .sleeping ∨ s.pc = .idle) :
      Move u s .cancel { s with pc := .stopped }

/-- **Inversion of a step** of the uploader: one of the moves of `Run`, or an event enqueued. -/
theorem move_of_step {u : Uploader} {s s' : State} {l : Label} (h : u.step s l = some s') :
    Move u s l s' := by
  cases l with
  | enqueue ev =>
    cases h
    exact .enqueue ev
  | snapshot evs =>
    simp only [step] at h
    split at h
    next hpc =>
      split_ifs at h with hneed
      cases h
      exact .snapshot evs hpc hneed
    next => cases h
  | next =>
    simp only [step, next] at h
    split at h
    next hpc =>
      split_ifs at h with hneed
      cases h
      exact .skip hpc (Bool.eq_false_of_not_eq_true hneed)
    next hpc =>
      cases h
      exact .snapshotDone hpc
    next ev evs hpc =>
      cases h
      exact .sendPart hpc (List.cons_ne_nil ev evs)
    next hpc =>
      cases h
      exact .take hpc
    next evs hpc =>
      cases h
      exact .requeue hpc
    next => cases h
  | ack =>
    simp only [step] at h
    split at h
    next hpc =>
      cases h
      exact .ackPart hpc
    next hpc =>
      cases h
      exact .ackEvents hpc
    next => cases h
  | fail =>
    simp only [step] at h
    split at h
    next hpc =>
      cases h
      exact .failPart hpc
    next hpc =>
      cases h
      exact .failEvents hpc
    next => cases h
  | wake =>
    simp only [step] at h
    split at h
    next hpc =>
      cases h
      exact .awake hpc
    next hpc =>
      cases h
      exact .resume hpc
    next => cases h
  | cancel =>
    simp only [step] at h
    split at h
    next hpc =>
      cases h
      exact .cancel (.inl hpc)
    next hpc =>
      cases h
      exact .cancel (.inr (.inl hpc))
    next hpc =>
      cases h
      exact .cancel (.inr (.inr hpc))
    next => cases h

/-! ## What enqueueing and refilling leave alone -/

/-- The two states agree on what only `Run` changes, and only after sending. -/
structure SameRun (s s' : State) : Prop where
  /-- The same number was acknowledged last. -/
  seq : s'.seq = s.seq
  /-- A snapshot is needed in both, or in neither. -/
  needSnapshot : s'.needSnapshot = s.needSnapshot
  /-- `Run` is at the same place. -/
  pc : s'.pc = s.pc
  /-- The same batches have been sent. -/
  attempts : s'.attempts = s.attempts

lemma sameRun_enqueue (u : Uploader) (s : State) (ev : InventoryEvent) :
    SameRun s (u.enqueue s ev) := by
  unfold enqueue
  split_ifs <;> exact ⟨rfl, rfl, rfl, rfl⟩

lemma sameRun_refill (u : Uploader) (s : State) : SameRun s (u.refill s) := by
  unfold refill replaySpill
  split_ifs
  · split <;> exact ⟨rfl, rfl, rfl, rfl⟩
  · exact ⟨rfl, rfl, rfl, rfl⟩

/-! ## What taking a batch does -/

/-- A batch and what comes after it are the events it was cut off. -/
lemma batch_append_rest (u : Uploader) (evs : List InventoryEvent) :
    u.batch evs ++ u.rest evs = evs := List.take_append_drop _ _

/-- A batch has at most as many events as go into one. -/
lemma length_batch_le (u : Uploader) (evs : List InventoryEvent) :
    (u.batch evs).length ≤ batchSize := by
  unfold batch
  rw [List.length_take]
  cases evs with
  | nil => exact Nat.zero_le _
  | cons ev evs =>
    have hle := (fitting_le u.maxBatchBytes (batchSize - 1) (eventSize ev) evs).1
    have hpos : 0 < batchSize := by decide
    rw [batchLen]
    omega

/-- Refilling replaces an empty buffer by what the spill file holds. -/
lemma refill_cases (u : Uploader) (s : State) : u.refill s = s ∨ (s.buf = [] ∧
    u.refill s = { s with buf := u.codec.replayed s.spill, spill := [], spilled := [] }) := by
  unfold refill replaySpill
  split_ifs with hbuf
  · split
    · exact .inl rfl
    · exact .inr ⟨hbuf, by rw [hbuf]; rfl⟩
  · exact .inl rfl

/-- A batch is taken off the refilled buffer, unless there is nothing in it. -/
lemma take_cases (u : Uploader) (s : State) : ∃ s₁, u.refill s = s₁ ∧
    ((s₁.buf = [] ∧ u.take s = { s₁ with pc := .idle }) ∨
    (s₁.buf ≠ [] ∧ u.take s =
      u.sendBatch { s₁ with buf := u.rest s₁.buf } (u.batch s₁.buf) false [])) := by
  refine ⟨_, rfl, ?_⟩
  unfold take
  generalize u.refill s = s₁
  dsimp only
  split_ifs with hbuf
  · exact .inl ⟨hbuf, rfl⟩
  · exact .inr ⟨hbuf, rfl⟩

/-! ## What a run enqueues and acknowledges -/

/-- The event that a label enqueues, if it is a call of `Enqueue`. -/
def Label.enqueued : Label → List InventoryEvent
  | .enqueue ev => [ev]
  | _ => []

/-- The events that the labels enqueue, in order. -/
def enqueues (ls : List Label) : List InventoryEvent := ls.flatMap Label.enqueued

/-- The events that a step acknowledges: where an answer comes to a batch that is not a part of a
snapshot, those of the batch. -/
def acks (s : State) : Label → List InventoryEvent
  | .ack => s.inFlight
  | _ => []

/-- The events of the batches, parts of snapshots apart, that a run acknowledges, in order. -/
def acknowledged (u : Uploader) (s : State) (ls : List Label) : List InventoryEvent :=
  Transition.gather u.step acks s ls

/-- Refilling the buffer enqueues and acknowledges nothing. -/
lemma recorded_refill (u : Uploader) (s : State) :
    (u.refill s).enqueued = s.enqueued ∧ (u.refill s).acked = s.acked := by
  rcases refill_cases u s with h | ⟨-, h⟩ <;> rw [h] <;> exact ⟨rfl, rfl⟩

/-- Taking a batch enqueues and acknowledges nothing. -/
lemma recorded_take (u : Uploader) (s : State) :
    (u.take s).enqueued = s.enqueued ∧ (u.take s).acked = s.acked := by
  obtain ⟨s₁, rfl, ⟨-, h⟩ | ⟨-, h⟩⟩ := take_cases u s <;> rw [h] <;> exact recorded_refill u s

/-- **What a step adds to the record**: the event its label enqueues, and the events it
acknowledges. -/
theorem recorded_of_step {u : Uploader} {s s' : State} {l : Label} (h : u.step s l = some s') :
    s'.enqueued = s.enqueued ++ l.enqueued ∧ s'.acked = s.acked ++ acks s l := by
  have hnone : ∀ evs : List InventoryEvent, evs ++ [] = evs := List.append_nil
  cases move_of_step h with
  | enqueue ev =>
    unfold enqueue
    split_ifs <;> exact ⟨rfl, (hnone _).symm⟩
  | take hpc =>
    obtain ⟨henq, hacked⟩ := recorded_take u s
    exact ⟨henq.trans (hnone _).symm, hacked.trans (hnone _).symm⟩
  | ackEvents hpc => exact ⟨(hnone _).symm, by simp [acks, State.inFlight, hpc]⟩
  | ackPart hpc => exact ⟨(hnone _).symm, by simp [acks, State.inFlight, hpc]⟩
  | _ => exact ⟨(hnone _).symm, (hnone _).symm⟩

/-- **The events recorded as enqueued** are those of the calls of `Enqueue` in the run. -/
theorem enqueued_of_run {u : Uploader} {s s' : State} {ls : List Label}
    (hrun : Transition.run u.step s ls = some s') : s'.enqueued = s.enqueued ++ enqueues ls := by
  rw [enqueues, ← Transition.gather_eq_flatMap Label.enqueued hrun]
  exact Transition.record_eq_gather (fun h => (recorded_of_step h).1) hrun

/-- **The events recorded as acknowledged** are those of the batches answered in the run. -/
theorem acked_of_run {u : Uploader} {s s' : State} {ls : List Label}
    (hrun : Transition.run u.step s ls = some s') : s'.acked = s.acked ++ u.acknowledged s ls :=
  Transition.record_eq_gather (fun h => (recorded_of_step h).2) hrun

/-! ## A small uploader -/

/-- An event on a pod. -/
def podEvent (name op : String) (timestamp : ℤ) : InventoryEvent where
  op := op
  ref := { version := "v1", resource := "pods", namespace_ := "default", name := name }
  timestamp := timestamp

/-- The texts of two events. -/
def podTable : EventCodec.Table where
  entries := [(podEvent "web" "update" 2, Encoding.utf8 (
    "\x7b\"op\":\"update\",\"ref\":\x7b\"group\":\"\",\"version\":\"v1\",\"resource\":\"pods\"," ++
    "\"namespace\":\"default\",\"name\":\"web\"\x7d,\"timestamp\":2\x7d")),
    (podEvent "api" "add" 3, Encoding.utf8 (
    "\x7b\"op\":\"add\",\"ref\":\x7b\"group\":\"\",\"version\":\"v1\",\"resource\":\"pods\"," ++
    "\"namespace\":\"default\",\"name\":\"api\"\x7d,\"timestamp\":3\x7d"))]
  inj := by decide +kernel
  head := by decide +kernel
  lines := by decide +kernel

/-- An uploader with room for one event in its buffer. -/
noncomputable def smallUploader : Uploader := { capacity := 1, codec := .ofTable podTable }

end Uploader

end K8sAgent
