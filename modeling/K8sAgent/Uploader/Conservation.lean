import Mathlib.Data.Multiset.AddSub
import K8sAgent.Uploader.Run

set_option relaxedAutoImplicit false
set_option autoImplicit false

/-!
# Conservation of events

An event that has been enqueued is in one of four places: in the buffer, in the spill file, in the
batch in flight, or acknowledged. Steps of `Run` move events from place to place along one line,
the pipeline; enqueueing adds one event to it. So no event is lost, and none is acknowledged
twice, however the steps interleave.

## Main definitions

* `K8sAgent.Uploader.State.pipeline` — the events that have been enqueued, in the order in which
  they are acknowledged if nothing else happens.
* `K8sAgent.Uploader.Readable` — the spill file gives back the events it holds.

## Main results

* `K8sAgent.Uploader.Readable.step` — a step of `Run` leaves the pipeline as it is.
* `K8sAgent.Uploader.events_conserved` — the events enqueued are those buffered, spilled, in flight
  and acknowledged.
-/

namespace K8sAgent.Uploader

open Encoding Transition

/-- The events on their way: acknowledged, in flight, buffered, spilled. -/
def State.pipeline (s : State) : List InventoryEvent := s.acked ++ s.inFlight ++ s.buf ++ s.spilled

/-- The spill file holds the events it is said to hold, and they can be read back. -/
structure Readable (u : Uploader) (s : State) : Prop where
  /-- The file holds the spilled events. -/
  file : s.spill = u.codec.file s.spilled
  /-- The lines of spilled events fit into the reader's buffer. -/
  fits : ∀ ev ∈ s.spilled, u.codec.Fits ev

/-- A step that leaves the events on their way as they are. -/
structure Carries (u : Uploader) (s s' : State) : Prop where
  /-- The spill file can be read back. -/
  readable : Readable u s'
  /-- The events are on their way as before. -/
  pipeline : s'.pipeline = s.pipeline
  /-- None has been enqueued. -/
  enqueued : s'.enqueued = s.enqueued

section Lemmas

variable {u : Uploader} {s s' : State}

/-! ## The spill file -/

/-- What the file gives back is what has been spilled. -/
lemma Readable.replayed (h : Readable u s) : u.codec.replayed s.spill = s.spilled := by
  rw [h.file, EventCodec.replayed_file h.fits]

/-- What a batch is taken from: the buffer, or all that has been spilled. -/
lemma Readable.refill (h : Readable u s) :
    u.refill s =
      if s.buf = [] then { s with buf := s.spilled, spill := [], spilled := [] } else s := by
  unfold Uploader.refill replaySpill
  split_ifs with hbuf
  · rw [h.replayed]
    cases hsp : s.spilled with
    | nil =>
      have hfile : s.spill = [] := by rw [h.file, hsp]; rfl
      obtain ⟨buf, spill, seq, need, backoff, pc, enq, spilled, attempts, acked⟩ := s
      simp_all
    | cons ev evs => simp [hbuf]
  · rfl

/-- An event is enqueued: if it is spilled, its line has to fit. -/
lemma Readable.enqueue (h : Readable u s) {ev : InventoryEvent}
    (hfits : u.capacity ≤ s.buf.length → u.codec.Fits ev) : Readable u (u.enqueue s ev) := by
  unfold Uploader.enqueue
  split_ifs with hroom
  · exact ⟨h.file, h.fits⟩
  · refine ⟨?_, fun old hold => ?_⟩
    · rw [EventCodec.file_append, h.file]
    · rcases List.mem_append.mp hold with hold | hold
      · exact h.fits old hold
      · rw [List.mem_singleton.mp hold]
        exact hfits (by omega)

/-! ## The pipeline -/

/-- An enqueued event is recorded. -/
lemma enqueued_enqueue (u : Uploader) (s : State) (ev : InventoryEvent) :
    (u.enqueue s ev).enqueued = s.enqueued ++ [ev] := by
  unfold Uploader.enqueue
  split_ifs <;> rfl

/-- An enqueued event joins the pipeline: before the spilled events, or after them. -/
lemma pipeline_enqueue (u : Uploader) (s : State) (ev : InventoryEvent) :
    (u.enqueue s ev).pipeline = if s.buf.length < u.capacity then
      s.acked ++ s.inFlight ++ (s.buf ++ [ev]) ++ s.spilled else s.pipeline ++ [ev] := by
  unfold Uploader.enqueue
  split_ifs
  · rfl
  · simp only [State.pipeline, State.inFlight, List.append_assoc]

/-- **A batch is taken**: events move from the file to the buffer and from there into flight. -/
theorem Readable.take (h : Readable u s) (hpc : s.pc = .taking) : Carries u s (u.take s) := by
  -- refilling moves the spilled events into the empty buffer
  have hrefill : Carries u s (u.refill s) ∧ (u.refill s).pc = .taking := by
    rw [h.refill]
    split_ifs with hbuf
    · refine ⟨⟨⟨rfl, by simp⟩, ?_, rfl⟩, hpc⟩
      simp [State.pipeline, State.inFlight, hbuf]
    · exact ⟨⟨h, rfl, rfl⟩, hpc⟩
  obtain ⟨⟨hread, hpipe, henq⟩, hpc'⟩ := hrefill
  obtain ⟨s₁, hs₁, htake⟩ := take_cases u s
  rw [hs₁] at hread hpipe henq hpc'
  have hidle : s₁.inFlight = [] := by simp [State.inFlight, hpc']
  obtain ⟨-, htake⟩ | ⟨-, htake⟩ := htake
  · rw [htake]
    refine ⟨⟨hread.file, hread.fits⟩, ?_, henq⟩
    rw [← hpipe, State.pipeline, State.pipeline, hidle]
    rfl
  · rw [htake]
    refine ⟨⟨hread.file, hread.fits⟩, ?_, henq⟩
    change s₁.acked ++ u.batch s₁.buf ++ u.rest s₁.buf ++ s₁.spilled = s.pipeline
    rw [← hpipe, List.append_assoc s₁.acked, batch_append_rest, State.pipeline, hidle,
      List.append_nil]

/-- A step that touches neither the events nor the file carries them. -/
lemma Readable.carries (h : Readable u s) (hspill : s'.spill = s.spill)
    (hspilled : s'.spilled = s.spilled) (henq : s'.enqueued = s.enqueued)
    (hpipe : s'.acked ++ s'.inFlight ++ s'.buf = s.acked ++ s.inFlight ++ s.buf) :
    Carries u s s' where
  readable := ⟨by rw [hspill, hspilled, h.file], by rw [hspilled]; exact h.fits⟩
  pipeline := by rw [State.pipeline, hpipe, hspilled, State.pipeline]
  enqueued := henq

/-- **A step of `Run` leaves the pipeline as it is.** -/
theorem Readable.step (h : Readable u s) {l : Label} (hl : ∀ ev, l ≠ .enqueue ev)
    (hstep : u.step s l = some s') : Carries u s s' := by
  cases move_of_step hstep with
  | enqueue ev => exact absurd rfl (hl ev)
  | take hp => exact h.take hp
  | snapshot evs hp => exact h.carries rfl rfl rfl (by simp [State.inFlight, hp])
  | skip hp => exact h.carries rfl rfl rfl (by simp [State.inFlight, hp])
  | snapshotDone hp => exact h.carries rfl rfl rfl (by simp [State.inFlight, hp])
  | sendPart hp hne => exact h.carries rfl rfl rfl (by simp [State.inFlight, sendBatch, hp])
  | requeue hp => exact h.carries rfl rfl rfl (by simp [State.inFlight, requeueFront, hp])
  | ackPart hp => exact h.carries rfl rfl rfl (by simp [State.inFlight, hp])
  | ackEvents hp => exact h.carries rfl rfl rfl (by simp [State.inFlight, hp])
  | failPart hp => exact h.carries rfl rfl rfl (by simp [State.inFlight, hp])
  | failEvents hp => exact h.carries rfl rfl rfl (by simp [State.inFlight, hp])
  | awake hp => exact h.carries rfl rfl rfl (by simp [State.inFlight, hp])
  | resume hp => exact h.carries rfl rfl rfl (by simp [State.inFlight, hp])
  | cancel hp =>
    rcases hp with hp | hp | hp <;> exact h.carries rfl rfl rfl (by simp [State.inFlight, hp])

/-! ## Conservation -/

/-- The events held in the beginning and those enqueued are on their way. -/
structure Conserved (u : Uploader) (held : List InventoryEvent) (s : State) : Prop
    extends Readable u s where
  /-- Nothing is lost and nothing is there twice. -/
  perm : (held ++ s.enqueued).Perm s.pipeline

/-- What is spilled can be read back. -/
def Legible (u : Uploader) : Label → Prop
  | .enqueue ev => u.codec.Fits ev
  | _ => True

variable {held : List InventoryEvent}

/-- **Every step conserves the events.** -/
theorem Conserved.step (h : Conserved u held s) {l : Label} (hfits : u.Legible l)
    (hstep : u.step s l = some s') : Conserved u held s' := by
  by_cases hl : ∀ ev, l ≠ .enqueue ev
  · obtain ⟨hread, hpipe, henq⟩ := h.toReadable.step hl hstep
    refine ⟨hread, ?_⟩
    rw [hpipe, henq]
    exact h.perm
  · push Not at hl
    obtain ⟨ev, rfl⟩ := hl
    cases hstep
    refine ⟨h.toReadable.enqueue fun _ => hfits, ?_⟩
    have hjoin : (s.pipeline ++ [ev]).Perm (u.enqueue s ev).pipeline := by
      rw [pipeline_enqueue]
      split_ifs
      · rw [State.pipeline, ← List.append_assoc _ s.buf [ev], List.append_assoc _ s.spilled,
          List.append_assoc _ [ev]]
        exact List.perm_append_comm.append_left _
      · exact List.Perm.refl _
    rw [enqueued_enqueue, ← List.append_assoc]
    exact (h.perm.append_right [ev]).trans hjoin

/-- The events are conserved before `Run`, on a spill file that holds them. -/
lemma conserved_start (seq : ℤ) (hheld : ∀ ev ∈ held, u.codec.Fits ev) :
    Conserved u held (u.start seq (u.codec.file held)) := by
  have hback : u.codec.replayed (u.codec.file held) = held := EventCodec.replayed_file hheld
  refine ⟨⟨?_, ?_⟩, ?_⟩
  · rw [start, hback]
  · rw [start, hback]
    exact hheld
  · simp [start, State.pipeline, State.inFlight, hback]

end Lemmas

/-- **No event is lost or acknowledged twice.** Whatever the interleaving of `Enqueue` with the
steps of `Run`, whatever fails and however small the buffer is, the events that the run has enqueued
and those in the spill file at the start are, counted with repetition, those in the buffer, in the
spill file, in the batch in flight and in the batches acknowledged in the run that were not part of
a snapshot.

**Proof sketch.** Every step of `Run` moves events along the pipeline and changes nothing in it;
enqueueing adds the event to it, in front of the spilled ones or behind them. The record of what was
enqueued and acknowledged is read off the run by `enqueued_of_run` and `acked_of_run`. -/
theorem events_conserved (u : Uploader) (seq : ℤ) (held : List InventoryEvent) (ls : List Label)
    (s : State) (hheld : ∀ ev ∈ held, u.codec.Fits ev)
    (hfits : ∀ ev, Label.enqueue ev ∈ ls → u.codec.Fits ev)
    (hrun : run u.step (u.start seq (u.codec.file held)) ls = some s) :
    ((held ++ enqueues ls : List InventoryEvent) : Multiset InventoryEvent) =
      (s.buf : Multiset InventoryEvent) + (u.codec.replayed s.spill : Multiset InventoryEvent) +
        (s.inFlight : Multiset InventoryEvent) +
        (u.acknowledged (u.start seq (u.codec.file held)) ls : Multiset InventoryEvent) := by
  have hlegible : ∀ l ∈ ls, u.Legible l := by
    intro l hl
    cases l with
    | enqueue ev => exact hfits ev hl
    | _ => trivial
  have hinv : Conserved u held s := invariant
    (fun h hP hstep => h.step hP hstep) (conserved_start seq hheld)
    (along_of_forall_mem fun l hl _ => hlegible l hl) hrun
  have henq : s.enqueued = enqueues ls := enqueued_of_run hrun
  have hacked : s.acked = u.acknowledged (u.start seq (u.codec.file held)) ls := acked_of_run hrun
  have hperm : ((held ++ s.enqueued : List InventoryEvent) : Multiset InventoryEvent) =
      (s.pipeline : Multiset InventoryEvent) := Multiset.coe_eq_coe.mpr hinv.perm
  rw [← henq, ← hacked, hinv.replayed, hperm, State.pipeline, ← Multiset.coe_add,
    ← Multiset.coe_add, ← Multiset.coe_add]
  -- the same four places in another order
  rw [Multiset.add_assoc (_ + _) (s.buf : Multiset InventoryEvent), Multiset.add_comm (_ + _),
    Multiset.add_comm (s.acked : Multiset InventoryEvent), ← Multiset.add_assoc]

/-- The spill file holds a change of the pod `web` from before. A new pod is buffered and the change
spilled once more. The first batch fails, is put back, taken again and acknowledged; the second one
is taken from the file. -/
def carriedOver : List Label :=
  [.enqueue (podEvent "api" "add" 3), .enqueue (podEvent "web" "update" 2), .snapshot [], .next,
    .next, .fail, .next, .wake, .snapshot [], .next, .next, .ack, .next, .next]

/-- The new pod has been acknowledged then, and both changes are in flight. -/
theorem events_conserved_carriedOver :
    ∃ s, run smallUploader.step
        (smallUploader.start 0 (smallUploader.codec.file [podEvent "web" "update" 2])) carriedOver =
          some s ∧
      enqueues carriedOver = [podEvent "api" "add" 3, podEvent "web" "update" 2] ∧
      s.inFlight = [podEvent "web" "update" 2, podEvent "web" "update" 2] ∧
      smallUploader.acknowledged
        (smallUploader.start 0 (smallUploader.codec.file [podEvent "web" "update" 2])) carriedOver =
          [podEvent "api" "add" 3] ∧
      (([podEvent "web" "update" 2] ++ enqueues carriedOver : List InventoryEvent) :
          Multiset InventoryEvent) =
        (s.buf : Multiset InventoryEvent) +
          (smallUploader.codec.replayed s.spill : Multiset InventoryEvent) +
          (s.inFlight : Multiset InventoryEvent) +
          (smallUploader.acknowledged
            (smallUploader.start 0 (smallUploader.codec.file [podEvent "web" "update" 2]))
            carriedOver : Multiset InventoryEvent) := by
  obtain ⟨s, hs, hflight⟩ := Option.map_eq_some_iff.mp (show Option.map State.inFlight
    (run smallUploader.step
      (smallUploader.start 0 (smallUploader.codec.file [podEvent "web" "update" 2])) carriedOver) =
    some [podEvent "web" "update" 2, podEvent "web" "update" 2] by decide +kernel)
  have hfits : ∀ ev ∈ enqueues carriedOver, smallUploader.codec.Fits ev := by decide +kernel
  refine ⟨s, hs, rfl, hflight, by decide +kernel,
    events_conserved smallUploader 0 _ carriedOver s ?_ ?_ hs⟩
  · intro ev hev
    rw [List.mem_singleton.mp hev]
    exact hfits _ (by decide)
  · exact fun ev hev => hfits ev (List.mem_flatMap.mpr ⟨_, hev, List.mem_singleton_self ev⟩)

end K8sAgent.Uploader
