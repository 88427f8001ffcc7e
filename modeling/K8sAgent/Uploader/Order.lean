import K8sAgent.Uploader.Conservation

set_option relaxedAutoImplicit false
set_option autoImplicit false

/-!
# Order of events

A server that keeps the last event of each object is to end up with the newest one. Events on one
object keep their order on the way through buffer, batches, failures and spill file; what can break
it is the buffer having room again while the spill file still holds an older event of the object:
the newer event goes ahead of it.

## Main definitions

* `K8sAgent.Uploader.onRef` — the events on one object.
* `K8sAgent.Uploader.Converged` — where a run leaves nothing to send, the event acknowledged last
  for each object is the one enqueued last.
* `K8sAgent.Uploader.Orderly` — a step that does not put an event ahead of a spilled one.

## Main results

* `K8sAgent.Uploader.InOrder.step` — orderly steps keep the order.
* `K8sAgent.Uploader.converged_of_orderly` — the inventory converges in every orderly run.
-/

namespace K8sAgent.Uploader

open Encoding Transition

/-- The events on one object. -/
def onRef (ref : ResourceRef) (evs : List InventoryEvent) : List InventoryEvent :=
  evs.filter fun ev => ev.ref = ref

/-- **The inventory has converged** at the end `s` of a run from `s₀`, if there is nothing left to
send: the event that the run acknowledged last for each object is the one it enqueued last. -/
def Converged (u : Uploader) (s₀ : State) (ls : List Label) (s : State) : Prop :=
  s.buf = [] → s.spill = [] → s.inFlight = [] →
    ∀ ref, (onRef ref (u.acknowledged s₀ ls)).getLast? = (onRef ref (enqueues ls)).getLast?

/-- No event goes into the buffer while the spill file holds one on the same object, and what is
spilled can be read back. -/
def Orderly (u : Uploader) (s : State) : Label → Prop
  | .enqueue ev =>
    if s.buf.length < u.capacity then ∀ old ∈ s.spilled, old.ref ≠ ev.ref else u.codec.Fits ev
  | _ => True

instance (u : Uploader) (s : State) (l : Label) : Decidable (u.Orderly s l) :=
  match l with
  | .enqueue _ => inferInstanceAs (Decidable (ite _ _ _))
  | .snapshot _ | .next | .ack | .fail | .wake | .cancel => isTrue trivial

/-! ## The invariant -/

/-- The events on each object are on their way in the order in which they were enqueued, and the
spill file can be read back. -/
structure InOrder (u : Uploader) (s : State) : Prop where
  /-- The file holds the spilled events. -/
  file : s.spill = u.codec.file s.spilled
  /-- The lines of spilled events fit into the reader's buffer. -/
  fits : ∀ ev ∈ s.spilled, u.codec.Fits ev
  /-- The order. -/
  order : ∀ ref, onRef ref s.enqueued = onRef ref s.pipeline

section Lemmas

variable {u : Uploader} {s s' : State}

@[simp] lemma onRef_append (ref : ResourceRef) (evs evs' : List InventoryEvent) :
    onRef ref (evs ++ evs') = onRef ref evs ++ onRef ref evs' := List.filter_append _ _

/-- The spill file can be read back. -/
lemma InOrder.readable (h : InOrder u s) : Readable u s := ⟨h.file, h.fits⟩

/-- **An event is enqueued.** In the buffer it comes before the spilled events, none of which is on
the same object; in the file it comes last. -/
theorem InOrder.enqueue (h : InOrder u s) {ev : InventoryEvent}
    (hord : u.Orderly s (.enqueue ev)) : InOrder u (u.enqueue s ev) := by
  simp only [Orderly] at hord
  have hread : Readable u (u.enqueue s ev) := by
    refine h.readable.enqueue fun hfull => ?_
    rwa [if_neg (by omega)] at hord
  refine ⟨hread.file, hread.fits, fun ref => ?_⟩
  rw [enqueued_enqueue, pipeline_enqueue, onRef_append, h.order ref]
  split_ifs at hord ⊢ with hroom
  · simp only [State.pipeline, onRef_append, List.append_assoc]
    by_cases href : ev.ref = ref
    · have hnone : onRef ref s.spilled = [] := by
        refine List.filter_eq_nil_iff.mpr fun old hold => ?_
        have := hord old hold
        rw [href] at this
        simpa using this
      simp [hnone]
    · have hnone : onRef ref [ev] = [] := by simp [onRef, href]
      simp [hnone]
  · rw [onRef_append]

/-- **Orderly steps keep the order**: an event that is enqueued does not overtake one on its object,
and a step of `Run` leaves the pipeline as it is. -/
theorem InOrder.step (h : InOrder u s) {l : Label} (hord : u.Orderly s l)
    (hstep : u.step s l = some s') : InOrder u s' := by
  by_cases hl : ∀ ev, l ≠ .enqueue ev
  · obtain ⟨hread, hpipe, henq⟩ := h.readable.step hl hstep
    refine ⟨hread.file, hread.fits, fun ref => ?_⟩
    rw [henq, hpipe, h.order ref]
  · push Not at hl
    obtain ⟨ev, rfl⟩ := hl
    cases hstep
    exact h.enqueue hord

/-- Before `Run` there are no events to put in order. -/
lemma inOrder_init (seq : ℤ) : InOrder u (init seq) := ⟨rfl, by simp [init], fun _ => rfl⟩

/-- Where nothing is left to send, the events on each object were acknowledged in the order in which
they were enqueued. -/
lemma InOrder.acked_eq (h : InOrder u s) (hbuf : s.buf = []) (hspill : s.spill = [])
    (hflight : s.inFlight = []) (ref : ResourceRef) : onRef ref s.acked = onRef ref s.enqueued := by
  have hspilled : s.spilled = [] := by
    rw [h.file] at hspill
    exact EventCodec.file_eq_nil_iff.mp hspill
  rw [h.order ref, State.pipeline, hbuf, hspilled, hflight]
  simp

end Lemmas

/-- **The inventory converges in orderly runs.** Whatever the interleaving of `Enqueue` with the
steps of `Run`, whatever fails and however small the buffer is, the event acknowledged last for each
object is the one enqueued last whenever there is nothing left to send, in every run in which no
event goes into the buffer while the spill file holds an older one on the same object and no spilled
line is too long to be read back.

**Proof sketch.** For each object, the events acknowledged, in flight, buffered and spilled, in this
order, are those enqueued. Taking a batch, putting it back, spilling and replaying move events along
that line; only an event that goes into the buffer could overtake a spilled one. -/
theorem converged_of_orderly (u : Uploader) (seq : ℤ) (ls : List Label) (s : State)
    (hrun : run u.step (init seq) ls = some s) (hord : Along u.step u.Orderly (init seq) ls) :
    u.Converged (init seq) ls s := by
  have hinv : InOrder u s :=
    Transition.invariant (fun h hord hstep => h.step hord hstep) (inOrder_init seq) hord hrun
  have henq : s.enqueued = enqueues ls := enqueued_of_run hrun
  have hacked : s.acked = u.acknowledged (init seq) ls := acked_of_run hrun
  intro hbuf hspill hflight ref
  rw [← henq, ← hacked, hinv.acked_eq hbuf hspill hflight]

/-! ## A pod that is removed -/

/-- A pod is added and changed; the change does not fit into the buffer. When the first event has
been acknowledged a third one comes, and all is sent. -/
def overtaking (third : InventoryEvent) : List Label :=
  [.enqueue (podEvent "web" "add" 1), .enqueue (podEvent "web" "update" 2), .snapshot [], .next,
    .next, .ack, .enqueue third, .next, .next, .ack, .next, .next, .ack]

/-- The third event is on another pod: it overtakes the spilled one, and the inventory converges. -/
theorem converged_overtaking :
    ∃ s, run smallUploader.step (init 0) (overtaking (podEvent "api" "add" 3)) = some s ∧
      smallUploader.acknowledged (init 0) (overtaking (podEvent "api" "add" 3)) =
        [podEvent "web" "add" 1, podEvent "api" "add" 3, podEvent "web" "update" 2] ∧
      smallUploader.Converged (init 0) (overtaking (podEvent "api" "add" 3)) s := by
  obtain ⟨s, hs⟩ := Option.isSome_iff_exists.mp (show
    (run smallUploader.step (init 0) (overtaking (podEvent "api" "add" 3))).isSome = true by
      decide +kernel)
  exact ⟨s, hs, by decide +kernel, converged_of_orderly smallUploader 0 _ s hs (by decide +kernel)⟩

/-- The third event is the removal of the same pod: the change is acknowledged after it. -/
theorem removal_overtakes_change :
    ∃ s, run smallUploader.step (init 0) (overtaking (podEvent "web" "delete" 3)) = some s ∧
      ¬smallUploader.Converged (init 0) (overtaking (podEvent "web" "delete" 3)) s := by
  obtain ⟨s, hs, hend⟩ := Option.map_eq_some_iff.mp (show Option.map
    (fun s => (s.buf, s.spill, s.inFlight))
    (run smallUploader.step (init 0) (overtaking (podEvent "web" "delete" 3))) = some ([], [], [])
    by decide +kernel)
  simp only [Prod.mk.injEq] at hend
  obtain ⟨hbuf, hspill, hflight⟩ := hend
  have hacked : smallUploader.acknowledged (init 0) (overtaking (podEvent "web" "delete" 3)) =
      [podEvent "web" "add" 1, podEvent "web" "delete" 3, podEvent "web" "update" 2] := by
    decide +kernel
  refine ⟨s, hs, fun hconv => ?_⟩
  have hlast := hconv hbuf hspill hflight (podEvent "web" "add" 1).ref
  rw [hacked] at hlast
  revert hlast
  decide +kernel

end K8sAgent.Uploader
