import K8sAgent.Uploader.Run

set_option relaxedAutoImplicit false
set_option autoImplicit false

/-!
# Sequence numbers

A batch that was not acknowledged is sent again under its sequence number, so that the server can
tell a repetition from news. What is sent under a number again is the same batch only if nothing
comes in between: after a failure the full snapshot goes first, and a batch that is taken from the
buffer again takes events along that have come since.

## Main definitions

* `K8sAgent.Uploader.State.SeqIdentifies` — batches sent under one number are the same.
* `K8sAgent.Uploader.State.pending` — the batch sent last, if it was not acknowledged.
* `K8sAgent.Uploader.Settled` — a step that does not put another batch in the place of that one.

## Main results

* `K8sAgent.Uploader.Numbered.step` — settled steps keep what the numbers mean.
* `K8sAgent.Uploader.seqIdentifies_of_settled` — in every settled run a sequence number identifies
  one batch.
-/

namespace K8sAgent.Uploader

open Transition

/-- **A sequence number identifies one batch**: batches sent under one number agree on the flag and
the events. -/
def State.SeqIdentifies (s : State) : Prop :=
  ∀ a ∈ s.attempts, ∀ b ∈ s.attempts, a.seq = b.seq → a.full = b.full ∧ a.events = b.events

/-- The batch sent last, if it was not acknowledged. -/
def State.pending (s : State) : Option InventoryBatch :=
  s.attempts.getLast?.filter fun b => b.seq = s.seq + 1

/-- Nothing can be added to the batch: it has as many events as go into one, or no room for the
event that follows, or none follows. -/
def Closed (u : Uploader) (evs rest : List InventoryEvent) : Prop :=
  ∀ ev ∈ rest.head?, batchSize ≤ evs.length ∨
    u.maxBatchBytes < (evs.map eventSize).sum + eventSize ev

instance (u : Uploader) (evs rest : List InventoryEvent) : Decidable (u.Closed evs rest) :=
  inferInstanceAs (Decidable (∀ ev ∈ rest.head?, _))

/-- After a failed batch of events the snapshot is empty, and the batch is closed when it is taken
again; after a failed part of a snapshot the next snapshot begins with that part. -/
def Settled (u : Uploader) (s : State) : Label → Prop
  | .snapshot evs => ∀ p ∈ s.pending,
      if p.full then evs ≠ [] ∧ u.batch evs = p.events else evs = []
  | .next => s.pc = .taking → ∀ p ∈ s.pending, u.Closed p.events (s.buf.drop p.events.length)
  | _ => True

instance (u : Uploader) (s : State) (l : Label) : Decidable (u.Settled s l) :=
  match l with
  | .snapshot _ => inferInstanceAs (Decidable (∀ p ∈ s.pending, _))
  | .next => inferInstanceAs (Decidable (s.pc = .taking → _))
  | .enqueue _ | .ack | .fail | .wake | .cancel => isTrue trivial

/-! ## The invariant -/

/-- The events are a batch as they are cut. -/
def IsBatch (u : Uploader) (evs : List InventoryEvent) : Prop :=
  evs ≠ [] ∧ batchLen batchSize u.maxBatchBytes evs = evs.length

/-- The failed batch of events is at the front of the buffer. -/
def Requeued (u : Uploader) (s : State) (p : InventoryBatch) : Prop :=
  u.IsBatch p.events ∧ p.events <+: s.buf

/-- Where the pending batch is, for each place `Run` can be at. -/
def Placed (u : Uploader) (s : State) : Pc → Prop
  | .sending evs full _ => (∃ p, s.pending = some p ∧ p.full = full ∧ p.events = evs) ∧
      (full = true → s.needSnapshot = true) ∧ (full = false → u.IsBatch evs)
  | .failed evs => (∃ p, s.pending = some p ∧ p.full = false ∧ p.events = evs) ∧ u.IsBatch evs
  | .sleeping => s.needSnapshot = true ∧
      ∀ p, s.pending = some p → p.full = false → u.Requeued s p
  | .top => ∀ p, s.pending = some p →
      s.needSnapshot = true ∧ (p.full = false → u.Requeued s p)
  | .snapshot evs => s.needSnapshot = true ∧ ∀ p, s.pending = some p →
      if p.full then evs ≠ [] ∧ u.batch evs = p.events else evs = [] ∧ u.Requeued s p
  | .taking => ∀ p, s.pending = some p → p.full = false ∧ u.Requeued s p
  | .idle => s.pending = none
  | .stopped => True

/-- What the sequence numbers mean. -/
structure Meaningful (s : State) : Prop where
  /-- A number beyond the acknowledged ones is that of the pending batch. -/
  beyond : ∀ a ∈ s.attempts, s.seq < a.seq → a.seq = s.seq + 1 ∧
    ∃ p, s.pending = some p ∧ a.full = p.full ∧ a.events = p.events
  /-- Numbers identify batches. -/
  identifies : s.SeqIdentifies

/-- The sequence numbers mean what they should, and will go on to do so. -/
structure Numbered (u : Uploader) (s : State) : Prop extends Meaningful s where
  /-- The pending batch is where it will be sent again from. -/
  placed : u.Placed s s.pc

section Lemmas

variable {u : Uploader} {s s' : State}

lemma pending_eq_some {p : InventoryBatch} (h : s.pending = some p) :
    p ∈ s.attempts ∧ p.seq = s.seq + 1 := by
  obtain ⟨hlast, hseq⟩ := Option.filter_eq_some_iff.mp h
  exact ⟨List.mem_of_getLast? hlast, by simpa using hseq⟩

/-- The pending batch depends on the attempts and the number alone. -/
lemma pending_congr (hatt : s'.attempts = s.attempts) (hseq : s'.seq = s.seq) :
    s'.pending = s.pending := by rw [State.pending, hatt, hseq, State.pending]

/-- A batch that has been sent is pending. -/
lemma pending_sendBatch (evs rest : List InventoryEvent) (full : Bool) :
    (u.sendBatch s evs full rest).pending =
      some { clusterID := u.clusterID, seq := s.seq + 1, full := full, events := evs } := by
  simp [State.pending, sendBatch]

/-- A batch cut off a list is a batch. -/
lemma isBatch_batch {evs : List InventoryEvent} (hne : evs ≠ []) : u.IsBatch (u.batch evs) := by
  refine ⟨fun hnil => ?_, batchLen_take evs⟩
  have hpos := batchLen_pos batchSize u.maxBatchBytes hne
  rcases List.take_eq_nil_iff.mp hnil with hzero | hnil'
  · omega
  · exact hne hnil'

/-- A step that leaves attempts and number as they are keeps the meaning of the numbers. -/
lemma Meaningful.of_eq (h : Meaningful s) (hatt : s'.attempts = s.attempts)
    (hseq : s'.seq = s.seq) (hplaced : u.Placed s' s'.pc) : Numbered u s' where
  beyond a ha hlt := by
    rw [hatt] at ha
    rw [hseq] at hlt
    rw [pending_congr hatt hseq, hseq]
    exact h.beyond a ha hlt
  identifies := by
    rw [State.SeqIdentifies, hatt]
    exact h.identifies
  placed := hplaced

/-- **Sending a batch.** It is a new one under a new number, or the pending one once more. -/
theorem Meaningful.sendBatch (h : Meaningful s) {evs rest : List InventoryEvent} {full : Bool}
    (hsame : ∀ p, s.pending = some p → full = p.full ∧ evs = p.events)
    (hneed : full = true → s.needSnapshot = true) (hbatch : full = false → u.IsBatch evs) :
    Numbered u (u.sendBatch s evs full rest) := by
  have hold : ∀ a ∈ s.attempts, s.seq < a.seq →
      a.seq = s.seq + 1 ∧ a.full = full ∧ a.events = evs := by
    intro a ha hlt
    obtain ⟨hseq, p, hp, hfull, hevs⟩ := h.beyond a ha hlt
    obtain ⟨hfull', hevs'⟩ := hsame p hp
    exact ⟨hseq, hfull.trans hfull'.symm, hevs.trans hevs'.symm⟩
  have hmem : ∀ a ∈ (u.sendBatch s evs full rest).attempts, a ∈ s.attempts ∨
      a = { clusterID := u.clusterID, seq := s.seq + 1, full := full, events := evs } := by
    intro a ha
    simpa [Uploader.sendBatch] using ha
  refine ⟨⟨fun a ha hlt => ?_, fun a ha b hb hab => ?_⟩,
    ⟨_, pending_sendBatch evs rest full, rfl, rfl⟩, hneed, hbatch⟩
  · rcases hmem a ha with ha | rfl
    · obtain ⟨hseq, hsame'⟩ := hold a ha hlt
      exact ⟨hseq, _, pending_sendBatch evs rest full, hsame'⟩
    · exact ⟨rfl, _, pending_sendBatch evs rest full, rfl, rfl⟩
  · rcases hmem a ha with ha | rfl <;> rcases hmem b hb with hb | rfl
    · exact h.identifies a ha b hb hab
    · exact (hold a ha (by simp only at hab; omega)).2
    · obtain ⟨-, hfull, hevs⟩ := hold b hb (by simp only at hab; omega)
      exact ⟨hfull.symm, hevs.symm⟩
    · exact ⟨rfl, rfl⟩

/-- **An acknowledgement** leaves nothing pending. -/
theorem Meaningful.ack (h : Meaningful s) (hatt : s'.attempts = s.attempts)
    (hseq : s'.seq = s.seq + 1) (hplaced : s'.pending = none → u.Placed s' s'.pc) :
    Numbered u s' := by
  have hle : ∀ a ∈ s.attempts, a.seq ≤ s.seq + 1 := by
    intro a ha
    by_contra hlt
    obtain ⟨heq, -⟩ := h.beyond a ha (by omega)
    omega
  have hnone : s'.pending = none := by
    refine Option.eq_none_iff_forall_ne_some.mpr fun p hp => ?_
    obtain ⟨hmem, hp'⟩ := pending_eq_some hp
    have := hle p (hatt ▸ hmem)
    omega
  refine ⟨⟨fun a ha hlt => ?_, ?_⟩, hplaced hnone⟩
  · have := hle a (hatt ▸ ha)
    omega
  · rw [State.SeqIdentifies, hatt]
    exact h.identifies

/-- Enqueueing an event leaves the front of the buffer as it is. -/
lemma buf_prefix_enqueue (ev : InventoryEvent) : s.buf <+: (u.enqueue s ev).buf := by
  unfold Uploader.enqueue
  split_ifs
  · exact List.prefix_append _ _
  · exact List.prefix_rfl

/-- The place of the pending batch survives an event that is enqueued. -/
lemma Placed.enqueue (ev : InventoryEvent) {pc : Pc} (h : u.Placed s pc) :
    u.Placed (u.enqueue s ev) pc := by
  have hrun := sameRun_enqueue u s ev
  have hpend := pending_congr hrun.attempts hrun.seq
  have hneed := hrun.needSnapshot
  have hreq : ∀ {p}, u.Requeued s p → u.Requeued (u.enqueue s ev) p := fun hp =>
    ⟨hp.1, hp.2.trans (buf_prefix_enqueue ev)⟩
  cases pc with
  | sending evs full rest => simpa only [Placed, hpend, hneed] using h
  | failed evs => simpa only [Placed, hpend] using h
  | sleeping =>
    simp only [Placed, hpend, hneed] at h ⊢
    exact ⟨h.1, fun p hp hfull => hreq (h.2 p hp hfull)⟩
  | top =>
    simp only [Placed, hpend, hneed] at h ⊢
    exact fun p hp => ⟨(h p hp).1, fun hfull => hreq ((h p hp).2 hfull)⟩
  | snapshot evs =>
    simp only [Placed, hpend, hneed] at h ⊢
    refine ⟨h.1, fun p hp => ?_⟩
    have := h.2 p hp
    split_ifs at this ⊢
    · exact this
    · exact ⟨this.1, hreq this.2⟩
  | taking =>
    simp only [Placed, hpend] at h ⊢
    exact fun p hp => ⟨(h p hp).1, hreq (h p hp).2⟩
  | idle => simpa only [Placed, hpend] using h
  | stopped => trivial

/-- **Taking a batch.** A pending one is at the front of the buffer and closed, so it is taken
again. -/
theorem Numbered.take (h : Numbered u s) (hpc : s.pc = .taking)
    (hclosed : ∀ p ∈ s.pending, u.Closed p.events (s.buf.drop p.events.length)) :
    Numbered u (u.take s) := by
  have hplaced := h.placed
  rw [hpc] at hplaced
  have hrefill := sameRun_refill u s
  have hpend := pending_congr hrefill.attempts hrefill.seq
  have hsame : ∀ p, s.pending = some p → u.batch (u.refill s).buf = p.events := by
    intro p hp
    obtain ⟨-, ⟨hne, hwhole⟩, rest, hbuf⟩ := hplaced p hp
    have hbufne : s.buf ≠ [] := by
      rw [← hbuf]
      exact List.append_ne_nil_of_left_ne_nil hne rest
    have hdrop : s.buf.drop p.events.length = rest := by rw [← hbuf, List.drop_left]
    have hlen := batchLen_append hne hwhole (hdrop ▸ hclosed p hp)
    rw [refill, if_neg hbufne, Uploader.batch, ← hbuf, hlen, List.take_left]
  have hmean : Meaningful (u.refill s) := by
    refine ⟨fun a ha hlt => ?_, ?_⟩
    · rw [hpend, hrefill.seq]
      exact h.beyond a (hrefill.attempts ▸ ha) (hrefill.seq ▸ hlt)
    · rw [State.SeqIdentifies, hrefill.attempts]
      exact h.identifies
  obtain ⟨s₁, rfl, ⟨hbuf, htake⟩ | ⟨hbuf, htake⟩⟩ := take_cases u s
  · rw [htake]
    refine hmean.of_eq rfl rfl ?_
    -- with a batch pending the buffer is not empty
    change (u.refill s).pending = none
    rw [hpend]
    refine Option.eq_none_iff_forall_ne_some.mpr fun p hp => ?_
    have hnil := hsame p hp
    rw [hbuf] at hnil
    exact (hplaced p hp).2.1.1 hnil.symm
  · rw [htake]
    have hrest : Meaningful { u.refill s with buf := u.rest (u.refill s).buf } :=
      ⟨hmean.beyond, hmean.identifies⟩
    refine hrest.sendBatch (fun p hp => ?_) ?_ fun _ => isBatch_batch hbuf
    · have hp' : s.pending = some p := hpend ▸ hp
      exact ⟨(hplaced p hp').1.symm, hsame p hp'⟩
    · intro hfull
      cases hfull

/-- **Settled steps keep the meaning of the sequence numbers.** -/
theorem Numbered.step (h : Numbered u s) {l : Label} (hset : u.Settled s l)
    (hstep : u.step s l = some s') : Numbered u s' := by
  have hplaced := h.placed
  cases move_of_step hstep with
  | enqueue ev =>
    have hrun := sameRun_enqueue u s ev
    refine h.toMeaningful.of_eq hrun.attempts hrun.seq ?_
    rw [hrun.pc]
    exact hplaced.enqueue ev
  | snapshot evs hpc hneed =>
    rw [hpc] at hplaced
    refine h.toMeaningful.of_eq rfl rfl ⟨hneed, fun p hp => ?_⟩
    have hp' := hset p hp
    split_ifs at hp' ⊢ with hfull
    · exact hp'
    · exact ⟨hp', (hplaced p hp).2 (Bool.eq_false_of_not_eq_true hfull)⟩
  | skip hpc hneed =>
    rw [hpc] at hplaced
    refine h.toMeaningful.of_eq rfl rfl fun p hp => ?_
    rw [(hplaced p hp).1] at hneed
    cases hneed
  | snapshotDone hpc =>
    rw [hpc] at hplaced
    refine h.toMeaningful.of_eq rfl rfl fun p hp => ?_
    have hp' := hplaced.2 p hp
    split_ifs at hp' with hfull
    · exact absurd rfl hp'.1
    · exact ⟨Bool.eq_false_of_not_eq_true hfull, hp'.2⟩
  | sendPart hpc hne =>
    rw [hpc] at hplaced
    refine h.toMeaningful.sendBatch (fun p hp => ?_) (fun _ => hplaced.1)
      fun hfull => by cases hfull
    have hp' := hplaced.2 p hp
    split_ifs at hp' with hfull
    · exact ⟨hfull.symm, hp'.2⟩
    · exact absurd hp'.1 hne
  | take hpc => exact h.take hpc (hset hpc)
  | requeue hpc =>
    rw [hpc] at hplaced
    obtain ⟨⟨p, hp, -, rfl⟩, hbatch⟩ := hplaced
    refine h.toMeaningful.of_eq rfl rfl ⟨rfl, fun p' hp' _ => ?_⟩
    obtain rfl : p = p' := Option.some.inj (hp.symm.trans hp')
    exact ⟨hbatch, List.prefix_append _ _⟩
  | ackPart hpc =>
    rw [hpc] at hplaced
    refine h.toMeaningful.ack rfl rfl fun hnone => ⟨hplaced.2.1 rfl, fun p hp => ?_⟩
    rw [hnone] at hp
    cases hp
  | ackEvents hpc =>
    refine h.toMeaningful.ack rfl rfl fun hnone p hp => ?_
    rw [hnone] at hp
    cases hp
  | failPart hpc =>
    rw [hpc] at hplaced
    obtain ⟨⟨p, hp, hfull, -⟩, hneed, -⟩ := hplaced
    refine h.toMeaningful.of_eq rfl rfl ⟨hneed rfl, fun p' hp' hfull' => ?_⟩
    obtain rfl : p = p' := Option.some.inj (hp.symm.trans hp')
    rw [hfull] at hfull'
    cases hfull'
  | failEvents hpc =>
    rw [hpc] at hplaced
    exact h.toMeaningful.of_eq rfl rfl ⟨hplaced.1, hplaced.2.2 rfl⟩
  | awake hpc =>
    rw [hpc] at hplaced
    exact h.toMeaningful.of_eq rfl rfl fun p hp => ⟨hplaced.1, hplaced.2 p hp⟩
  | resume hpc =>
    rw [hpc] at hplaced
    refine h.toMeaningful.of_eq rfl rfl fun p hp => ?_
    have hnone : s.pending = none := hplaced
    have hsome : s.pending = some p := hp
    rw [hnone] at hsome
    cases hsome
  | cancel hpc => exact h.toMeaningful.of_eq rfl rfl trivial

/-- Before `Run` there is no attempt, and the sequence numbers mean what they should. -/
lemma numbered_init (seq : ℤ) : Numbered u (init seq) where
  beyond a ha := by cases ha
  identifies a ha := by cases ha
  placed p hp := by cases hp

end Lemmas

/-- **A sequence number identifies one batch in settled runs.** Whatever is enqueued when, whatever
snapshots are returned and whatever fails, two batches sent under one number agree on the flag and
the events, in every run in which a failed batch of events is followed by an empty snapshot and is
closed when it is taken again, and a failed part of a snapshot is followed by a snapshot that begins
with it.

**Proof sketch.** Numbers up to the acknowledged one are not used again, and the next one is that of
the batch that was not acknowledged, if there is one. Such a batch is sent again: a part of a
snapshot as the first part of the next one, a batch of events from the front of the buffer, to which
it has been put back and from which it is cut off the same because it is closed. -/
theorem seqIdentifies_of_settled (u : Uploader) (seq : ℤ) (ls : List Label) (s : State)
    (hrun : run u.step (init seq) ls = some s) (hset : Along u.step u.Settled (init seq) ls) :
    s.SeqIdentifies := by
  have hinv : Numbered u s :=
    Transition.invariant (fun h hset hstep => h.step hset hstep) (numbered_init seq) hset hrun
  exact hinv.identifies

/-! ## A batch that fails once -/

/-- A pod is added, the batch fails, the snapshot `evs` follows, and then what is next. -/
def failedOnce (evs : List InventoryEvent) : List Label :=
  [.enqueue (podEvent "web" "add" 1), .snapshot [], .next, .next, .fail, .next, .wake,
    .snapshot evs, .next, .next]

/-- The snapshot is empty, and the batch is sent once more. -/
theorem seqIdentifies_failedOnce :
    ∃ s, run smallUploader.step (init 0) (failedOnce []) = some s ∧ s.attempts.length = 2 ∧
      s.SeqIdentifies := by
  obtain ⟨s, hs, hlen⟩ := Option.map_eq_some_iff.mp (show Option.map (·.attempts.length)
    (run smallUploader.step (init 0) (failedOnce [])) = some 2 by decide +kernel)
  exact ⟨s, hs, hlen, seqIdentifies_of_settled smallUploader 0 _ s hs (by decide +kernel)⟩

/-- The snapshot holds another pod, and is sent under the number of the failed batch. -/
theorem snapshot_under_failed_number :
    ∃ s, run smallUploader.step (init 0) ((failedOnce [podEvent "api" "sync" 2]).dropLast) =
        some s ∧ ¬s.SeqIdentifies := by
  obtain ⟨s, hs, hatt⟩ := Option.map_eq_some_iff.mp (show Option.map State.attempts
    (run smallUploader.step (init 0) ((failedOnce [podEvent "api" "sync" 2]).dropLast)) = some
      [{ seq := 1, events := [podEvent "web" "add" 1] },
        { seq := 1, full := true, events := [podEvent "api" "sync" 2] }] by decide +kernel)
  refine ⟨s, hs, fun hid => ?_⟩
  rw [State.SeqIdentifies, hatt] at hid
  revert hid
  decide +kernel

end K8sAgent.Uploader
